import TraceJournal.CommandLine.Demonstration
import TraceJournal.CommandLine.Following
import TraceJournal.Settings.File

/-!
# Running commands

A command works on a disk. It is over at once, or follows a journal for as long as it is let.

Library tracelog-cli, module `commands`; SPEC_FULL §4.7.
-/

namespace TraceJournal

/-- Why a command fails. -/
inductive CommandError where
  | loading (path : Path) (cause : JournalError)
  | opening (path : Path) (cause : StoreError)
  | journal (cause : JournalError)
  /-- The time until which a journal is to be followed cannot be told. -/
  | endless
  deriving DecidableEq

/-- What was being done when a command failed. -/
def CommandError.message : CommandError → String
  | loading path _ => "loading configuration from " ++ path.text
  | opening path _ => "opening trace store " ++ path.text
  | journal cause => cause.message
  | endless => "overflow when adding duration to instant"

/-- Why it failed, if the message does not say so already. -/
def CommandError.cause? : CommandError → Option String
  | loading _ cause => some cause.message
  | opening _ cause => some cause.message
  | journal _ | endless => none

/-- The command broke off, because it could not count so far, and did not end in order. -/
def CommandError.isCrash : CommandError → Bool
  | journal .longRun | endless => true
  | _ => false

/-- The status with which the program ends. -/
def CommandError.status (e : CommandError) : Nat := if e.isCrash then 101 else 1

/-- What has become of a command. -/
inductive Run where
  /-- It is over. -/
  | ended (output : String) (notices : List Notice)
  /-- It follows a journal, from a checkpoint on. -/
  | following (checkpoint : Checkpoint) (following : Following)

namespace Run

/-- The settings that a command is run with. Source: tracelog-cli `load_config`. -/
def settingsFor (path : Option Path) (volume : Volume) : Except CommandError Settings :=
  match path with
  | none => .ok .standard
  | some path => (Settings.load path volume).mapError (.loading path)

/-- Opens the store that the settings name. Source: tracelog-cli `open_store`. -/
def openStore (settings : Settings) (disk : Disk) : Except CommandError Link × Disk :=
  match Segment.openAt settings.store.path settings.store.maxSize.toNat disk with
  | (.ok store, disk) => (.ok (.reliable (.segment store disk)), disk)
  | (.error e, disk) => (.error (.opening settings.store.path e), disk)

/-- The disk that a store is on. -/
def diskOf (store : Option Store) (disk : Disk) : Disk :=
  match store with
  | some (.segment _ disk) => disk
  | _ => disk

/-- For how many seconds a journal can be followed at most: as many as 63 bits tell. -/
def longestFollowing : Nat := 0x7fffffffffffffff

/-- Starts following a journal, unless reading is not allowed. Source: tracelog-cli `cmd_tail`. -/
def tail (settings : Settings) (time : Option Instant) (seconds : Option UInt64) (now : Instant)
    (disk : Disk) : Except CommandError Run × Disk :=
  if settings.readEnabled then
    match openStore settings disk with
    | (.error e, disk) => (.error e, disk)
    | (.ok link, disk) =>
      match Following.start settings.reader time now link with
      | .ok (checkpoint, f) =>
        if seconds.any (longestFollowing < ·.toNat) then (.error .endless, disk)
        else (.ok (.following checkpoint f), disk)
      | .error e => (.error (.journal e), disk)
  else (.ok (.ended "! Reads are disabled by configuration.\n" []), disk)

/-- Emits the events of a demonstration. Source: tracelog-cli `cmd_emit`. -/
def emit (settings : Settings) (count : UInt64) (owner : String) (verbose : Bool) (now : Instant)
    (disk : Disk) : Except CommandError Run × Disk :=
  match openStore settings disk with
  | (.error e, disk) => (.error e, disk)
  | (.ok link, disk) =>
    let b := Demonstration.run owner (DemoEvent.sequence count)
      (Demonstration.start settings verbose now link)
    let output := (Demonstration.summary count b).text ++
      if settings.writeEnabled then "" else "  Writes are disabled by configuration.\n"
    (.ok (.ended output b.notices.reverse), diskOf (Demonstration.store? b) disk)

/-- Shows the settings. Source: tracelog-cli `cmd_config`. -/
def config (settings : Settings) : Except CommandError Run :=
  match settings.render with
  | .ok text => .ok (.ended text [])
  | .error e => .error (.journal e)

end Run

/-- Runs a command. What it has done to the disk stays done if it fails. Source: tracelog-cli
`run_command`. -/
def Invocation.run (i : Invocation) (now : Instant) (disk : Disk) :
    Except CommandError Run × Disk :=
  match Run.settingsFor i.settings disk.volume with
  | .error e => (.error e, disk)
  | .ok settings =>
    match i.command with
    | .tail time seconds => Run.tail settings time seconds now disk
    | .emit count owner => Run.emit settings count owner i.verbose now disk
    | .config => (Run.config settings, disk)

/-- Runs a command on a disk that nobody else uses, and answers what it prints. When no end is set
for following a journal, it is not waited for. -/
def Invocation.runAlone (i : Invocation) (now : Instant) (disk : Disk) :
    Except CommandError String × Disk :=
  match i.run now disk with
  | (.error e, disk) => (.error e, disk)
  | (.ok (.ended output _), disk) => (.ok output, disk)
  | (.ok (.following _ f), disk) =>
    let rests := i.command.seconds?.elim 0 (f.restsIn ·)
    let (records, f) := f.collect now rests
    (.ok (i.format.lines records), Run.diskOf (some f.link.store) disk)

end TraceJournal
