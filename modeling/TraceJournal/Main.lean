import Std.Time.DateTime.Timestamp
import TraceJournal.CommandLine.Arguments
import TraceJournal.CommandLine.Run

/-!
# The program

Reads the command line and gives the command a disk with the files that it names. The file of the
store is written back when the command is over, and looked at again and again while it is followed.

Library tracelog-cli, its `main`.
-/

namespace TraceJournal.Program

/-- The present. -/
def present : IO Instant := do
  let now ← Std.Time.Timestamp.now
  let nanos := now.toNanosecondsSinceUnixEpoch.val
  match Instant.ofParts? (nanos / 1000000000) (nanos % 1000000000).toNat with
  | some t => return t
  | none => throw (.userError "the clock is out of range")

/-- The volume with what a path leads to and through at present. -/
def fetch (path : Path) (v : Volume) : IO Volume :=
  path.stages.foldlM (fun v path => do
    try
      let bytes ← IO.FS.readBinFile path.text
      return v.holding path bytes.toList
    catch
      | .noFileOrDirectory .. => return v
      | _ => return (v.createDirectories path).2) v

/-- Writes the file of a store, if there is one and it has changed. -/
def save (path : Path) (before after : Volume) : IO Unit := do
  if let .ok bytes := after.read path then
    unless (before.read path).toOption == some bytes do
      let directory := path.directory.text
      unless directory.isEmpty do IO.FS.createDirAll directory
      IO.FS.writeBinFile path.text ⟨bytes.toArray⟩

/-- The journal as it is at present. -/
def refresh (path : Path) (f : Following) : IO Following := do
  match f.link.store with
  | .memory _ => return f
  | .segment s disk =>
    let volume ← fetch path disk.volume
    return { f with link := { f.link with store := .segment s { disk with volume } } }

/-- Prints what comes in until a number of milliseconds has passed since the start, or without
end. -/
partial def follow (i : Invocation) (path : Path) (deadline : Option Nat) (f : Following) :
    IO Unit := do
  let (records, f) := f.take
  IO.print (i.format.lines records)
  (← IO.getStdout).flush
  if deadline.any (· ≤ (← IO.monoMsNow)) then IO.eprintln f.farewell
  else
    IO.sleep (.ofNat f.interval)
    let f ← refresh path f
    follow i path deadline (f.rest (← present))

/-- Runs a command and answers the status with which the program ends. -/
def run (i : Invocation) : IO UInt32 := do
  let fail (e : CommandError) : IO UInt32 := do
    IO.eprintln ("Error: " ++ e.message)
    if let some cause := e.cause? then IO.eprintln ("\nCaused by:\n    " ++ cause)
    return .ofNat e.status
  let volume ← i.settings.elim (pure .empty) (fetch · .empty)
  match Run.settingsFor i.settings volume with
  | .error e => fail e
  | .ok settings =>
    let path := settings.store.path
    let volume ← fetch path volume
    match i.run (← present) ⟨volume, []⟩ with
    | (.error e, _) => fail e
    | (.ok (.ended output notices), disk) =>
      for notice in notices do IO.eprintln notice.toJson.render
      save path volume disk.volume
      IO.print output
      return 0
    | (.ok (.following checkpoint f), _) =>
      IO.eprintln (Following.greeting path checkpoint)
      let start ← IO.monoMsNow
      follow i path (i.command.seconds?.map fun n => start + n.toNat * 1000) f
      return 0

end TraceJournal.Program

/-- The program. Source: tracelog-cli `main`. -/
def main (args : List String) : IO UInt32 := do
  match TraceJournal.Invocation.read args with
  | .ok i => TraceJournal.Program.run i
  | .error e =>
    IO.eprintln e.message
    return .ofNat e.status
