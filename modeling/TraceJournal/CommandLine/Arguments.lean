import TraceJournal.CommandLine.Invocation
import TraceJournal.Time.Reader

/-!
# Reading the command line

Options stand before and after the word that names the command; those before it are the ones that
go with every command. A value follows its option as the next word, or after an equals sign, or,
for an option of one letter, right away. A value on its own is looked at only when the next option
comes or the words are over, so that a fault in between counts first; a fault behind the command
counts before one in the last value in front of it.

Library tracelog-cli, module `cli`, as clap reads it; SPEC_FULL §4.7.
-/

namespace TraceJournal

namespace CommandLine

/-- The words that name a command. Source: tracelog-cli `Command`. -/
inductive Verb where
  | tail
  | emit
  | config
  | help
  deriving DecidableEq, Repr

/-- The command that a word names. -/
def Verb.ofWord? (word : String) : Option Verb :=
  [("tail", Verb.tail), ("emit", .emit), ("config", .config), ("help", .help)].lookup word

/-- The options. Source: tracelog-cli `Cli`, `TailArgs` and `EmitArgs`. -/
inductive Switch where
  | verbose
  | settings
  | format
  | start
  | seconds
  | count
  | owner
  | help
  | version
  deriving DecidableEq, Repr

namespace Switch

/-- The option with a long name. -/
def ofName? (name : String) : Option Switch :=
  [("verbose", Switch.verbose), ("config", .settings), ("format", .format), ("from", .start),
    ("for", .seconds), ("count", .count), ("owner", .owner), ("help", .help),
    ("version", .version)].lookup name

/-- The option with a name of one letter. -/
def ofLetter? (letter : Char) : Option Switch :=
  [('v', Switch.verbose), ('n', .count), ('h', .help), ('V', .version)].lookup letter

/-- The option can stand after a command, or in front of it. -/
def standsAt (place : Option Verb) : Switch → Bool
  | verbose | settings | format | help => true
  | version => place == none
  | start | seconds => place == some .tail
  | count | owner => place == some .emit

/-- The option comes with a value. -/
def takesValue : Switch → Bool
  | verbose | help | version => false
  | _ => true

end Switch

/-- The options read so far, in front of a command or after it. -/
structure Draft where
  verbose : Bool
  settings : Option Path
  format : Option OutputFormat
  start : Option Instant
  seconds : Option UInt64
  count : Option UInt64
  owner : Option String
  deriving DecidableEq

namespace Draft

/-- No option was read. -/
def empty : Draft := ⟨false, none, none, none, none, none, none⟩

/-- A path, which is not empty. -/
def readPath (value : String) : Except UsageError Path :=
  if value.isEmpty then .error .invalidValue else .ok ⟨value⟩

/-- The name of a format. Source: tracelog-cli `OutputFormat`. -/
def readFormat (value : String) : Except UsageError OutputFormat :=
  (OutputFormat.ofName? value).elim (.error .invalidValue) .ok

/-- A time in the form of RFC 3339. Source: tracelog-cli `parse_time`. -/
def readStart (value : String) : Except UsageError Instant :=
  match Instant.readStrict value with
  | .ok t => .ok t
  | .error e =>
    .error (.malformedValue (some ("invalid RFC 3339 time '" ++ value ++ "': " ++ e.message)))

/-- A number below `2 ^ 64`, with a plus sign or without. -/
def readNumber (value : String) : Except UsageError UInt64 :=
  let digits :=
    match value.toList with
    | '+' :: rest => rest
    | digits => digits
  let value := Text.decimalValue digits
  if !digits.isEmpty && digits.all Char.isDigit && value < 0x10000000000000000 then
    .ok (.ofNat value)
  else .error (.malformedValue none)

/-- What an option is set to, which must not be set already. -/
def once {α : Type} (old : Option α) (value : Except UsageError α) :
    Except UsageError (Option α) :=
  if old.isSome then .error .repeatedOption else some <$> value

/-- The draft with an option set to a value. -/
def set (d : Draft) (value : String) : Switch → Except UsageError Draft
  | .verbose => if d.verbose then .error .repeatedOption else .ok { d with verbose := true }
  | .settings => do return { d with settings := ← once d.settings (readPath value) }
  | .format => do return { d with format := ← once d.format (readFormat value) }
  | .start => do return { d with start := ← once d.start (readStart value) }
  | .seconds => do return { d with seconds := ← once d.seconds (readNumber value) }
  | .count => do return { d with count := ← once d.count (readNumber value) }
  | .owner => do return { d with owner := ← once d.owner (.ok value) }
  | .help => .error .help
  | .version => .error .version

end Draft

/-- The options read so far, and the one whose value was not looked at yet. -/
structure Progress where
  draft : Draft
  /-- An option with its value, if that has come already. -/
  pending : Option (Switch × Option String)

namespace Progress

/-- Nothing was read yet. -/
def start : Progress := ⟨.empty, none⟩

/-- The next word can be the value of an option. -/
def awaitsValue (p : Progress) : Bool := p.pending.any (·.2.isNone)

/-- Sets the option whose value was not looked at yet. -/
def resolve (p : Progress) : Except UsageError Draft :=
  match p.pending with
  | none => .ok p.draft
  | some (_, none) => .error .invalidValue
  | some (switch, some value) => p.draft.set value switch

/-- An option with the value that comes with it, if any. -/
def option (switch : Switch) (value : Option String) (p : Progress) :
    Except UsageError Progress := do
  let draft ← p.resolve
  match value with
  | some value => return ⟨← draft.set value switch, none⟩
  | none =>
    if switch.takesValue then return ⟨draft, some (switch, none)⟩
    else return ⟨← draft.set "" switch, none⟩

/-- An option with a long name, read after its dashes. -/
def long (place : Option Verb) (chars : List Char) (p : Progress) : Except UsageError Progress :=
  let name := String.ofList (chars.takeWhile (· != '='))
  let value := (chars.dropWhile (· != '=')).tail?.map String.ofList
  match (Switch.ofName? name).filter (·.standsAt place) with
  | none => .error .unknownArgument
  | some switch =>
    if !switch.takesValue && value.isSome then .error .unneededValue else p.option switch value

/-- Options of one letter, of which the last one can have its value right behind it. -/
def letters (place : Option Verb) : List Char → Progress → Except UsageError Progress
  | [], p => .ok p
  | letter :: rest, p =>
    match (Switch.ofLetter? letter).filter (·.standsAt place) with
    | none => .error .unknownArgument
    | some switch =>
      if switch.takesValue then
        match rest with
        | [] => p.option switch none
        | '=' :: value => p.option switch (some (String.ofList value))
        | value => p.option switch (some (String.ofList value))
      else do letters place rest (← p.option switch none)

/-- A word that is no option. -/
def word (place : Option Verb) (arg : String) (p : Progress) : Except UsageError Progress :=
  match p.pending with
  | some (switch, none) => .ok { p with pending := some (switch, some arg) }
  | _ => .error (if place.isNone then .unknownCommand else .unknownArgument)

/-- One argument. -/
def take (place : Option Verb) (arg : String) (p : Progress) : Except UsageError Progress :=
  match arg.toList with
  | '-' :: '-' :: chars => p.long place chars
  | '-' :: c :: chars => p.letters place (c :: chars)
  | _ => p.word place arg

end Progress

/-- The arguments behind two dashes on their own; there should be none. -/
def rejectExtra (place : Option Verb) : List String → Except UsageError Unit
  | [] => .ok ()
  | arg :: _ =>
    .error (if place.isNone && (Verb.ofWord? arg).isNone then .unknownCommand else .unknownArgument)

/-- Reads options, in front of a command up to the word that names it. Answers the command and what
stands behind it. -/
def scan (place : Option Verb) :
    List String → Progress → Except UsageError (Progress × Option (Verb × List String))
  | [], p => .ok (p, none)
  | arg :: rest, p =>
    match if place.isNone && !p.awaitsValue then Verb.ofWord? arg else none with
    | some verb => .ok (p, some (verb, rest))
    | none =>
      if arg = "--" then do
        rejectExtra place rest
        return (p, none)
      else do scan place rest (← p.take place arg)

/-- Help on a command, or on all: the words behind can name one command. -/
def askForHelp : List String → UsageError
  | [] => .help
  | [arg] => if (Verb.ofWord? arg).isSome then .help else .unknownCommand
  | _ :: _ :: _ => .unknownCommand

/-- The command with its options. -/
def commandOf (verb : Verb) (d : Draft) : Except UsageError Command :=
  match verb with
  | .tail => .ok (.tail d.start d.seconds)
  | .emit => .ok (.emit (d.count.getD 10) (d.owner.getD "tracelog-cli"))
  | .config => .ok .config
  | .help => .error .help

end CommandLine

open CommandLine

/-- Reads a command line. Of an option that stands both in front of the command and behind it, the
one behind counts. Source: tracelog-cli `Cli`, by clap `try_parse_from`. -/
def Invocation.read (args : List String) : Except UsageError Invocation := do
  match ← scan none args .start with
  | (p, none) =>
    let draft ← p.resolve
    .error (if draft = .empty then .nothingGiven else .missingCommand)
  | (_, some (.help, rest)) => .error (askForHelp rest)
  | (p, some (verb, rest)) =>
    let (q, _) ← scan (some verb) rest .start
    let inner ← q.resolve
    let outer ← p.resolve
    return {
      command := ← commandOf verb inner
      verbose := outer.verbose || inner.verbose
      settings := inner.settings <|> outer.settings
      format := (inner.format <|> outer.format).getD .text }

end TraceJournal
