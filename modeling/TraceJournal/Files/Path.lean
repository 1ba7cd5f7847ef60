/-!
# Paths

A path is a text whose parts stand between slashes. An empty part and a dot lead nowhere, two dots
lead up, and every other part is a name that leads into what has it.

Paths as `SegmentTraceStore.open` of tracelog-store takes them and the system looks them up.
-/

namespace TraceJournal

/-- Why a file cannot be used. -/
inductive FileError where
  /-- Nothing has the name. -/
  | missing
  /-- The name belongs to a directory. -/
  | isDirectory
  /-- The name leads through something that is no directory. -/
  | notDirectory
  /-- Something has the name already. -/
  | alreadyExists
  /-- A name, or the path as a whole, has too many bytes. -/
  | nameTooLong
  /-- A character of the path is the one with the number zero. -/
  | nulInName
  /-- The contents are no text. -/
  | notText
  deriving DecidableEq, Repr

/-- The wording of a file error. -/
def FileError.message : FileError → String
  | .missing => "No such file or directory (os error 2)"
  | .isDirectory => "Is a directory (os error 21)"
  | .notDirectory => "Not a directory (os error 20)"
  | .alreadyExists => "File exists (os error 17)"
  | .nameTooLong => "File name too long (os error 36)"
  | .nulInName => "file name contained an unexpected NUL byte"
  | .notText => "stream did not contain valid UTF-8"

/-- A name of a file, as it is written. -/
structure Path where
  text : String
  deriving DecidableEq

namespace Path

/-- Where one part of a path leads. -/
inductive Step where
  | here
  | up
  | into (name : String)
  deriving DecidableEq, Repr

/-- Where a part leads. -/
def Step.ofPart (part : String) : Step :=
  if part = "" ∨ part = "." then .here else if part = ".." then .up else .into part

/-- How many bytes a name has at most. -/
def nameLimit : Nat := 255

/-- A path has fewer bytes than this. -/
def limit : Nat := 4096

/-- The parts between the slashes. -/
def parts (p : Path) : List String := (p.text.toList.splitOn '/').map String.ofList

/-- The path made of some parts. -/
def ofParts (parts : List String) : Path := ⟨"/".intercalate parts⟩

/-- The path ends in a slash, so that only a directory can be meant. -/
def endsInSlash (p : Path) : Bool := p.text.endsWith '/'

/-- The parts from the last one to the first one, without the slashes at the end. -/
def partsBack (p : Path) : List String := p.parts.reverse.dropWhile (· = "")

/-- Where the last part leads. -/
def goal (p : Path) : Step := .ofPart (p.partsBack.headD "")

/-- Where the parts before the last one lead. -/
def way (p : Path) : List Step := (p.partsBack.drop 1).reverse.map .ofPart

/-- The path of the directory that what the path leads to has to stand in: parts that lead nowhere
are left out at the end, before and after the last other part is taken away. Nothing is left if that
is the root, or where the path starts. Source: tracelog-store `SegmentTraceStore.open`, its
`parent`. -/
def directory (p : Path) : Path :=
  let trim (back : List String) : List String := back.dropWhile (Step.ofPart · = .here)
  .ofParts (trim ((trim p.parts.reverse).drop 1)).reverse

/-- The path cut off after each of its parts. -/
def stages (p : Path) : List Path :=
  (List.range p.parts.length).map fun n => .ofParts (p.parts.take (n + 1))

/-- Refuses what cannot be a path of anything. -/
def check (p : Path) : Except FileError Unit :=
  if p.text.contains '\x00' then .error .nulInName
  else if limit ≤ p.text.utf8ByteSize then .error .nameTooLong
  else if p.text.isEmpty then .error .missing
  else .ok ()

end Path

end TraceJournal
