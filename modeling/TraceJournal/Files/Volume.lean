import TraceJournal.Files.Path

/-!
# Files

A volume of files and directories, which have numbers. A name in a directory leads to a file or a
directory by its number, so that a file whose name is removed goes on to exist for those who have it
open. Only whole contents are kept; reading and writing parts of them is left to those who use a
volume.

What tracelog-store's module `segment` and tracelog-log's module `config` use of a file system.
-/

namespace TraceJournal

/-- What a name leads to. -/
inductive Entry where
  | file (number : Nat)
  | directory (number : Nat)
  deriving DecidableEq, Repr

/-- A name in a directory. -/
structure Place where
  directory : Nat
  name : String
  deriving DecidableEq, Repr

/-- Files by number, and places that lead to files and directories. The root has the number zero,
and the other directories those from one on. -/
structure Volume where
  contents : List (List UInt8)
  /-- How many directories there are besides the root. -/
  directories : Nat
  entries : List (Place × Entry)
  /-- A name of a file leads to one that is there. -/
  file_lt : ∀ place number, (place, Entry.file number) ∈ entries → number < contents.length
  deriving DecidableEq

namespace Volume

/-- A volume without files. -/
def empty : Volume := ⟨[], 0, [], fun _ _ h => nomatch h⟩

/-- What has a name in a directory. -/
def named (v : Volume) (place : Place) : Except FileError Entry :=
  if Path.nameLimit < place.name.utf8ByteSize then .error .nameTooLong
  else (v.entries.lookup place).elim (.error .missing) .ok

/-- The directory at the end of a way, which is a list of the directories from there back to the
root, without the root itself. -/
def endOf (way : List Nat) : Nat := way.headD 0

/-- The way on which some steps lead. Every name has to belong to a directory, also if the way leads
up from it. Up from the root is the root. -/
def walk (v : Volume) (way : List Nat) : List Path.Step → Except FileError (List Nat)
  | [] => .ok way
  | .here :: rest => v.walk way rest
  | .up :: rest => v.walk way.tail rest
  | .into name :: rest =>
    match v.named ⟨endOf way, name⟩ with
    | .ok (.directory n) => v.walk (n :: way) rest
    | .ok (.file _) => .error .notDirectory
    | .error e => .error e

/-- What a path leads to. -/
def find (v : Volume) (p : Path) : Except FileError Entry := do
  p.check
  let way ← v.walk [] p.way
  match p.goal with
  | .here => return .directory (endOf way)
  | .up => return .directory (endOf way.tail)
  | .into name =>
    match ← v.named ⟨endOf way, name⟩ with
    | .directory n => return .directory n
    | .file n => if p.endsInSlash then throw .notDirectory else return .file n

/-- The number of the file that a path leads to. -/
def file (v : Volume) (p : Path) : Except FileError Nat :=
  match v.find p with
  | .ok (.file n) => .ok n
  | .ok (.directory _) => .error .isDirectory
  | .error e => .error e

/-- The contents of a file. -/
def bytes (v : Volume) (number : Nat) : List UInt8 := v.contents[number]?.getD []

/-- The volume with other contents of a file. Source: tracelog-store `SegmentTraceStore.compact` and
`SegmentTraceStore.insert`. -/
def write (v : Volume) (number : Nat) (bytes : List UInt8) : Volume where
  contents := v.contents.set number bytes
  directories := v.directories
  entries := v.entries
  file_lt place n h := Nat.lt_of_lt_of_eq (v.file_lt place n h) List.length_set.symm

/-- The contents of the file that a path leads to. Source: tracelog-log `TraceLogConfig.load` and
tracelog-store `SegmentTraceStore.scan`. -/
def read (v : Volume) (p : Path) : Except FileError (List UInt8) := v.bytes <$> v.file p

/-- The length of the file that a path leads to, if it leads to a file. -/
def size? (v : Volume) (p : Path) : Option Nat := (v.read p).toOption.map List.length

theorem addFile_lt (v : Volume) (place other : Place) (n : Nat)
    (h : (other, Entry.file n) ∈ (place, Entry.file v.contents.length) :: v.entries) :
    n < (v.contents ++ [[]]).length := by
  rw [List.length_append]
  rcases List.mem_cons.mp h with same | old
  · cases same
    exact Nat.lt_succ_self _
  · exact Nat.lt_succ_of_lt (v.file_lt other n old)

/-- The volume with one more file, which is empty. -/
def addFile (v : Volume) (place : Place) : Nat × Volume :=
  (v.contents.length, {
    contents := v.contents ++ [[]]
    directories := v.directories
    entries := (place, .file v.contents.length) :: v.entries
    file_lt := v.addFile_lt place })

theorem addDirectory_lt (v : Volume) (place other : Place) (n : Nat)
    (h : (other, Entry.file n) ∈ (place, Entry.directory (v.directories + 1)) :: v.entries) :
    n < v.contents.length := by
  rcases List.mem_cons.mp h with same | old
  · cases same
  · exact v.file_lt other n old

/-- The volume with one more directory. -/
def addDirectory (v : Volume) (place : Place) : Nat × Volume :=
  (v.directories + 1, {
    contents := v.contents
    directories := v.directories + 1
    entries := (place, .directory (v.directories + 1)) :: v.entries
    file_lt := v.addDirectory_lt place })

/-- The file that a path leads to; it is created if it is missing. A path that ends in a slash leads
to no file that could be created, whatever has the name before the slash. Source: tracelog-store
`SegmentTraceStore.open`, where it opens the file. -/
def openOrCreate (v : Volume) (p : Path) : Except FileError (Nat × Volume) := do
  p.check
  let way ← v.walk [] p.way
  match p.goal with
  | .here | .up => throw .isDirectory
  | .into name =>
    if p.endsInSlash then throw .isDirectory
    let place : Place := ⟨endOf way, name⟩
    match v.named place with
    | .ok (.file n) => return (n, v)
    | .ok (.directory _) => throw .isDirectory
    | .error .missing => return v.addFile place
    | .error e => throw e

/-- The volume with the directories on a way, as far as they were missing. The directories before
what cannot be one are kept. Once a directory has been `made`, every further one is tried by its own
name; before that, only the last one is. -/
def makeWay (v : Volume) (made : Bool) (way : List Nat) :
    List Path.Step → Except FileError Unit × Volume
  | [] => (.ok (), v)
  | .here :: rest => v.makeWay made way rest
  | .up :: rest => v.makeWay made way.tail rest
  | .into name :: rest =>
    let place : Place := ⟨endOf way, name⟩
    match v.named place with
    | .ok (.directory n) => v.makeWay made (n :: way) rest
    | .ok (.file _) => (.error (if made ∨ rest = [] then .alreadyExists else .notDirectory), v)
    | .error .missing =>
      let (n, v) := v.addDirectory place
      v.makeWay true (n :: way) rest
    | .error e => (.error e, v)

/-- The volume with a directory and all that it stands in. The empty path needs none. Source:
tracelog-store `SegmentTraceStore.open`, where it makes directories. -/
def createDirectories (v : Volume) (p : Path) : Except FileError Unit × Volume :=
  match p.check with
  | .ok () => v.makeWay false [] (p.parts.map .ofPart)
  | .error .missing => (.ok (), v)
  | .error e => (.error e, v)

/-- The volume without the name of a file. No file has two names. -/
def remove (v : Volume) (p : Path) : Except FileError Volume := do
  let number ← v.file p
  return {
    contents := v.contents
    directories := v.directories
    entries := v.entries.filter fun (_, entry) => entry != .file number
    file_lt := fun place n h => v.file_lt place n (List.mem_filter.mp h).1 }

/-- The volume with the given contents under a path; the file is created if it is missing. -/
def store (v : Volume) (p : Path) (bytes : List UInt8) : Except FileError Volume := do
  let (number, v) ← v.openOrCreate p
  return v.write number bytes

/-- The volume in which a path leads to a file with the given contents. If that cannot be, nothing
is stored. -/
def holding (v : Volume) (p : Path) (bytes : List UInt8) : Volume :=
  let v := (v.createDirectories p.directory).2
  (v.store p bytes).toOption.getD v

/-- What is written to a file can be read from it. -/
theorem bytes_write (v : Volume) {number : Nat} (h : number < v.contents.length)
    (bytes : List UInt8) : (v.write number bytes).bytes number = bytes := by
  simp [Volume.bytes, write, h]

/-- Writing to one file changes no other. -/
theorem bytes_write_of_ne (v : Volume) {number other : Nat} (h : number ≠ other)
    (bytes : List UInt8) : (v.write number bytes).bytes other = v.bytes other := by
  simp [Volume.bytes, write, h]

end Volume

end TraceJournal
