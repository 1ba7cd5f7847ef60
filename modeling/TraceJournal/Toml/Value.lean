import TraceJournal.Decode

/-!
# TOML values

Values of a settings file, and tables as they are built up from its lines. A table remembers how
it came about, as that settles what may be added to it later.

Library toml, `Value`, and what its reader makes of tables.
-/

namespace TraceJournal

/-- How a table came about. -/
inductive TableKind where
  /-- It is written as a value, and nothing can be added to it. -/
  | inline
  /-- It has a header of its own, or is the table of the whole file. -/
  | headed
  /-- It stands on the way to a table with a header. -/
  | passed
  /-- It stands on the way to a value with a dotted key. -/
  | dotted
  deriving DecidableEq, Repr

/-- A value of a settings file. Source: toml `Value`. -/
inductive Toml where
  | text (value : String)
  | integer (value : Int)
  /-- A number with a point or an exponent; none if it is not finite. -/
  | decimal (value : Option Binary64)
  | boolean (value : Bool)
  /-- A date, a time of day, or both. -/
  | moment
  | array (items : List Toml)
  | table (kind : TableKind) (entries : List (String × Toml))
  /-- The tables under one repeated header. -/
  | tables (rows : List (List (String × Toml)))

namespace Toml

instance : Inhabited Toml := ⟨moment⟩

/-- The integer has at most 64 bits, one of them for the sign. -/
def inRange (n : Int) : Bool := -0x8000000000000000 ≤ n && n < 0x8000000000000000

/-- A moment is looked at as a structure without any field that is known elsewhere. -/
instance : HasShape Toml where
  shape
    | .text s => .text s
    | .integer n => .integer n
    | .decimal x => .decimal (x.getD .zero)
    | .boolean b => .boolean b
    | .moment => .map []
    | .array items => .sequence items
    | .table _ entries => .map entries
    | .tables rows => .sequence (rows.map (table .headed))
  refusesExtraItems := false

/-- The entries with one replaced. -/
def replace (key : String) (value : Toml) (entries : List (String × Toml)) :
    List (String × Toml) :=
  entries.map fun (name, old) => if name = key then (name, value) else (name, old)

/-- Changes the table at the end of a path; tables that are missing on the way are made. `dotted`
tells that the path is a dotted key, which cannot lead through a table with a header. Nothing comes
of a path through something that is no table. -/
def update (dotted : Bool) (change : TableKind → List (String × Toml) →
    Option (List (String × Toml))) :
    List String → TableKind → List (String × Toml) → Option (List (String × Toml))
  | [], kind, entries => change kind entries
  | key :: path, _, entries =>
    match entries.lookup key with
    | none => do
      let made := if dotted then TableKind.dotted else .passed
      let inner ← update dotted change path made []
      return entries ++ [(key, table made inner)]
    | some (.table kind inner) =>
      if kind = .inline ∨ (dotted ∧ kind = .headed) then none
      else do
        let inner ← update dotted change path kind inner
        return replace key (table kind inner) entries
    | some (.tables rows) =>
      match rows.getLast? with
      | none => none
      | some last => do
        let inner ← update dotted change path .headed last
        return replace key (tables (rows.dropLast ++ [inner])) entries
    | some _ => none

/-- Adds a value under a dotted key. The key must be new, and a table that holds it along with
others must have come about by dotted keys too. -/
def addValue (path : List String) (key : String) (value : Toml) :
    TableKind → List (String × Toml) → Option (List (String × Toml)) :=
  update true (fun kind entries =>
    if (kind == .dotted) == path.isEmpty then none
    else if (entries.lookup key).isSome then none
    else some (entries ++ [(key, value)])) path

/-- Makes room for a table with a header. One that so far only stood on the way to others keeps
them. -/
def openTable (path : List String) (key : String) :
    TableKind → List (String × Toml) → Option (List (String × Toml)) :=
  update false (fun _ entries =>
    match entries.lookup key with
    | none => some (entries ++ [(key, table .headed [])])
    | some (.table .passed inner) => some (replace key (table .headed inner) entries)
    | some _ => none) path

/-- Makes room for one more table under a repeated header. -/
def openRow (path : List String) (key : String) :
    TableKind → List (String × Toml) → Option (List (String × Toml)) :=
  update false (fun _ entries =>
    match entries.lookup key with
    | none => some (entries ++ [(key, tables [[]])])
    | some (.tables rows) => some (replace key (tables (rows ++ [[]])) entries)
    | some _ => none) path

end Toml

end TraceJournal
