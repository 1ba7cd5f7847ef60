import TraceJournal.Number.Binary64

/-!
# JSON values

Values as traces carry them. A number is an integer that fits into 64 bits, signed or unsigned,
or a binary64 number. An object is a list of fields; `Json.ofFields` is the way to make one: it
sorts the fields by name and keeps the last of several with the same name.

Library serde_json, `Value`.
-/

namespace TraceJournal

/-- A JSON number. Source: serde_json `Number`. -/
inductive Json.Number where
  /-- An integer from the smallest signed to the largest unsigned one of 64 bits. -/
  | integer (value : Int) (least_le : -0x8000000000000000 ≤ value)
    (lt_bound : value < 0x10000000000000000)
  /-- Any other number. -/
  | decimal (value : Binary64)
  deriving DecidableEq

/-- A JSON value. Source: serde_json `Value`. -/
inductive Json where
  | null
  | boolean (value : Bool)
  | number (value : Json.Number)
  | text (value : String)
  | array (items : List Json)
  | object (fields : List (String × Json))

namespace Json

instance : Inhabited Json := ⟨null⟩

mutual
/-- Equality of values can be decided. -/
def decideEq : (a b : Json) → Decidable (a = b)
  | null, b => match b with
    | null => isTrue rfl
    | boolean _ | number _ | text _ | array _ | object _ => isFalse nofun
  | boolean x, b => match b with
    | boolean y => if h : x = y then isTrue (h ▸ rfl) else isFalse fun e => h (boolean.inj e)
    | null | number _ | text _ | array _ | object _ => isFalse nofun
  | number x, b => match b with
    | number y => if h : x = y then isTrue (h ▸ rfl) else isFalse fun e => h (number.inj e)
    | null | boolean _ | text _ | array _ | object _ => isFalse nofun
  | text x, b => match b with
    | text y => if h : x = y then isTrue (h ▸ rfl) else isFalse fun e => h (text.inj e)
    | null | boolean _ | number _ | array _ | object _ => isFalse nofun
  | array xs, b => match b with
    | array ys => match decideItemsEq xs ys with
      | isTrue h => isTrue (h ▸ rfl)
      | isFalse h => isFalse fun e => h (array.inj e)
    | null | boolean _ | number _ | text _ | object _ => isFalse nofun
  | object xs, b => match b with
    | object ys => match decideFieldsEq xs ys with
      | isTrue h => isTrue (h ▸ rfl)
      | isFalse h => isFalse fun e => h (object.inj e)
    | null | boolean _ | number _ | text _ | array _ => isFalse nofun

/-- Equality of lists of values can be decided. -/
def decideItemsEq : (xs ys : List Json) → Decidable (xs = ys)
  | [], [] => isTrue rfl
  | [], _ :: _ => isFalse nofun
  | _ :: _, [] => isFalse nofun
  | x :: xs, y :: ys => match decideEq x y, decideItemsEq xs ys with
    | isTrue h, isTrue t => isTrue (h ▸ t ▸ rfl)
    | isFalse h, _ => isFalse fun e => h (List.cons.inj e).1
    | _, isFalse t => isFalse fun e => t (List.cons.inj e).2

/-- Equality of lists of fields can be decided. -/
def decideFieldsEq : (xs ys : List (String × Json)) → Decidable (xs = ys)
  | [], [] => isTrue rfl
  | [], _ :: _ => isFalse nofun
  | _ :: _, [] => isFalse nofun
  | (k, x) :: xs, (l, y) :: ys =>
    if n : k = l then
      match decideEq x y, decideFieldsEq xs ys with
      | isTrue h, isTrue t => isTrue (n ▸ h ▸ t ▸ rfl)
      | isFalse h, _ => isFalse fun e => h (Prod.mk.inj (List.cons.inj e).1).2
      | _, isFalse t => isFalse fun e => t (List.cons.inj e).2
    else isFalse fun e => n (Prod.mk.inj (List.cons.inj e).1).1
end

instance : DecidableEq Json := decideEq

/-- The integer as a number, if it fits into 64 bits. -/
def Number.ofInt? (n : Int) : Option Number :=
  if h : -0x8000000000000000 ≤ n ∧ n < 0x10000000000000000 then some (.integer n h.1 h.2) else none

/-- An unsigned word as a number. -/
def Number.ofWord (n : UInt64) : Number :=
  .integer n.toNat (by omega) (by have := n.toNat_lt; omega)

/-- An unsigned word as a value. -/
def ofWord (n : UInt64) : Json := number (.ofWord n)

/-- A natural number as a value; one that does not fit into 64 bits is cut to them. -/
def ofNat (n : Nat) : Json := ofWord (UInt64.ofNat n)

/-- A field put in its place among fields sorted by name; it replaces a field with its name. Source:
serde_json `Map.insert`. -/
def insertField (name : String) (value : Json) :
    List (String × Json) → List (String × Json)
  | [] => [(name, value)]
  | (other, old) :: rest =>
    if name < other then (name, value) :: (other, old) :: rest
    else if name = other then (name, value) :: rest
    else (other, old) :: insertField name value rest

/-- The fields sorted by name, the last one of each name. -/
def sortFields (fields : List (String × Json)) : List (String × Json) :=
  fields.foldl (fun sorted (name, value) => insertField name value sorted) []

/-- The object with the given fields, of which a later one replaces an earlier one of its name. -/
def ofFields (fields : List (String × Json)) : Json := object (sortFields fields)

/-- The value of a field of an object. -/
def field? (name : String) : Json → Option Json
  | object fields => fields.lookup name
  | _ => none

/-- The truth value that a value is. -/
def boolean? : Json → Option Bool
  | boolean b => some b
  | _ => none

/-- The text that a value is. -/
def text? : Json → Option String
  | text s => some s
  | _ => none

/-- The items of an array. -/
def items? : Json → Option (List Json)
  | array items => some items
  | _ => none

/-- The integer of 64 bits with a sign that a value is. -/
def signed? : Json → Option Int
  | number (.integer n _ _) => if n < 0x8000000000000000 then some n else none
  | _ => none

/-- The integer of 64 bits without a sign that a value is. -/
def unsigned? : Json → Option Nat
  | number (.integer n _ _) => if 0 ≤ n then some n.toNat else none
  | _ => none

end Json

end TraceJournal
