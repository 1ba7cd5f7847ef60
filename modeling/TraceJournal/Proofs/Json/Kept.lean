import TraceJournal.Proofs.Json.Reread

/-!
# Values that are kept

A value stays what it is, when it is read from its own text, exactly if not too many containers stand
inside each other in it and if each number in it that is no integer stays what it is.
-/

namespace TraceJournal.Json

open TraceJournal.Text

mutual
/-- How many containers stand inside each other. -/
def depth : Json → Nat
  | array items => itemsDepth items + 1
  | object fields => fieldsDepth fields + 1
  | null | boolean _ | number _ | text _ => 0

/-- How many containers stand inside each other in some items. -/
def itemsDepth : List Json → Nat
  | [] => 0
  | item :: rest => max item.depth (itemsDepth rest)

/-- How many containers stand inside each other in some fields. -/
def fieldsDepth : List (String × Json) → Nat
  | [] => 0
  | (_, value) :: rest => max value.depth (fieldsDepth rest)
end

mutual
/-- The numbers in a value that are no integers. -/
def decimals : Json → List Binary64
  | number (.decimal x) => [x]
  | array items => itemsDecimals items
  | object fields => fieldsDecimals fields
  | null | boolean _ | number (.integer _ _ _) | text _ => []

/-- The numbers in some items that are no integers. -/
def itemsDecimals : List Json → List Binary64
  | [] => []
  | item :: rest => item.decimals ++ itemsDecimals rest

/-- The numbers in some fields that are no integers. -/
def fieldsDecimals : List (String × Json) → List Binary64
  | [] => []
  | (_, value) :: rest => value.decimals ++ fieldsDecimals rest
end

mutual
/-- The fields of every object are as `ofFields` makes them: sorted by name, and no two of the same
name. -/
def Sorted : Json → Prop
  | array items => ItemsSorted items
  | object fields => (fields.map (·.1)).Pairwise (· < ·) ∧ FieldsSorted fields
  | null | boolean _ | number _ | text _ => True

/-- The fields of every object in some items are sorted. -/
def ItemsSorted : List Json → Prop
  | [] => True
  | item :: rest => item.Sorted ∧ ItemsSorted rest

/-- The fields of every object in some fields are sorted. -/
def FieldsSorted : List (String × Json) → Prop
  | [] => True
  | (_, value) :: rest => value.Sorted ∧ FieldsSorted rest
end

/-- The number is what its own text is read as. -/
def KeepsDecimal (x : Binary64) : Prop :=
  read (bytesOf (Number.text x)) = .ok (number (.decimal x))

/-! ## Sorted fields -/

theorem insertField_last {name : String} {value : Json} {fields : List (String × Json)}
    (h : ∀ field ∈ fields, field.1 < name) :
    insertField name value fields = fields ++ [(name, value)] := by
  induction fields with
  | nil => rfl
  | cons field rest ih =>
    obtain ⟨other, old⟩ := field
    have before : other < name := h _ List.mem_cons_self
    have not_after : ¬name < other := String.lt_asymm before
    have different : name ≠ other := by
      rintro rfl
      exact String.lt_irrefl _ before
    rw [insertField, if_neg not_after, if_neg different,
      ih fun field hf => h field (List.mem_cons_of_mem _ hf), List.cons_append]

theorem foldl_insertField (front : List (String × Json)) {fields : List (String × Json)}
    (h : ((front ++ fields).map (·.1)).Pairwise (· < ·)) :
    fields.foldl (fun sorted (name, value) => insertField name value sorted) front =
      front ++ fields := by
  induction fields generalizing front with
  | nil => rw [List.foldl_nil, List.append_nil]
  | cons field rest ih =>
    obtain ⟨name, value⟩ := field
    have last : insertField name value front = front ++ [(name, value)] := by
      apply insertField_last
      intro other hother
      rw [List.map_append, List.pairwise_append] at h
      exact h.2.2 other.1 (List.mem_map_of_mem hother) name List.mem_cons_self
    simp only [List.foldl_cons, last]
    rw [ih]
    · rw [List.append_assoc, List.singleton_append]
    · rw [List.append_assoc, List.singleton_append]
      exact h

/-- Sorted fields are the fields of the object that is made of them. -/
theorem ofFields_of_sorted {fields : List (String × Json)}
    (h : (fields.map (·.1)).Pairwise (· < ·)) : ofFields fields = object fields := by
  rw [ofFields, sortFields, foldl_insertField [] h]
  rfl

theorem names_of_rereadFields {fields fields' : List (String × Json)} {depth : Nat}
    (h : rereadFields fields depth = some fields') : fields'.map (·.1) = fields.map (·.1) := by
  induction fields generalizing fields' with
  | nil =>
    cases h
    rfl
  | cons field rest ih =>
    obtain ⟨name, value⟩ := field
    rw [rereadFields] at h
    obtain ⟨value', -, h⟩ := Option.bind_eq_some_iff.mp h
    obtain ⟨rest', hr, rfl⟩ := Option.map_eq_some_iff.mp h
    rw [List.map_cons, List.map_cons, ih hr]

/-! ## What is kept -/

theorem toOption_eq_some_iff {α : Type} {x : Except Fault α} {a : α} :
    x.toOption = some a ↔ x = .ok a := by
  cases x with
  | error e => exact ⟨nofun, nofun⟩
  | ok b => exact ⟨fun h => congrArg Except.ok (Option.some.inj h), fun h => by cases h; rfl⟩

/-- A list becomes itself exactly if its first one and the others do. -/
theorem bind_map_cons_eq_some_iff {α β : Type} {a? : Option α} {as? : Option (List β)} {f : α → β}
    (inj : ∀ a b, f a = f b → a = b) {a : α} {as : List β} :
    (a?.bind fun a => as?.map (f a :: ·)) = some (f a :: as) ↔ a? = some a ∧ as? = some as := by
  constructor
  · intro h
    obtain ⟨b, first, h⟩ := Option.bind_eq_some_iff.mp h
    obtain ⟨bs, later, h⟩ := Option.map_eq_some_iff.mp h
    obtain ⟨same, rfl⟩ := List.cons.inj h
    rw [first, later, inj b a same]
    exact ⟨rfl, rfl⟩
  · rintro ⟨rfl, rfl⟩
    rfl

/-- An integer is kept in any text. -/
theorem read_integer {value : Int} (least : -0x8000000000000000 ≤ value)
    (most : value < 0x10000000000000000) :
    read (bytesOf (signedDecimal value)) = .ok (number (.integer value least most)) := by
  obtain ⟨container, alone⟩ := readValue_eq maxDepth
  have leaf : readLeafOr container (bytesOf (signedDecimal value) ++ []) = _ :=
    readLeafOr_integer least most endsNumber_nil
  rw [List.append_nil] at leaf
  rw [read, readWhole, alone, leaf]
  rfl

/-- Sorted fields are the fields of an object exactly if they are what its fields become. -/
theorem map_ofFields_eq_some_iff {fields : List (String × Json)} {depth : Nat}
    (sorted : (fields.map (·.1)).Pairwise (· < ·)) :
    (rereadFields fields depth).map ofFields = some (object fields) ↔
      rereadFields fields depth = some fields := by
  constructor
  · intro h
    obtain ⟨fields', becomes, same⟩ := Option.map_eq_some_iff.mp h
    rw [← names_of_rereadFields becomes] at sorted
    rw [ofFields_of_sorted sorted] at same
    rw [becomes, object.inj same]
  · intro h
    rw [h, Option.map_some, ofFields_of_sorted sorted]

mutual
/-- A value is kept exactly if it is not too deep and all its numbers are. -/
theorem reread_eq_some_iff : (j : Json) → (depth : Nat) → j.Sorted →
    (j.reread depth = some j ↔ j.depth ≤ depth ∧ ∀ x ∈ j.decimals, KeepsDecimal x)
  | null, depth, _ => by simp [reread, Json.depth, decimals]
  | boolean b, depth, _ => by simp [reread, Json.depth, decimals]
  | text s, depth, _ => by simp [reread, Json.depth, decimals]
  | number (.integer value least most), depth, _ => by
    have kept := read_integer least most
    simp [reread, Number.chars, kept, Json.depth, decimals, Except.toOption]
  | number (.decimal x), depth, _ => by
    simp [reread, Number.chars, toOption_eq_some_iff, Json.depth, decimals, KeepsDecimal]
  | array items, depth, sorted => by
    cases depth with
    | zero => simp [reread, Json.depth]
    | succ depth =>
      have kept := rereadItems_eq_some_iff items depth sorted
      rw [reread, Json.depth, decimals, Nat.add_le_add_iff_right, ← kept, Option.map_eq_some_iff]
      constructor
      · rintro ⟨items', becomes, same⟩
        rw [becomes, array.inj same]
      · intro h
        exact ⟨items, h, rfl⟩
  | object fields, depth, sorted => by
    obtain ⟨names, sorted⟩ := sorted
    cases depth with
    | zero => simp [reread, Json.depth]
    | succ depth =>
      have kept := rereadFields_eq_some_iff fields depth sorted
      rw [reread, Json.depth, decimals, Nat.add_le_add_iff_right, ← kept,
        map_ofFields_eq_some_iff names]

/-- Items are kept exactly if each of them is. -/
theorem rereadItems_eq_some_iff : (items : List Json) → (depth : Nat) → ItemsSorted items →
    (rereadItems items depth = some items ↔
      itemsDepth items ≤ depth ∧ ∀ x ∈ itemsDecimals items, KeepsDecimal x)
  | [], depth, _ => by simp [rereadItems, itemsDepth, itemsDecimals]
  | item :: rest, depth, ⟨first, later⟩ => by
    have head := reread_eq_some_iff item depth first
    have tail := rereadItems_eq_some_iff rest depth later
    have both : ((item.reread depth).bind fun item => (rereadItems rest depth).map (item :: ·)) =
        some (item :: rest) ↔ item.reread depth = some item ∧ rereadItems rest depth = some rest :=
      bind_map_cons_eq_some_iff fun _ _ same => same
    rw [rereadItems, both, head, tail, itemsDepth, itemsDecimals, Nat.max_le]
    simp only [List.mem_append, or_imp, forall_and]
    exact and_and_and_comm

/-- Fields are kept exactly if each of them is. -/
theorem rereadFields_eq_some_iff : (fields : List (String × Json)) → (depth : Nat) →
    FieldsSorted fields → (rereadFields fields depth = some fields ↔
      fieldsDepth fields ≤ depth ∧ ∀ x ∈ fieldsDecimals fields, KeepsDecimal x)
  | [], depth, _ => by simp [rereadFields, fieldsDepth, fieldsDecimals]
  | (name, value) :: rest, depth, ⟨first, later⟩ => by
    have head := reread_eq_some_iff value depth first
    have tail := rereadFields_eq_some_iff rest depth later
    have both : ((value.reread depth).bind fun value =>
        (rereadFields rest depth).map ((name, value) :: ·)) = some ((name, value) :: rest) ↔
        value.reread depth = some value ∧ rereadFields rest depth = some rest :=
      bind_map_cons_eq_some_iff fun _ _ same => (Prod.mk.inj same).2
    rw [rereadFields, both, head, tail, fieldsDepth, fieldsDecimals, Nat.max_le]
    simp only [List.mem_append, or_imp, forall_and]
    exact and_and_and_comm
end

/-! ## What is lost -/

mutual
/-- Nothing is made of a value that is too deep. -/
theorem reread_of_deep : (j : Json) → (depth : Nat) → depth < j.depth → j.reread depth = none
  | null, depth, deep => by cases deep
  | boolean b, depth, deep => by cases deep
  | number n, depth, deep => by cases deep
  | text s, depth, deep => by cases deep
  | array items, depth, deep => by
    cases depth with
    | zero => rfl
    | succ depth =>
      rw [Json.depth, Nat.add_lt_add_iff_right] at deep
      rw [reread, rereadItems_of_deep items depth deep]
      rfl
  | object fields, depth, deep => by
    cases depth with
    | zero => rfl
    | succ depth =>
      rw [Json.depth, Nat.add_lt_add_iff_right] at deep
      rw [reread, rereadFields_of_deep fields depth deep]
      rfl

/-- Nothing is made of items of which one is too deep. -/
theorem rereadItems_of_deep : (items : List Json) → (depth : Nat) → depth < itemsDepth items →
    rereadItems items depth = none
  | [], depth, deep => by cases deep
  | item :: rest, depth, deep => by
    rw [itemsDepth] at deep
    have one : depth < item.depth ∨ depth < itemsDepth rest := by omega
    rw [rereadItems]
    rcases one with first | later
    · rw [reread_of_deep item depth first]
      rfl
    · rw [rereadItems_of_deep rest depth later]
      cases item.reread depth <;> rfl

/-- Nothing is made of fields of which one is too deep. -/
theorem rereadFields_of_deep : (fields : List (String × Json)) → (depth : Nat) →
    depth < fieldsDepth fields → rereadFields fields depth = none
  | [], depth, deep => by cases deep
  | (name, value) :: rest, depth, deep => by
    rw [fieldsDepth] at deep
    have one : depth < value.depth ∨ depth < fieldsDepth rest := by omega
    rw [rereadFields]
    rcases one with first | later
    · rw [reread_of_deep value depth first]
      rfl
    · rw [rereadFields_of_deep rest depth later]
      cases value.reread depth <;> rfl
end

end TraceJournal.Json
