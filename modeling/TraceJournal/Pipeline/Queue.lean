import TraceJournal.Text.Digits

/-!
# Bounded queues

First in, first out, with room for a fixed number of items. An item for which there is no room is
handed back.

Library tracelog-pipeline, module `queue`; SPEC_FULL §4.2.
-/

namespace TraceJournal

/-- A queue with room for `capacity` items, the oldest one first. Source: tracelog-pipeline
`BoundedQueue`. -/
structure Queue (α : Type) where
  items : List α
  capacity : Nat
  capacity_pos : 1 ≤ capacity
  length_le : items.length ≤ capacity

namespace Queue

variable {α : Type}

/-- There is room for at least one item. -/
theorem one_le_room (capacity : Nat) : 1 ≤ max capacity 1 := Nat.le_max_right capacity 1

/-- An empty queue with room for `capacity` items, and for at least one. Source: tracelog-pipeline
`BoundedQueue.new`. -/
def create (capacity : Nat) : Queue α where
  items := []
  capacity := max capacity 1
  capacity_pos := one_le_room capacity
  length_le := Nat.zero_le (max capacity 1)

/-- There is room for one more item at the end of a list that is short enough. -/
theorem length_append_le {items : List α} {capacity : Nat} (h : items.length < capacity)
    (item : α) : (items ++ [item]).length ≤ capacity := by
  rw [List.length_append]
  exact h

/-- The queue with one more item at its end, if there is room. Source: tracelog-pipeline
`BoundedQueue.offer`. -/
def offer? (item : α) (q : Queue α) : Option (Queue α) :=
  if h : q.items.length < q.capacity then
    some { q with items := q.items ++ [item], length_le := length_append_le h item }
  else none

/-- The oldest item and the queue without it. Source: tracelog-pipeline `BoundedQueue.try_take`. -/
def take? (q : Queue α) : Option (α × Queue α) :=
  match h : q.items with
  | [] => none
  | item :: rest =>
    some (item, { q with
      items := rest
      length_le := by have := q.length_le; simp only [h, List.length_cons] at this; omega })

/-- The form for diagnostics. Source: tracelog-pipeline, the diagnostics of `BoundedQueue`. -/
def debug (q : Queue α) : String :=
  "BoundedQueue \x7b len: " ++ String.ofList (Text.decimal q.items.length) ++ ", capacity: " ++
    String.ofList (Text.decimal q.capacity) ++ " \x7d"

/-- An item is refused exactly when the queue is full. -/
theorem offer?_eq_none_iff {item : α} {q : Queue α} :
    q.offer? item = none ↔ q.items.length = q.capacity := by
  have := q.length_le
  unfold offer?
  split <;> simp <;> omega

/-- An accepted item stands at the end. -/
theorem items_of_offer? {item : α} {q r : Queue α} (h : q.offer? item = some r) :
    r.items = q.items ++ [item] := by
  unfold offer? at h
  split at h
  · rw [← Option.some.inj h]
  · contradiction

/-- The room stays the same. -/
theorem capacity_of_offer? {item : α} {q r : Queue α} (h : q.offer? item = some r) :
    r.capacity = q.capacity := by
  unfold offer? at h
  split at h
  · rw [← Option.some.inj h]
  · contradiction

/-- Nothing is taken exactly when the queue is empty. -/
theorem take?_eq_none_iff {q : Queue α} : q.take? = none ↔ q.items = [] := by
  unfold take?
  split <;> simp [*]

/-- The oldest item is taken, and the others stay as they are. -/
theorem items_of_take? {item : α} {q r : Queue α} (h : q.take? = some (item, r)) :
    q.items = item :: r.items ∧ r.capacity = q.capacity := by
  unfold take? at h
  split at h
  · contradiction
  · next items =>
    cases h
    exact ⟨items, rfl⟩

end Queue

end TraceJournal
