import TraceJournal.Proofs.Journal.Progress
import TraceJournal.Proofs.Journal.Upkeep

/-!
# A worker that waits for room

The worker does not ask its cursor while the buffer is full. Whoever lets it work until it rests,
fetches all that is buffered, and does both again and again, gets so many records each time as the
buffer holds, and so all of them after a while, if it holds any at all. A buffer with room for none
is full from the beginning: then the worker never asks, and nothing is ever fetched.
-/

namespace TraceJournal

namespace Session

/-- The worker has come to rest: its cursor found nothing when it was last asked, or there is no
room in the buffer. -/
def Resting (s : Session) : Prop := s.idle = true ∨ s.reader.isFull = true

/-- The session after some phases of the worker, with the present at each of them. -/
def work (s : Session) (times : List Instant) : Session := s.run (times.map .work)

/-- What a session can be after so many rounds: in each one the worker goes on until it rests, and
then all that is buffered is fetched. -/
inductive Rounds (s : Session) : Nat → Session → Prop where
  | none : Rounds s 0 s
  | more {k : Nat} {s' : Session} (times : List Instant) :
    Rounds s k s' → (s'.work times).Resting → Rounds s (k + 1) ((s'.work times).next .fetch)

/-- A worker rests after enough phases, if each one that finds room in the buffer leaves less owed
and keeps some property, which can depend on the phases to come; it still holds then. -/
theorem resting_of_nearer {P : Session → List Instant → Prop}
    (idle : ∀ s times, P s times → s.owed = 0 → s.idle = true)
    (nearer : ∀ s now rest, P s (now :: rest) → s.reader.isFull = false →
      P (s.next (.work now)) rest ∧ (s.next (.work now)).owed ≤ s.owed - 1)
    {s : Session} {times : List Instant} (holds : P s times) (enough : s.owed ≤ times.length) :
    ∃ n ≤ times.length, P (s.work (times.take n)) (times.drop n) ∧
      (s.work (times.take n)).Resting := by
  induction times generalizing s with
  | nil => exact ⟨0, Nat.le_refl 0, holds, .inl (idle s [] holds (Nat.le_zero.mp enough))⟩
  | cons now rest ih =>
    cases room : s.reader.isFull with
    | true => exact ⟨0, Nat.zero_le _, holds, .inr room⟩
    | false =>
      obtain ⟨holds', less⟩ := nearer s now rest holds room
      rw [List.length_cons] at enough
      obtain ⟨n, le, resting⟩ := ih holds' (by omega)
      exact ⟨n + 1, Nat.succ_le_succ le, resting⟩

/-! ## Over a store that no longer changes -/

/-- The worker of a sound session runs, over a link as it was once. -/
structure Steady (c : Checkpoint) (capacity : Nat) (link : Link) (s : Session) : Prop where
  sound : s.Sound c
  link_eq : s.link = link
  reached : s.reader.Reached
  enabled : s.reader.enabled = true
  opened : s.reader.closed = false
  capacity_eq : s.reader.capacity = capacity

namespace Steady

variable {c : Checkpoint} {capacity : Nat} {link : Link} {s : Session}

/-- The worker changes neither the store nor what was fetched. -/
theorem work (h : s.Steady c capacity link) (times : List Instant) :
    (s.work times).Steady c capacity link ∧ (s.work times).fetched = s.fetched := by
  induction times generalizing s with
  | nil => exact ⟨h, rfl⟩
  | cons now rest ih =>
    obtain ⟨slot, seen, carried, inv⟩ := h.sound
    obtain ⟨enabled, closed, bound⟩ := s.reader.fixed_step now s.link
    have stepped : (s.next (.work now)).Steady c capacity link :=
      ⟨inv.work now, (inv.holds.link_work now).trans h.link_eq, h.reached.step now s.link,
        enabled.trans h.enabled, closed.trans h.opened, bound.trans h.capacity_eq⟩
    exact ih stepped

theorem fetch (h : s.Steady c capacity link) :
    (s.next .fetch).Steady c capacity link ∧ (s.next .fetch).fetched = s.delivered := by
  obtain ⟨slot, seen, carried, inv⟩ := h.sound
  have sound := inv.fetch
  have reached := h.reached.fetch none
  simp only [next, Reader.fetch, if_pos h.enabled] at sound reached ⊢
  exact ⟨⟨sound, h.link_eq, reached, h.enabled, h.opened, h.capacity_eq⟩, rfl⟩

/-- More phases than the worker ever has to go through until it rests. -/
theorem owed_le (h : s.Steady c capacity link) {docs : List Document}
    (documents : link.store.documents = .ok docs) : s.owed ≤ 8 * docs.length + 7 := by
  obtain ⟨slot, seen, carried, inv⟩ := h.sound
  have all := inv.follows.documents_eq
  rw [h.link_eq, documents] at all
  have lengths := congrArg List.length (Except.ok.inj all)
  have rank := s.reader.phase.rank_le slot.generation
  rw [inv.holds.owed_eq, h.link_eq]
  rw [List.length_append] at lengths
  split <;> omega

/-- A worker that goes on for long enough comes to rest. -/
theorem rests (h : s.Steady c capacity link) {times : List Instant}
    (enough : s.owed ≤ times.length) : ∃ n ≤ times.length, (s.work (times.take n)).Resting := by
  have rests := @resting_of_nearer (fun s _ => s.Steady c capacity link) ?_ ?_ s times h enough
  · obtain ⟨n, le, -, resting⟩ := rests
    exact ⟨n, le, resting⟩
  · intro s _ steady none_owed
    exact steady.sound.idle_of_owed none_owed
  · intro s now _ steady room
    obtain ⟨slot, seen, carried, inv⟩ := steady.sound
    have running := Reader.Running.of_room steady.enabled steady.opened room
    exact ⟨(steady.work [now]).1, inv.tracks.owed_work running room now⟩

/-- While the store does not change, what is delivered are the first of the records that it holds
from the checkpoint on; all of them, if the worker rests although there is room. -/
theorem delivered (h : s.Steady c capacity link) {docs : List Document}
    (documents : link.store.documents = .ok docs) :
    s.delivered <+: c.records docs ∧ s.reader.buffer.length ≤ capacity ∧
      (s.Resting → s.reader.buffer.length = capacity ∨ s.delivered = c.records docs) := by
  obtain ⟨docs', documents', first, all⟩ := h.sound.delivered
  rw [h.link_eq, documents] at documents'
  cases documents'
  have bound := h.capacity_eq ▸ h.reached.roomy.buffer_le
  refine ⟨first, bound, ?_⟩
  rintro (idle | full)
  · exact .inr (all idle)
  · rw [Reader.isFull, decide_eq_true_eq, h.capacity_eq] at full
    exact .inl (le_antisymm bound full)

end Steady

/-! ## Round after round -/

/-- If the first `n` of some records are there, and then `m` more of them or all that are left, then
those are the first `n + m`. -/
private theorem eq_take_add {all first more : List Record} {n m : Nat} (start : first = all.take n)
    (prefix_all : first ++ more <+: all) (few : more.length ≤ m)
    (enough : more.length = m ∨ first ++ more = all) : first ++ more = all.take (n + m) := by
  have taken := List.prefix_iff_eq_take.mp prefix_all
  have lengths := congrArg List.length start
  rw [List.length_take] at lengths
  rw [List.length_append] at taken
  rcases enough with full | done
  · by_cases short : n ≤ all.length
    · rw [taken]
      congr 1
      omega
    · -- All of them were there already.
      have le := prefix_all.length_le
      rw [List.length_append] at le
      rw [taken, List.take_of_length_le (by omega), List.take_of_length_le (by omega)]
  · have le := congrArg List.length done
    rw [List.length_append] at le
    rw [List.take_of_length_le (by omega), done]

namespace Rounds

variable {c : Checkpoint} {capacity k : Nat} {link : Link} {s s' : Session} {docs : List Document}

/-- So many rounds return so many records, up to all of them. -/
theorem fetched (h : s.Rounds k s') (steady : s.Steady c capacity link)
    (documents : link.store.documents = .ok docs) (fresh : s.fetched = [] ∧ s.reader.buffer = []) :
    s'.Steady c capacity link ∧ s'.fetched = (c.records docs).take (k * capacity) := by
  induction h with
  | none =>
    refine ⟨steady, ?_⟩
    rw [Nat.zero_mul, List.take_zero]
    exact fresh.1
  | @more k s' times _ resting ih =>
    obtain ⟨before, so_far⟩ := ih
    obtain ⟨worked, same⟩ := before.work times
    obtain ⟨after, taken⟩ := worked.fetch
    obtain ⟨first, bound, rest⟩ := worked.delivered documents
    refine ⟨after, ?_⟩
    rw [Nat.succ_mul, taken]
    exact eq_take_add (same.trans so_far) first bound (rest resting)

/-- There is always a next round. -/
theorem exists_of_steady (steady : s.Steady c capacity link) (now : Instant) (k : Nat) :
    ∃ s', s.Rounds k s' ∧ s'.Steady c capacity link := by
  induction k with
  | zero => exact ⟨s, .none, steady⟩
  | succ k ih =>
    obtain ⟨s', rounds, steady'⟩ := ih
    have enough : s'.owed ≤ (List.replicate s'.owed now).length := List.length_replicate.ge
    obtain ⟨n, -, resting⟩ := steady'.rests enough
    exact ⟨_, .more _ rounds resting, (steady'.work _).1.fetch.1⟩

end Rounds

/-- A session starts steady after a move, with nothing fetched or buffered. -/
theorem steady_start {r r' : Reader} {link link' : Link} {time : Option Instant} {now : Instant}
    {c : Checkpoint} (reached : r.Reached) (on : r.enabled = true) (opened : r.closed = false)
    (reliable : link.Reliable) (moved : r.moveTo time now link = (.ok c, r', link')) :
    (start r' link').Steady c r.capacity link' ∧ (start r' link').reader.buffer = [] := by
  have sound := sound_start reached on reliable moved
  have reached' := reached.moveTo time now link
  rw [moved] at reached'
  obtain ⟨cursor, -, rfl⟩ := Reader.exists_openCursor on moved
  exact ⟨⟨sound, rfl, reached', on, opened, rfl⟩, rfl⟩

end Session

/-- After a move to a checkpoint, when the store no longer changes and no call fails, there is a
round after every round, and each one returns so many of the records from the checkpoint on as the
buffer holds, in the order of the store and none twice, until all of them have been returned. The
worker rests after a number of phases that only depends on the store. So all records are returned
after finitely many rounds if and only if the buffer has room for any, or there are none. -/
theorem Reader.rounds_return {r r' : Reader} {link link' : Link} {time : Option Instant}
    {now : Instant} {c : Checkpoint} (reached : r.Reached) (on : r.enabled = true)
    (opened : r.closed = false) (reliable : link.Reliable)
    (moved : r.moveTo time now link = (.ok c, r', link')) :
    ∃ docs, link'.store.documents = .ok docs ∧
      (∀ k, ∃ s, (Session.start r' link').Rounds k s) ∧
      (∀ k s, (Session.start r' link').Rounds k s →
        s.link = link' ∧ s.fetched = (c.records docs).take (k * r.capacity) ∧
          ∀ times : List Instant, 8 * docs.length + 7 ≤ times.length →
            ∃ n ≤ times.length, (s.work (times.take n)).Resting) ∧
      ((∃ k, ∀ s, (Session.start r' link').Rounds k s → s.fetched = c.records docs) ↔
        1 ≤ r.capacity ∨ c.records docs = []) := by
  obtain ⟨steady, empty⟩ := Session.steady_start reached on opened reliable moved
  obtain ⟨docs, documents, -⟩ := steady.sound.delivered
  have there (k : Nat) := Session.Rounds.exists_of_steady steady now k
  have returned {k : Nat} {s : Session} (h : (Session.start r' link').Rounds k s) :=
    h.fetched steady documents ⟨rfl, empty⟩
  refine ⟨docs, documents, fun k => (there k).imp fun _ => And.left, ?_, ?_, ?_⟩
  · intro k s rounds
    obtain ⟨after, fetched⟩ := returned rounds
    refine ⟨after.link_eq, fetched, ?_⟩
    intro times enough
    exact after.rests ((after.owed_le documents).trans enough)
  · rintro ⟨k, all⟩
    obtain ⟨s, rounds, -⟩ := there k
    have taken := (returned rounds).2
    rw [all s rounds] at taken
    by_cases room : 1 ≤ r.capacity
    · exact .inl room
    · rw [Nat.lt_one_iff.mp (Nat.lt_of_not_le room), Nat.mul_zero, List.take_zero] at taken
      exact .inr taken
  · intro room
    refine ⟨(c.records docs).length, ?_⟩
    intro s rounds
    rw [(returned rounds).2]
    rcases room with room | nothing
    · exact List.take_of_length_le (Nat.le_mul_of_pos_right _ room)
    · rw [nothing, List.take_nil]

/-- There is one record in the store. A buffer with room for one returns it in one round, a buffer
with room for none never does. -/
theorem Reader.rounds_return_unless_no_room :
    let t : Instant := ⟨0, 0, by decide, by decide, by decide, by decide⟩
    let e : Record := .atTime t "shop" "Orders" "placed" []
    let link := ((Link.reliable (.memory .unbounded)).insert (.ofRecord e)).2
    let moved (capacity : Nat) := (Reader.create capacity true).moveTo (some t) t link
    (∀ s, (Session.start (moved 1).2.1 (moved 1).2.2).Rounds 1 s → s.fetched = [e]) ∧
      ∀ k s, (Session.start (moved 0).2.1 (moved 0).2.2).Rounds k s → s.fetched = [] := by
  intro t e link moved
  have split (capacity : Nat) (answer : (moved capacity).1 = .ok (.atTime t)) :
      (Reader.create capacity true).moveTo (some t) t link =
        (.ok (.atTime t), (moved capacity).2.1, (moved capacity).2.2) := by
    rw [← answer]
  have reliable : link.Reliable := Link.reliable_reliable _
  constructor
  · obtain ⟨docs, documents, -, rounds, -⟩ := Reader.rounds_return (.create 1 true) rfl rfl reliable
      (split 1 (by decide +kernel))
    have all : (moved 1).2.2.store.documents = .ok [.ofRecord e] := by decide +kernel
    rw [documents] at all
    cases all
    intro s one
    have records : Checkpoint.records (.atTime t) [.ofRecord e] = [e] := by decide +kernel
    have fetched := (rounds 1 s one).2.1
    rwa [records] at fetched
  · obtain ⟨docs, documents, -, rounds, -⟩ := Reader.rounds_return (.create 0 true) rfl rfl reliable
      (split 0 (by decide +kernel))
    intro k s many
    exact (rounds k s many).2.1

end TraceJournal
