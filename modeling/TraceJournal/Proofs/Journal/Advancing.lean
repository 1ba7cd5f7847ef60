import TraceJournal.Journal.Checkpoint
import TraceJournal.Proofs.Time.Truncation

/-!
# Waiting for the next millisecond

A checkpoint taken from the present is the first millisecond after it, whatever the clock says while
it is waited for. The clock is read until it has reached the checkpoint, and only so often; if it
has, and does not go back, nothing is stamped any more that the checkpoint does not admit.
-/

namespace TraceJournal.Checkpoint

/-- A clock is read until it has reached a target, at least once and at most so many times. -/
structure ReadsUntil (clock : Nat → Instant) (target : Instant) (rounds reads : Nat) : Prop where
  pos : 1 ≤ reads
  le : reads ≤ rounds
  early : ∀ i, i + 1 < reads → clock i < target
  reached : reads < rounds → target ≤ clock (reads - 1)

theorem readsUntil_clockReads (clock : Nat → Instant) (target : Instant) (rounds next : Nat) :
    ReadsUntil (fun i => clock (next + i)) target (rounds + 1)
      (clockReads clock target (rounds + 1) next) := by
  induction rounds generalizing next with
  | zero =>
    have one : clockReads clock target 1 next = 1 := by
      rw [clockReads, clockReads]
      split <;> rfl
    rw [one]
    exact ⟨Nat.le_refl 1, Nat.le_refl 1, fun i few => by omega, fun few => by omega⟩
  | succ rounds ih =>
    rw [clockReads]
    split
    · next reached =>
      refine ⟨Nat.le_refl 1, by omega, ?_, fun _ => reached⟩
      intro i few
      omega
    · next missed =>
      have later := ih (next + 1)
      have shifted (i : Nat) : next + 1 + i = next + (i + 1) := by omega
      simp only [shifted] at later
      generalize clockReads clock target (rounds + 1) (next + 1) = reads at later ⊢
      have pos := later.pos
      refine ⟨by omega, Nat.add_le_add_right later.le 1, ?_, ?_⟩
      · intro i few
        cases i with
        | zero => exact Int.not_le.mp missed
        | succ i => exact later.early i (by omega)
      · intro few
        have there := later.reached (by omega)
        have last : reads - 1 + 1 = reads + 1 - 1 := by omega
        rw [last] at there
        exact there

/-- Readings from one on that never go back are not before that one. -/
theorem le_of_forward {clock : Nat → Instant} {first : Nat}
    (forward : ∀ i, first ≤ i → clock i ≤ clock (i + 1)) {i : Nat} (later : first ≤ i) :
    clock first ≤ clock i := by
  induction later with
  | refl => exact Int.le_refl _
  | step later ih => exact Int.le_trans ih (forward _ later)

/-- A checkpoint of whole milliseconds admits what is stamped when the clock has reached it: the
stamp is cut to whole milliseconds, but not to before the checkpoint. -/
theorem admits_of_reached {c : Checkpoint} (whole : c.time.IsWhole) {t : Instant}
    (reached : c.time ≤ t) (owner interface method : String) (args : List Json) :
    c.admits (.atTime t owner interface method args) = true := by
  have cut := Instant.truncate_mono reached
  rw [Instant.truncate_of_isWhole whole] at cut
  exact decide_eq_true cut

/-- For every observed time that is not in a leap second and after which there is a whole
millisecond, the checkpoint is the first one, whatever the clock says. The clock is read once at
least and five times at most, up to the first reading that is not before the checkpoint. If one is
not, and the clock does not go back from then on, the checkpoint admits every record that is stamped
with a later reading. -/
theorem advances_to_next_millisecond {observed : Instant} (ordinary : observed.IsOrdinary)
    (follows : ∃ u : Instant, u.IsWhole ∧ u.IsOrdinary ∧ observed < u) :
    ∃ c : Checkpoint, observed.FirstWholeAfter c.time ∧ ∀ clock : Nat → Instant,
      ∃ reads, advancePast? observed clock = some (c, reads) ∧
        ReadsUntil clock c.time maxClockReads reads ∧
        ((∃ i < reads, c.time ≤ clock i) → (∀ i, reads ≤ i + 1 → clock i ≤ clock (i + 1)) →
          ∀ i, reads ≤ i → ∀ owner interface method args,
            c.admits (.atTime (clock i) owner interface method args) = true) := by
  obtain ⟨u, next, first⟩ := Instant.exists_nextMillisecond? ordinary follows
  refine ⟨.atTime u, first, ?_⟩
  intro clock
  have reads := readsUntil_clockReads clock u.truncate 4 0
  simp only [Nat.zero_add] at reads
  refine ⟨clockReads clock u.truncate maxClockReads 0, ?_, reads, ?_⟩
  · rw [advancePast?, after?, next]
    rfl
  · rintro ⟨j, made, there⟩ forward i later owner interface method args
    -- It is the last reading that has reached the checkpoint, as those before it have not.
    have last : j + 1 = clockReads clock u.truncate maxClockReads 0 := by
      rcases Nat.lt_or_eq_of_le (Nat.succ_le_of_lt made) with before | last
      · exact absurd there (Int.not_le.mpr (reads.early j before))
      · exact last
    have kept := @le_of_forward clock j (fun k after => forward k (by omega)) i (by omega)
    exact admits_of_reached first.whole (Int.le_trans there kept) owner interface method args

/-- The observed time is the last nanosecond of 1969, and the clock stands still for two readings.
It has reached the checkpoint, the start of 1970, with the third one. -/
theorem advances_to_next_millisecond_over_year :
    let observed : Instant := ⟨-1, 999999999, by decide, by decide, by decide, by decide⟩
    let start : Instant := ⟨0, 0, by decide, by decide, by decide, by decide⟩
    let late : Instant := ⟨59, 1500000000, by decide, by decide, by decide, by decide⟩
    let clock (i : Nat) : Instant := if i < 2 then observed else late
    observed.IsOrdinary ∧ (∃ u : Instant, u.IsWhole ∧ u.IsOrdinary ∧ observed < u) ∧
      advancePast? observed clock = some (⟨start⟩, 3) ∧ observed.FirstWholeAfter start ∧
      (⟨start⟩ : Checkpoint).admits (.atTime (clock 7) "shop" "Orders" "placed" []) = true := by
  intro observed start late clock
  have ordinary : observed.IsOrdinary := by decide
  have follows : ∃ u : Instant, u.IsWhole ∧ u.IsOrdinary ∧ observed < u :=
    ⟨start, by decide, by decide, by decide⟩
  obtain ⟨c, first, all⟩ := advances_to_next_millisecond ordinary follows
  obtain ⟨reads, advanced, -, admits⟩ := all clock
  have known : advancePast? observed clock = some (⟨start⟩, 3) := by decide
  rw [known] at advanced
  cases advanced
  have forward (i : Nat) (later : 3 ≤ i + 1) : clock i ≤ clock (i + 1) := by
    have here : clock i = late := if_neg (by omega)
    have next : clock (i + 1) = late := if_neg (by omega)
    rw [here, next]
    exact Int.le_refl _
  exact ⟨ordinary, follows, known, first,
    admits ⟨2, by decide, by decide⟩ forward 7 (by decide) "shop" "Orders" "placed" []⟩

end TraceJournal.Checkpoint
