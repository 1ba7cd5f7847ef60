import TraceJournal.Time.Instant

/-!
# Whole milliseconds

Instants are cut to whole milliseconds within their own second, a leap second being one of its own:
their order is kept, and what is cut off is less than a millisecond. One millisecond after an
instant outside of leap seconds, the cut leaves the first whole millisecond that is later.
-/

namespace TraceJournal.Instant

/-- There is nothing finer than a millisecond. -/
def IsWhole (t : Instant) : Prop := t.nanos % 1000000 = 0

/-- The instant is not in a leap second. -/
def IsOrdinary (t : Instant) : Prop := t.nanos < 1000000000

instance (t : Instant) : Decidable t.IsWhole := inferInstanceAs (Decidable (_ = _))
instance (t : Instant) : Decidable t.IsOrdinary := inferInstanceAs (Decidable (_ < _))

/-! ## Cutting -/

/-- Instants are cut to whole milliseconds: in their order, once for all, and never to later than
they are nor by a millisecond or more. -/
structure CutsToMillis (cut : Instant → Instant) : Prop where
  whole : ∀ t, (cut t).IsWhole
  monotone : ∀ t u, t ≤ u → cut t ≤ cut u
  idempotent : ∀ t, cut (cut t) = cut t
  le : ∀ t, cut t ≤ t
  near : ∀ t, (cut t).seconds = t.seconds ∧ t.nanos < (cut t).nanos + 1000000

theorem truncate_truncate (t : Instant) : t.truncate.truncate = t.truncate := by
  refine ext rfl ?_
  simp only [truncate]
  omega

theorem truncate_of_isWhole {t : Instant} (whole : t.IsWhole) : t.truncate = t := by
  refine ext rfl ?_
  simp only [truncate, whole.symm ▸ Nat.sub_zero t.nanos]

theorem isWhole_truncate (t : Instant) : t.truncate.IsWhole := by
  simp only [IsWhole, truncate]
  omega

theorem truncate_mono {t u : Instant} (h : t ≤ u) : t.truncate ≤ u.truncate := by
  rw [le_iff] at h ⊢
  simp only [truncate]
  rcases h with earlier | ⟨same, within⟩
  · exact .inl earlier
  · refine .inr ⟨same, ?_⟩
    omega

theorem cutsToMillis_truncate : CutsToMillis truncate where
  whole := isWhole_truncate
  monotone _ _ := truncate_mono
  idempotent := truncate_truncate
  le t := le_iff.mpr (.inr ⟨rfl, Nat.sub_le _ _⟩)
  near t := by
    refine ⟨rfl, ?_⟩
    simp only [truncate]
    omega

/-! ## The next millisecond -/

/-- One instant is the first whole millisecond after another one that is not in a leap second. -/
structure FirstWholeAfter (t u : Instant) : Prop where
  whole : u.IsWhole
  ordinary : u.IsOrdinary
  later : t < u
  le_of_later : ∀ v : Instant, v.IsWhole → v.IsOrdinary → t < v → u ≤ v

theorem lt_iff {t u : Instant} :
    t < u ↔ t.seconds < u.seconds ∨ (t.seconds = u.seconds ∧ t.nanos < u.nanos) := by
  have ht := t.nanos_lt
  have hu := u.nanos_lt
  simp only [lt_iff_rank_lt, rank]
  omega

theorem ofParts?_eq_some {seconds : Int} {nanos : Nat} (ordinary : nanos < 1000000000)
    (earliest : -8334601228800 ≤ seconds) (latest : seconds ≤ 8210266876799) :
    ∃ t, ofParts? seconds nanos = some t ∧ t.seconds = seconds ∧ t.nanos = nanos := by
  have valid : nanos < 2000000000 ∧ (1000000000 ≤ nanos → seconds % 60 = 59) ∧
      -8334601228800 ≤ seconds ∧ seconds ≤ 8210266876799 := by
    refine ⟨by omega, ?_, earliest, latest⟩
    intro leap
    omega
  exact ⟨_, dif_pos valid, rfl, rfl⟩

/-- If there is a whole millisecond after an instant that is not in a leap second, one millisecond
later is an instant of which the cut leaves the first one. -/
theorem exists_nextMillisecond? {t : Instant} (ordinary : t.IsOrdinary)
    (follows : ∃ u : Instant, u.IsWhole ∧ u.IsOrdinary ∧ t < u) :
    ∃ u, t.nextMillisecond? = some u ∧ t.FirstWholeAfter u.truncate := by
  have short : t.secondEnd = 1000000000 := if_pos ordinary
  have earliest := t.earliest_le
  have latest := t.le_latest
  by_cases within : t.nanos + 1000000 < 1000000000
  · obtain ⟨u, made, seconds, nanos⟩ := ofParts?_eq_some within earliest latest
    refine ⟨u, ?_, u.isWhole_truncate, ?_, ?_, ?_⟩
    · rw [nextMillisecond?, short, if_pos within]
      exact made
    · simp only [IsOrdinary, truncate]
      omega
    · rw [lt_iff]
      simp only [truncate]
      omega
    · intro v whole _ after
      rw [lt_iff] at after
      rw [le_iff]
      simp only [IsWhole] at whole
      simp only [truncate]
      omega
  · -- The next millisecond is the first one of the next second, which is not the last one of all.
    obtain ⟨w, whole, usual, after⟩ := follows
    rw [lt_iff] at after
    have room := w.le_latest
    simp only [IsWhole] at whole
    simp only [IsOrdinary] at ordinary usual
    obtain ⟨u, made, seconds, nanos⟩ := @ofParts?_eq_some (t.seconds + 1)
      (t.nanos + 1000000 - 1000000000) (by omega) (by omega) (by omega)
    refine ⟨u, ?_, u.isWhole_truncate, ?_, ?_, ?_⟩
    · rw [nextMillisecond?, short, if_neg within]
      exact made
    · simp only [IsOrdinary, truncate]
      omega
    · rw [lt_iff]
      simp only [truncate]
      omega
    · intro v whole' usual' after'
      rw [lt_iff] at after'
      rw [le_iff]
      simp only [IsWhole] at whole'
      simp only [IsOrdinary] at usual'
      simp only [truncate]
      omega

end TraceJournal.Instant
