import TraceJournal.Proofs.Journal.Course

/-!
# Draining a buffer

Records come into the buffer of a reader at its end, in any order of their times. They are taken
out by fetches with any bounds, so that they leave from the middle, too. Whatever the bounds are,
nothing is lost or taken out twice, and what stays keeps its order; and a fetch that is followed by
one with a later bound makes no difference but for who gets what.
-/

namespace TraceJournal

open scoped List

/-! ## Bounds -/

/-- The record is before a bound; where there is no bound, every record is. -/
def Record.isBefore (bound : Option Instant) (r : Record) : Bool := bound.all (r.time < ·)

/-- One bound is not after another one; none at all is after all others. -/
def Instant.AtMost : Option Instant → Option Instant → Prop
  | _, none => True
  | some t, some u => t ≤ u
  | none, some _ => False

theorem Record.isBefore_of_atMost {earlier later : Option Instant} {r : Record}
    (order : Instant.AtMost earlier later) (before : r.isBefore earlier = true) :
    r.isBefore later = true := by
  cases later with
  | none => rfl
  | some u =>
    cases earlier with
    | none => exact order.elim
    | some t => exact decide_eq_true (Int.lt_of_lt_of_le (of_decide_eq_true before) order)

/-- What is before the earlier bound is before both, and what is not before the later one is before
neither. -/
theorem Record.isBefore_absorb {earlier later : Option Instant}
    (order : Instant.AtMost earlier later) (r : Record) :
    (r.isBefore earlier && r.isBefore later) = r.isBefore earlier ∧
      (!r.isBefore later && !r.isBefore earlier) = !r.isBefore later := by
  cases before : r.isBefore earlier with
  | false => simp
  | true => simp [isBefore_of_atMost order before]

namespace Reader

variable {r r' : Reader} {arrived fetched : List Record}

/-- A fetch takes exactly the records before its bound and leaves exactly the others, both in the
order in which they arrived. -/
theorem fetch_eq (on : r.enabled = true) (bound : Option Instant) :
    r.fetch bound =
      (r.buffer.filter (·.isBefore bound),
        { r with buffer := r.buffer.filter fun record => !record.isBefore bound }) := by
  unfold fetch
  rw [if_pos on]
  cases bound with
  | none => simp [Record.isBefore]
  | some t =>
    simp only [List.partition_eq_filter_filter]
    rfl

/-- A fetch that is followed by one with a later bound leaves what that one alone would leave, and
both together take what that one alone would take. -/
theorem fetch_fetch (on : r.enabled = true) {earlier later : Option Instant}
    (order : Instant.AtMost earlier later) :
    ((r.fetch earlier).2.fetch later).2 = (r.fetch later).2 ∧
      ((r.fetch earlier).1 ++ ((r.fetch earlier).2.fetch later).1).Perm (r.fetch later).1 := by
  have still : (r.fetch earlier).2.enabled = true := by
    rw [fetch_eq on]
    exact on
  rw [fetch_eq still, fetch_eq on, fetch_eq on]
  simp only [List.filter_filter]
  constructor
  · congr 1
    exact List.filter_congr fun record _ => (record.isBefore_absorb order).2
  · -- Both fetches divide what the one with the later bound alone takes.
    have first : r.buffer.filter (·.isBefore earlier) =
        (r.buffer.filter (·.isBefore later)).filter (·.isBefore earlier) := by
      rw [List.filter_filter]
      exact List.filter_congr fun record _ => (record.isBefore_absorb order).1.symm
    have second :
        r.buffer.filter (fun record => record.isBefore later && !record.isBefore earlier) =
        (r.buffer.filter (·.isBefore later)).filter fun record => !record.isBefore earlier := by
      rw [List.filter_filter]
      exact List.filter_congr fun record _ => Bool.and_comm _ _
    rw [first, second]
    exact List.filter_append_perm _ _

/-! ## Use of a buffer -/

/-- A reader after its buffer was used for some time: these records have arrived for its generation,
and these were fetched. What does not concern the buffer may have happened in between. -/
inductive Used (r : Reader) : List Record → List Record → Reader → Prop where
  | start : Used r [] [] r
  | push {arrived fetched : List Record} {r' : Reader} (record : Record) :
    Used r arrived fetched r' →
      Used r (arrived ++ [record]) fetched (r'.push r'.generation record)
  | fetch {arrived fetched : List Record} {r' : Reader} (bound : Option Instant) :
    Used r arrived fetched r' →
      Used r arrived (fetched ++ (r'.fetch bound).1) (r'.fetch bound).2
  | other {arrived fetched : List Record} {r' r'' : Reader} :
    Used r arrived fetched r' → r''.enabled = r'.enabled → r''.buffer = r'.buffer →
      Used r arrived fetched r''

theorem buffer_push (r : Reader) (record : Record) :
    (r.push r.generation record).buffer = r.buffer ++ [record] := by
  rw [push, if_pos rfl]

namespace Used

theorem enabled_eq (h : r.Used arrived fetched r') : r'.enabled = r.enabled := by
  induction h with
  | start => rfl
  | @push _ _ r' record _ ih =>
    obtain ⟨buffer, pushed⟩ := r'.exists_push r'.generation record
    rw [pushed]
    exact ih
  | @fetch _ _ r' bound _ ih =>
    obtain ⟨buffer, taken⟩ := r'.exists_fetch bound
    rw [taken]
    exact ih
  | other _ same _ ih => exact same.trans ih

/-- What was fetched and what is in the buffer are together what was in the buffer and what has
arrived since. -/
theorem perm (h : r.Used arrived fetched r') :
    (fetched ++ r'.buffer).Perm (r.buffer ++ arrived) := by
  induction h with
  | start => rw [List.nil_append, List.append_nil]
  | @push _ _ r' record _ ih =>
    rw [buffer_push, ← List.append_assoc, ← List.append_assoc]
    exact ih.append_right [record]
  | @fetch _ fetched r' bound _ ih =>
    rw [List.append_assoc]
    exact ((r'.fetch_perm bound).append_left fetched).trans ih
  | other _ _ same ih => rwa [same]

/-- The buffer is in the order of arrival. -/
theorem sublist (on : r.enabled = true) (h : r.Used arrived fetched r') :
    r'.buffer <+ r.buffer ++ arrived := by
  induction h with
  | start => rw [List.append_nil]
  | @push _ _ r' record _ ih =>
    rw [buffer_push, ← List.append_assoc]
    exact ih.append_right [record]
  | @fetch _ _ r' bound used ih =>
    rw [fetch_eq (used.enabled_eq.trans on)]
    exact List.filter_sublist.trans ih
  | other _ _ same ih => rwa [same]

end Used

end Reader

/-! ## Between two moves -/

namespace Reader

/-- A phase of the worker that does not move the reader leaves the buffer alone, or puts a record at
its end. -/
theorem buffer_step_of_unmoved {now : Instant} {r : Reader} {link : Link}
    (unmoved : (r.step now link).1.generation = r.generation) :
    (r.step now link).1.buffer = r.buffer ∨
      ∃ slot d record, r.phase = .keeping slot d ∧
        (r.step now link).1.buffer = r.buffer ++ [record] := by
  have stepped := r.stepped now link
  generalize r.step now link = answer at stepped unmoved ⊢
  cases stepped with
  | @finds slot d cursor | @findsNothing slot cursor | @fails slot e cursor =>
    obtain ⟨slot', kept⟩ := r.exists_keepCursor { slot with cursor }
    rw [kept]
    exact .inl rfl
  | @notes slot | @rests slot =>
    obtain ⟨state, marked⟩ := r.exists_mark slot.generation .streaming
    rw [marked]
    exact .inl rfl
  | @gives slot =>
    obtain ⟨state, marked⟩ := r.exists_mark slot.generation .recovering
    rw [marked]
    exact .inl rfl
  | @keeps slot d record hp =>
    by_cases own : r.generation = slot.generation
    · rw [← own]
      exact .inr ⟨slot, d, record, hp, r.buffer_push record⟩
    · rw [push, if_neg own]
      exact .inl rfl
  | resyncs => exact absurd unmoved (Nat.succ_ne_self _)
  | _ => exact .inl rfl

end Reader

namespace Course

/-- A reader only ever moves on to later generations. -/
theorem generation_le_next (s : Course) (action : Action) :
    s.reader.generation ≤ (s.next action).reader.generation := by
  cases action with
  | insert d | disturb failures poison | close => exact Nat.le_refl _
  | fetch before =>
    obtain ⟨buffer, taken⟩ := s.reader.exists_fetch before
    simp only [next, taken]
    exact Nat.le_refl _
  | move time now =>
    simp only [next]
    rcases Reader.reader_moveTo time now s.reader s.link with same | ⟨cursor, moved⟩
    · exact Nat.le_of_eq (congrArg Reader.generation same).symm
    · rw [moved]
      exact Nat.le_succ _
  | work now =>
    simp only [next]
    rcases Reader.step_moves now s.reader s.link with same | ⟨cursor, link', -, moved⟩
    · exact Nat.le_of_eq same.symm
    · rw [moved]
      exact Nat.le_succ _

theorem generation_le_run (s : Course) (actions : List Action) :
    s.reader.generation ≤ (s.run actions).reader.generation := by
  induction actions generalizing s with
  | nil => exact Nat.le_refl _
  | cons action rest ih => exact Nat.le_trans (s.generation_le_next action) (ih _)

theorem pushedBy_eq_nil {s : Course} {now : Instant}
    (same : (s.reader.step now s.link).1.buffer = s.reader.buffer) :
    s.pushedBy (.work now) = [] := by
  simp only [pushedBy, same, List.drop_length, List.map_nil]
  split <;> rfl

/-- An action that does not move the reader uses its buffer. -/
theorem used_next {r : Reader} {arrived fetched : List Record} {s : Course} {action : Action}
    (h : r.Used arrived fetched s.reader)
    (unmoved : (s.next action).reader.generation = s.reader.generation) :
    r.Used (arrived ++ (s.pushedBy action).map (·.2)) (fetched ++ s.fetchedBy action)
      (s.next action).reader := by
  cases action with
  | insert d | disturb failures poison | close =>
    simp only [pushedBy, fetchedBy, List.map_nil, List.append_nil]
    exact h.other rfl rfl
  | fetch before =>
    simp only [pushedBy, fetchedBy, List.map_nil, List.append_nil]
    exact h.fetch before
  | move time now =>
    simp only [pushedBy, fetchedBy, List.map_nil, List.append_nil]
    simp only [next] at unmoved ⊢
    rcases Reader.reader_moveTo time now s.reader s.link with same | ⟨cursor, moved⟩
    · rwa [same]
    · rw [moved] at unmoved
      exact absurd unmoved (Nat.succ_ne_self _)
  | work now =>
    obtain ⟨enabled, -⟩ := s.reader.fixed_step now s.link
    rcases Reader.buffer_step_of_unmoved unmoved with same | ⟨slot, d, record, keeping, more⟩
    · rw [pushedBy_eq_nil same]
      simp only [fetchedBy, List.map_nil, List.append_nil]
      exact h.other enabled same
    · have pushed : s.pushedBy (.work now) = [(slot.generation, record)] := by
        simp only [pushedBy, keeping, Phase.slot?, more, List.drop_left, List.map_cons,
          List.map_nil]
      rw [pushed]
      simp only [fetchedBy, List.map_cons, List.map_nil, List.append_nil]
      refine (h.push record).other ?_ ?_
      · simp only [next, enabled, Reader.push, if_true]
      · simp only [next, more, Reader.buffer_push]

/-- Whatever happens while a reader is not moved uses its buffer. -/
theorem used_run {r : Reader} {arrived fetched : List Record} {s : Course}
    (h : r.Used arrived fetched s.reader) (actions : List Action)
    (unmoved : (s.run actions).reader.generation = s.reader.generation) :
    r.Used (arrived ++ (s.pushed actions).map (·.2)) (fetched ++ s.fetched actions)
      (s.run actions).reader := by
  induction actions generalizing s arrived fetched with
  | nil =>
    simp only [pushed, Course.fetched, collect, List.map_nil, List.append_nil]
    exact h
  | cons action rest ih =>
    have first := s.generation_le_next action
    have later := (s.next action).generation_le_run rest
    rw [run_cons] at unmoved
    have still : (s.next action).reader.generation = s.reader.generation := by omega
    have all := ih (used_next h still) (unmoved.trans still.symm)
    simp only [pushed, Course.fetched, collect, List.map_append, ← List.append_assoc] at all ⊢
    exact all

end Course

/-- The buffer of a reader that is enabled, used in any way, by records that arrive in any order of
their times and by fetches with any bounds: every further fetch takes exactly the records before its
bound and leaves exactly the others, in the order of arrival; every record that was there or has
arrived was fetched once or is still there; and a fetch before one with a later bound changes
neither what both take together nor what they leave. That is how a buffer is used from one move of
the reader to the next, whatever else happens, the phases of the worker included. -/
theorem Reader.drains_exactly :
    (∀ (r r' : Reader) (arrived fetched : List Record), r.enabled = true →
      r.Used arrived fetched r' →
      (∀ bound, r'.fetch bound =
        (r'.buffer.filter (·.isBefore bound),
          { r' with buffer := r'.buffer.filter fun record => !record.isBefore bound })) ∧
      r'.buffer <+ r.buffer ++ arrived ∧
      (fetched ++ r'.buffer).Perm (r.buffer ++ arrived) ∧
      ∀ earlier later, Instant.AtMost earlier later →
        ((r'.fetch earlier).2.fetch later).2 = (r'.fetch later).2 ∧
          ((r'.fetch earlier).1 ++ ((r'.fetch earlier).2.fetch later).1).Perm
            (r'.fetch later).1) ∧
    ∀ (s : Course) (actions : List Course.Action),
      (s.run actions).reader.generation = s.reader.generation →
      s.reader.Used ((s.pushed actions).map (·.2)) (s.fetched actions)
        (s.run actions).reader := by
  constructor
  · intro r r' arrived fetched on used
    have still := used.enabled_eq.trans on
    exact ⟨fetch_eq still, used.sublist on, used.perm, fun _ _ => fetch_fetch still⟩
  · intro s actions unmoved
    exact Course.used_run .start actions unmoved

/-- Of three records that arrive out of order the earliest is fetched from the middle. When a worker
brings two of them from a store, the one that came later is fetched and the other one stays. -/
theorem Reader.drains_exactly_out_of_order :
    let first : Instant := ⟨1, 0, by decide, by decide, by decide, by decide⟩
    let second : Instant := ⟨2, 0, by decide, by decide, by decide, by decide⟩
    let third : Instant := ⟨3, 0, by decide, by decide, by decide, by decide⟩
    let record (time : Instant) : Record := .atTime time "owner" "interface" "method" []
    let r := create 10 true
    let stored := (MemoryStore.unbounded.insert (.ofRecord (record third))).insert
      (.ofRecord (record first))
    let s := Course.next ⟨r, .reliable (.memory stored)⟩ (.move (some first) first)
    let actions : List Course.Action :=
      List.replicate 10 (.work first) ++ [.fetch (some second)]
    (∃ r', r.Used [record third, record first, record second] [record first] r' ∧
      r'.buffer = [record third, record second] ∧
      ([record first] ++ r'.buffer).Perm [record third, record first, record second] ∧
      (r'.fetch (some third)).1 = [record second] ∧
      ((r'.fetch (some third)).2.fetch none).2 = (r'.fetch none).2) ∧
      s.reader.Used [record third, record first] [record first] (s.run actions).reader ∧
      (s.run actions).reader.buffer = [record third] := by
  intro first second third record r stored s actions
  let full := { r with buffer := [record third, record first, record second] }
  have taken : (full.fetch (some second)).1 = [record first] := by decide +kernel
  have left : (full.fetch (some second)).2.buffer = [record third, record second] := by
    decide +kernel
  have arrivals : r.Used [record third, record first, record second] [] full :=
    ((Used.start.push (record third)).push (record first)).push (record second)
  have used := arrivals.fetch (some second)
  rw [taken, List.nil_append] at used
  obtain ⟨takes, -, all, bounds⟩ := drains_exactly.1 _ _ _ _ rfl used
  constructor
  · refine ⟨_, used, left, all, ?_, (bounds (some third) none trivial).1⟩
    rw [takes, left]
    decide +kernel
  · have came : (s.pushed actions).map (·.2) = [record third, record first] := by decide +kernel
    have went : s.fetched actions = [record first] := by decide +kernel
    have worked := drains_exactly.2 s actions (by decide +kernel)
    rw [came, went] at worked
    exact ⟨worked, by decide +kernel⟩

end TraceJournal
