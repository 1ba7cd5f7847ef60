import TraceJournal.Proofs.Journal.Standing

/-!
# What a reader returns between its moves

The moves of a reader, those that it makes itself after a failure among them, divide its course into
stretches. Within a stretch every stored record from the checkpoint on is fetched at most once,
whatever fails and whatever is removed from the store. Over several stretches a record can be
fetched again, but only from a checkpoint on that is not after its time: a reader that moves to just
after the present returns once more what is stamped later than that.
-/

namespace TraceJournal

open scoped List

namespace Course

/-- The documents that somebody stores with an action. -/
def storedBy (s : Course) : Action → List Document
  | .insert d => if (s.link.insert d).1.isOk then s.link.store.added d else []
  | _ => []

/-- The checkpoint that the reader is moved to, or moves itself to, with an action. -/
def movedBy (s : Course) (action : Action) : Option Checkpoint :=
  if (s.next action).reader.generation = s.reader.generation then none
  else (s.next action).reader.checkpoint

end Course

/-- A course with the documents that were ever stored, and its stretches. -/
structure Tally where
  course : Course
  /-- The documents that were stored at first, and then those that were stored since, but for the
  sentinels that the reader itself stores. -/
  stored : List Document
  past : List Stretch
  present : Stretch

namespace Tally

/-- The tally of a reader that was just moved to a checkpoint. -/
def start (c : Checkpoint) (reader : Reader) (link : Link) : Tally :=
  ⟨⟨reader, link⟩, link.store.held, [], ⟨c, []⟩⟩

/-- The tally after an action. -/
def next (t : Tally) (action : Course.Action) : Tally :=
  let course := t.course.next action
  let stored := t.stored ++ t.course.storedBy action
  let present := { t.present with fetched := t.present.fetched ++ t.course.fetchedBy action }
  match t.course.movedBy action with
  | none => { t with course, stored, present }
  | some c => ⟨course, stored, t.past ++ [present], ⟨c, []⟩⟩

/-- The tally after some actions. -/
def run (t : Tally) (actions : List Course.Action) : Tally := actions.foldl next t

/-- All stretches, the present one last. -/
def stretches (t : Tally) : List Stretch := t.past ++ [t.present]

/-- All that was fetched. -/
def fetched (t : Tally) : List Record := t.stretches.flatMap Stretch.fetched

end Tally

/-! ## What every action keeps -/

namespace Tally

/-- What holds throughout. -/
structure Inv (t : Tally) (log passed : List Document) (slot : Slot) : Prop where
  reached : t.course.reader.Reached
  logged : t.course.link.Logged log t.stored
  past : ∀ p ∈ t.past, p.fetched <+~ p.checkpoint.records t.stored
  stands : t.present.Stands t.course.reader t.course.link.store log passed slot

/-- What holds throughout, wherever the cursor stands. -/
def Sound (t : Tally) : Prop := ∃ log passed slot, t.Inv log passed slot

theorem course_next (t : Tally) (action : Course.Action) :
    (t.next action).course = t.course.next action := by
  unfold next
  simp only
  split <;> rfl

/-- A tally counts all that is fetched. -/
theorem fetched_next (t : Tally) (action : Course.Action) :
    (t.next action).fetched = t.fetched ++ t.course.fetchedBy action := by
  unfold next
  simp only
  split <;> simp [fetched, stretches]

theorem fetched_run (t : Tally) (actions : List Course.Action) :
    (t.run actions).fetched = t.fetched ++ t.course.fetched actions := by
  induction actions generalizing t with
  | nil => exact (List.append_nil _).symm
  | cons action rest ih =>
    have later := ih (t.next action)
    rw [fetched_next, course_next, List.append_assoc] at later
    exact later

/-- What was fetched in the present stretch are records from its checkpoint on. -/
theorem Inv.present {t : Tally} {log passed : List Document} {slot : Slot}
    (h : t.Inv log passed slot) : t.present.fetched <+~ t.present.checkpoint.records t.stored := by
  rw [h.stands.checkpoint_eq, ← h.logged.records_eq]
  refine List.Subperm.trans ?_ (h.stands.found.trans
    (Checkpoint.records_sublist_of_prefix _ h.stands.place.passed_prefix).subperm)
  rw [List.append_assoc]
  exact (List.sublist_append_left _ _).subperm

namespace Inv

variable {t : Tally} {log passed : List Document} {slot : Slot}

/-- An action that does not move the reader. -/
private theorem stay (h : t.Inv log passed slot) {action : Course.Action}
    (unmoved : (t.course.next action).reader.generation = t.course.reader.generation)
    (kept : ∃ log' passed' slot',
      (t.course.next action).link.Logged log' (t.stored ++ t.course.storedBy action) ∧
        Stretch.Stands
          { t.present with fetched := t.present.fetched ++ t.course.fetchedBy action }
          (t.course.next action).reader (t.course.next action).link.store log' passed' slot') :
    (t.next action).Sound := by
  obtain ⟨log', passed', slot', logged, stands⟩ := kept
  have none : t.course.movedBy action = .none := if_pos unmoved
  simp only [next, none]
  refine ⟨log', passed', slot', Course.reached_next h.reached action, logged, ?_, stands⟩
  intro p hp
  exact (h.past p hp).trans
    (p.checkpoint.records_sublist_of_prefix (List.prefix_append _ _)).subperm

/-- An action that only moves the reader. -/
private theorem move (h : t.Inv log passed slot) {action : Course.Action} {cursor : Cursor}
    {checkpoint : Checkpoint} {link' : Link}
    (opened : Reader.openCursor checkpoint t.course.link = (.ok cursor, link'))
    (silent : t.course.storedBy action = [] ∧ t.course.fetchedBy action = [])
    (link : (t.course.next action).link = link')
    (generation : (t.course.next action).reader.generation = t.course.reader.generation + 1)
    (slot_eq : (t.course.next action).reader.slot =
      some ⟨t.course.reader.generation + 1, checkpoint, cursor⟩)
    (buffer : (t.course.next action).reader.buffer = [])
    (carried : (t.course.next action).reader.phase.carried
      (t.course.next action).reader.generation = []) :
    (t.next action).Sound := by
  obtain ⟨more, logged, -⟩ := h.logged.openCursor checkpoint
  rw [opened] at logged
  obtain ⟨gone, all⟩ := logged.held
  obtain ⟨source, passed', place⟩ :=
    Cursor.At.of_tailFrom logged.sole (Reader.tailFrom_of_openCursor opened) all
  have moved : t.course.movedBy action = some checkpoint := by
    rw [Course.movedBy, if_neg (by omega), Reader.checkpoint, slot_eq]
    rfl
  rw [← generation] at slot_eq
  have stands := Stretch.Stands.of_moved slot_eq buffer carried source place
  simp only [next, moved, silent, List.append_nil]
  refine ⟨log ++ more, passed', ⟨(t.course.next action).reader.generation, checkpoint, cursor⟩,
    Course.reached_next h.reached action, ?_, ?_, ?_⟩
  · rw [link]
    exact logged
  · intro p hp
    rcases List.mem_append.mp hp with old | new
    · exact h.past p old
    · rw [List.mem_singleton.mp new]
      exact h.present
  · rw [link]
    exact stands

/-- An action that neither fetches nor stores anything, and does not move the reader. -/
private theorem pass (h : t.Inv log passed slot) {action : Course.Action}
    (silent : t.course.storedBy action = [] ∧ t.course.fetchedBy action = [])
    (unmoved : (t.course.next action).reader.generation = t.course.reader.generation)
    (kept : ∃ log' passed' slot', (t.course.next action).link.Logged log' t.stored ∧
      t.present.Stands (t.course.next action).reader (t.course.next action).link.store log' passed'
        slot') : (t.next action).Sound := by
  apply h.stay unmoved
  simp only [silent, List.append_nil]
  exact kept

/-- Inserting a document. -/
theorem insert (h : t.Inv log passed slot) (d : Document) : (t.next (.insert d)).Sound := by
  have added : t.course.storedBy (.insert d) =
      if (t.course.link.insert d).1.isOk then t.course.link.store.added d else [] := rfl
  obtain ⟨logged, grown⟩ := h.logged.insert_link d added
  refine h.stay rfl ⟨_, passed, slot, logged, ?_⟩
  simp only [Course.fetchedBy, List.append_nil]
  exact h.stands.withStore grown

/-- Fetching buffered records. -/
theorem fetch (h : t.Inv log passed slot) (before : Option Instant) :
    (t.next (.fetch before)).Sound := by
  obtain ⟨buffer, fetched⟩ := t.course.reader.exists_fetch before
  have perm := t.course.reader.fetch_perm before
  rw [fetched] at perm
  have reader : (t.course.next (.fetch before)).reader = { t.course.reader with buffer } := fetched
  have none : t.course.storedBy (.fetch before) = [] := rfl
  have unmoved :
      (t.course.next (.fetch before)).reader.generation = t.course.reader.generation := by
    rw [reader]
  refine h.stay unmoved ⟨log, passed, slot, ?_, ?_⟩
  · rw [none, List.append_nil]
    exact h.logged
  · rw [reader]
    refine ⟨h.stands.slot_eq, h.stands.checkpoint_eq, h.stands.source_eq, h.stands.place, ?_⟩
    refine (List.Perm.subperm ?_).trans h.stands.found
    rw [List.append_assoc t.present.fetched]
    exact (perm.append_left _).append_right _

/-- Moving the reader. -/
theorem moveTo (h : t.Inv log passed slot) (time : Option Instant) (now : Instant) :
    (t.next (.move time now)).Sound := by
  have silent : t.course.storedBy (.move time now) = [] ∧
      t.course.fetchedBy (.move time now) = [] := ⟨rfl, rfl⟩
  rcases Reader.moveTo_cases time now t.course.reader t.course.link with
    ⟨cursor, link', opened, moved⟩ | ⟨same, link, -⟩
  · have link : (t.course.next (.move time now)).link = link' := by
      simp only [Course.next, moved]
    have reader : (t.course.next (.move time now)).reader =
        t.course.reader.repositioned (Reader.target time now) cursor := by
      simp only [Course.next, moved]
    refine h.move opened silent link ?_ ?_ ?_ ?_
    · rw [reader]
      rfl
    · rw [reader]
      rfl
    · rw [reader]
      rfl
    · rw [reader]
      apply Phase.carried_of_ne
      intro g busy
      have le := h.reached.dated.phase_le g busy
      simp only [Reader.repositioned]
      omega
  · have reader : (t.course.next (.move time now)).reader = t.course.reader := same
    have after : (t.course.next (.move time now)).link =
      (t.course.reader.moveTo time now t.course.link).2.2 := rfl
    apply h.pass silent (congrArg Reader.generation reader)
    rw [reader, after]
    rcases link with kept | opened
    · rw [kept]
      exact ⟨log, passed, slot, h.logged, h.stands⟩
    · obtain ⟨more, logged, grown⟩ := h.logged.openCursor (Reader.target time now)
      rw [opened]
      exact ⟨_, passed, slot, logged, h.stands.withStore grown⟩

/-- A phase of the worker. -/
theorem work (h : t.Inv log passed slot) (now : Instant) : (t.next (.work now)).Sound := by
  have silent : t.course.storedBy (.work now) = [] ∧ t.course.fetchedBy (.work now) = [] :=
    ⟨rfl, rfl⟩
  rcases t.course.reader.step_moves now t.course.link with
    unmoved | ⟨cursor, link', opened, stepped⟩
  · exact h.pass silent unmoved (h.stands.work h.logged h.reached now unmoved)
  · have link : (t.course.next (.work now)).link = link' := by simp only [Course.next, stepped]
    have reader : (t.course.next (.work now)).reader =
        { t.course.reader.repositioned (.after now) cursor with
          recoveries := t.course.reader.recoveries + 1
          phase := .ready } := by
      simp only [Course.next, stepped]
    refine h.move opened silent link ?_ ?_ ?_ ?_
    · rw [reader]
      rfl
    · rw [reader]
      rfl
    · rw [reader]
      rfl
    · rw [reader]
      rfl

/-- Every action leaves a tally sound. -/
theorem next (h : t.Inv log passed slot) (action : Course.Action) : (t.next action).Sound := by
  cases action with
  | insert d => exact h.insert d
  | disturb failures poison =>
    exact h.pass ⟨rfl, rfl⟩ rfl ⟨log, passed, slot, h.logged.congr rfl rfl, h.stands⟩
  | move time now => exact h.moveTo time now
  | work now => exact h.work now
  | fetch before => exact h.fetch before
  | close =>
    exact h.pass ⟨rfl, rfl⟩ rfl ⟨log, passed, slot, h.logged, h.stands.congr rfl rfl rfl⟩

end Inv

/-- Any number of actions leave a tally sound. -/
theorem Sound.run {t : Tally} (h : t.Sound) (actions : List Course.Action) :
    (t.run actions).Sound := by
  induction actions generalizing t with
  | nil => exact h
  | cons action rest ih =>
    obtain ⟨log, passed, slot, inv⟩ := h
    exact ih (inv.next action)

/-- A tally starts sound after a move. -/
theorem sound_start {r r' : Reader} {link link' : Link} {time : Option Instant} {now : Instant}
    {c : Checkpoint} (reached : r.Reached) (on : r.enabled = true) (sole : link.store.Sole)
    (own : link.anchor = none) (moved : r.moveTo time now link = (.ok c, r', link')) :
    (start c r' link').Sound := by
  have before : link.Logged link.store.held link.store.held := ⟨sole, own, ⟨[], rfl⟩, fun _ => rfl⟩
  obtain ⟨cursor, opened, rfl⟩ := Reader.exists_openCursor on moved
  obtain ⟨more, logged, -⟩ := before.openCursor c
  rw [opened] at logged
  have reached' := reached.moveTo time now link
  rw [moved] at reached'
  have all : [] ++ link'.store.held = link'.store.held := rfl
  obtain ⟨source, passed, place⟩ :=
    Cursor.At.of_tailFrom logged.sole (Reader.tailFrom_of_openCursor opened) all
  have carried : r.phase.carried (r.generation + 1) = [] := by
    apply Phase.carried_of_ne
    intro g busy
    have le := reached.dated.phase_le g busy
    omega
  refine ⟨link'.store.held, passed, _, reached', ⟨logged.sole, logged.own, ⟨[], rfl⟩, fun _ => rfl⟩,
    ?_, .of_moved rfl rfl carried source place⟩
  intro p hp
  cases hp

/-- What was fetched in each stretch are records from its checkpoint on. -/
theorem Sound.fetched_subperm {t : Tally} (h : t.Sound) :
    ∀ p ∈ t.stretches, p.fetched <+~ p.checkpoint.records t.stored := by
  obtain ⟨log, passed, slot, inv⟩ := h
  intro p hp
  rcases List.mem_append.mp hp with old | new
  · exact inv.past p old
  · rw [List.mem_singleton.mp new]
    exact inv.present

end Tally

/-- What is fetched in some stretches, of which each one returns none of the records of the earlier
ones, is fetched once over all of them. -/
theorem Stretch.flatMap_subperm {stretches : List Stretch} {records : List Record}
    (each : ∀ p ∈ stretches, p.fetched <+~ records.filter p.checkpoint.admits)
    (apart : stretches.Pairwise fun p q => ∀ e ∈ p.fetched, ¬q.checkpoint.time ≤ e.time) :
    stretches.flatMap Stretch.fetched <+~ records := by
  have bound (e : Record) : (stretches.flatMap Stretch.fetched).count e ≤ records.count e := by
    induction stretches with
    | nil => exact Nat.zero_le _
    | cons p rest ih =>
      obtain ⟨first, later⟩ := List.pairwise_cons.mp apart
      rw [List.flatMap_cons, List.count_append]
      by_cases here : e ∈ p.fetched
      · have gone : e ∉ rest.flatMap Stretch.fetched := by
          intro again
          obtain ⟨q, hq, there⟩ := List.mem_flatMap.mp again
          have found := (each q (List.mem_cons_of_mem p hq)).subset there
          exact first q hq e here (of_decide_eq_true (List.mem_filter.mp found).2)
        rw [List.count_eq_zero_of_not_mem gone, Nat.add_zero]
        exact ((each p List.mem_cons_self).count_le e).trans (List.filter_sublist.count_le e)
      · rw [List.count_eq_zero_of_not_mem here, Nat.zero_add]
        exact ih (fun q hq => each q (List.mem_cons_of_mem p hq)) later
  exact List.subperm_ext_iff.mpr fun e _ => bound e

/-- After a move to a checkpoint, whatever is inserted and however much of it is removed from the
store, whichever calls fail and whatever the clock says when the reader moves itself: in each
stretch from one move to the next, every record that was ever stored is fetched at most once, and
only if it is from the checkpoint of the stretch on. So if at every move nothing that was fetched
before is from the new checkpoint on, every stored record is fetched at most once altogether. -/
theorem Reader.fetches_once_each_stretch {r r' : Reader} {link link' : Link}
    {time : Option Instant} {now : Instant} {c : Checkpoint} {actions : List Course.Action}
    (reached : r.Reached) (on : r.enabled = true) (sole : link.store.Sole)
    (own : link.anchor = none) (moved : r.moveTo time now link = (.ok c, r', link')) :
    let t := (Tally.start c r' link').run actions
    t.fetched = Course.fetched ⟨r', link'⟩ actions ∧
      (∀ p ∈ t.stretches, p.fetched <+~ p.checkpoint.records t.stored) ∧
      ((t.stretches.Pairwise fun p q => ∀ e ∈ p.fetched, ¬q.checkpoint.time ≤ e.time) →
        t.fetched <+~ Record.ofDocuments t.stored) := by
  intro t
  have each := ((Tally.sound_start reached on sole own moved).run actions).fetched_subperm
  refine ⟨Tally.fetched_run _ _, each, ?_⟩
  intro apart
  refine Stretch.flatMap_subperm ?_ apart
  intro p hp
  rw [← Checkpoint.records_eq_filter]
  exact each p hp

/-- A record is stamped ten seconds from now. When the cursor fails after the record was fetched,
the reader moves itself to just after the present, and the record is fetched again. -/
theorem Reader.fetches_once_each_stretch_of_two :
    let now : Instant := ⟨0, 0, by decide, by decide, by decide, by decide⟩
    let t : Instant := ⟨10, 0, by decide, by decide, by decide, by decide⟩
    let e : Record := .atTime t "shop" "Orders" "placed" []
    let failures (call : Call) : Nat := if call = .tryNext then 1 else 0
    let moved := (Reader.create 2 true).moveTo (some t) now (.reliable (.memory .unbounded))
    let actions : List Course.Action :=
      .insert (.ofRecord e) :: List.replicate 10 (.work now) ++ [.fetch none] ++
        .disturb failures (fun _ => false) :: List.replicate 15 (.work now) ++ [.fetch none]
    let tally := (Tally.start (.atTime t) moved.2.1 moved.2.2).run actions
    moved.1 = .ok (.atTime t) ∧ tally.fetched = [e, e] ∧ Record.ofDocuments tally.stored = [e] ∧
      tally.stretches.map Stretch.fetched = [[e], [e]] ∧
      ∀ p ∈ tally.stretches, p.fetched <+~ p.checkpoint.records tally.stored := by
  intro now t e failures moved actions tally
  have answer : moved.1 = .ok (.atTime t) := by decide +kernel
  have split : (Reader.create 2 true).moveTo (some t) now (.reliable (.memory .unbounded)) =
      (.ok (.atTime t), moved.2.1, moved.2.2) := by
    rw [← answer]
  have fetched : tally.fetched = [e, e] := by decide +kernel
  have stored : Record.ofDocuments tally.stored = [e] := by decide +kernel
  have twice : tally.stretches.map Stretch.fetched = [[e], [e]] := by decide +kernel
  have sole : (Link.reliable (.memory .unbounded)).store.Sole := trivial
  exact ⟨answer, fetched, stored, twice,
    (Reader.fetches_once_each_stretch (.create 2 true) rfl sole rfl split).2.1⟩

end TraceJournal
