import TraceJournal.Json.Schema

/-!
# Bytes that no text holds

Wherever a reader succeeds, every byte that it passed over is a tabulator or above. So a text with a
byte below that is read as nothing, wherever the byte stands.
-/

namespace TraceJournal.Json

/-- `rest` is what is left of `input` behind some bytes, none of them below a tabulator. -/
inductive Past : List UInt8 → List UInt8 → Prop where
  | here (input : List UInt8) : Past input input
  | byte {b : UInt8} {input rest : List UInt8} : 9 ≤ b → Past input rest → Past (b :: input) rest

namespace Past

variable {input middle rest : List UInt8}

theorem trans (h : Past input middle) (h' : Past middle rest) : Past input rest := by
  induction h with
  | here => exact h'
  | byte plain _ ih => exact .byte plain (ih h')

/-- Nothing is left, so no byte is below a tabulator. -/
theorem le_of_mem (h : Past input rest) (ends : ∀ b ∈ rest, 9 ≤ b) : ∀ b ∈ input, 9 ≤ b := by
  induction h with
  | here => exact ends
  | byte plain _ ih =>
    intro b hb
    rcases List.mem_cons.mp hb with rfl | hb
    · exact plain
    · exact ih ends b hb

theorem dropWhile {p : UInt8 → Bool} (plain : ∀ b, p b = true → 9 ≤ b) (input : List UInt8) :
    Past input (input.dropWhile p) := by
  induction input with
  | nil => exact .here []
  | cons b input ih =>
    rw [List.dropWhile_cons]
    split
    · next holds => exact .byte (plain b holds) ih
    · exact .here _

end Past

theorem le_of_isDigit {b : UInt8} (h : isDigit b = true) : 9 ≤ b := by
  rw [isDigit, Bool.and_eq_true, decide_eq_true_eq] at h
  exact UInt8.le_trans (by decide) h.1

theorem le_of_isGap {b : UInt8} (h : isGap b = true) : 9 ≤ b := by
  simp only [isGap, Bool.or_eq_true, beq_iff_eq] at h
  rcases h with ((rfl | rfl) | rfl) | rfl <;> decide

theorem past_skipGaps (input : List UInt8) : Past input (skipGaps input) :=
  .dropWhile (fun _ => le_of_isGap) input

/-- Whatever the result leaves of the text is past bytes none of which is below a tabulator. -/
def Leaves {α : Type} (left : α → List UInt8) (input : List UInt8) (result : Except Fault α) : Prop :=
  ∀ a, result = .ok a → Past input (left a)

namespace Leaves

variable {α β : Type} {left : α → List UInt8} {left' : β → List UInt8} {input middle : List UInt8}
  {result : Except Fault α}

theorem ok {a : α} (h : Past input (left a)) : Leaves left input (.ok a) := by
  intro a' same
  cases same
  exact h

theorem error (fault : Fault) : Leaves left input (.error fault) := nofun

theorem past (h : Past input middle) (h' : Leaves left middle result) : Leaves left input result :=
  fun a same => h.trans (h' a same)

theorem byte {b : UInt8} (plain : 9 ≤ b) (h : Leaves left input result) :
    Leaves left (b :: input) result :=
  h.past (.byte plain (.here input))

theorem bind (h : Leaves left input result) {next : α → Except Fault β}
    (h' : ∀ a, Leaves left' (left a) (next a)) : Leaves left' input (result >>= next) := by
  cases result with
  | error fault => exact .error fault
  | ok a => exact (h' a).past (h a rfl)

/-- What is checked beside the text. -/
theorem check {c : Prop} [Decidable c] (fault : Fault) {next : Unit → Except Fault β}
    (h : Leaves left' input (next ())) :
    Leaves left' input (if c then Except.error fault >>= next else next ()) := by
  split
  · exact .error fault
  · exact h

/-- What is computed beside the text. -/
theorem pure (result : Except Fault α) {next : α → Except Fault β}
    (h : ∀ a, Leaves left' input (next a)) : Leaves left' input (result >>= next) := by
  cases result with
  | error fault => exact .error fault
  | ok a => exact h a

end Leaves

theorem leaves_readLiteral {word : List UInt8} (plain : word.all (9 ≤ ·)) (input : List UInt8) :
    Leaves id input (readLiteral word input) := by
  induction word generalizing input with
  | nil => exact .ok (.here input)
  | cons b word ih =>
    rw [List.all_cons, Bool.and_eq_true, decide_eq_true_eq] at plain
    cases input with
    | nil => exact .error _
    | cons c rest =>
      rw [readLiteral]
      split
      · next same =>
        rw [← same]
        exact .byte plain.1 (ih plain.2 rest)
      · exact .error _

/-! ## Quoted texts -/

theorem le_of_hexValue? {b : UInt8} {n : Nat} (h : hexValue? b = some n) : 9 ≤ b := by
  unfold hexValue? at h
  split at h
  · next digit => exact le_of_isDigit digit
  · split at h
    · next lower => exact UInt8.le_trans (by decide) lower.1
    · split at h
      · next upper => exact UInt8.le_trans (by decide) upper.1
      · cases h

theorem leaves_readHex (input : List UInt8) : Leaves Prod.snd input (readHex input) := by
  unfold readHex
  split
  · split
    · next first second third fourth =>
      exact .byte (le_of_hexValue? first) <| .byte (le_of_hexValue? second) <|
        .byte (le_of_hexValue? third) <| .byte (le_of_hexValue? fourth) <| .ok (.here _)
    · exact .error _
  · exact .error _

theorem leaves_readTrail (lead : Nat) (input : List UInt8) :
    Leaves Prod.snd input (readTrail lead input) := by
  unfold readTrail
  refine .bind (leaves_readLiteral (by decide) input) fun rest => ?_
  refine .bind (leaves_readHex rest) fun (trail, rest) => ?_
  dsimp only
  split
  · exact .ok (.here rest)
  · exact .error _

theorem leaves_readCodePoint (input : List UInt8) :
    Leaves Prod.snd input (readCodePoint input) := by
  unfold readCodePoint
  refine .bind (leaves_readHex input) fun (n, rest) => ?_
  dsimp only
  split
  · exact .error _
  · split
    · exact leaves_readTrail n rest
    · exact .ok (.here rest)

theorem le_of_escapedByte? {b : UInt8} (h : (escapedByte? b).isSome) : 9 ≤ b := by
  unfold escapedByte? at h
  split at h
  · next mark => rcases mark with rfl | rfl | rfl <;> decide
  iterate 5
    split at h
    · next same =>
      rw [same]
      decide
  cases h

theorem leaves_readEscape (input : List UInt8) : Leaves Prod.snd input (readEscape input) := by
  unfold readEscape
  split
  · exact .error _
  · next b rest =>
    split
    · next same =>
      rw [same]
      refine .byte (by decide) (.bind (leaves_readCodePoint rest) fun (n, rest) => ?_)
      exact .ok (.here rest)
    · split
      · next byte stands => exact .byte (le_of_escapedByte? (by rw [stands]; rfl)) (.ok (.here rest))
      · exact .error _

theorem le_of_not_control {b : UInt8} (h : ¬b < 32) : 9 ≤ b :=
  UInt8.le_trans (by decide) (UInt8.not_lt.mp h)

theorem leaves_readQuotedBytes (rounds : Nat) (input : List UInt8) :
    Leaves Prod.snd input (readQuotedBytes rounds input) := by
  induction rounds generalizing input with
  | zero => exact .error _
  | succ rounds ih =>
    cases input with
    | nil => exact .error _
    | cons b rest =>
      rw [readQuotedBytes]
      split
      · next same =>
        rw [same]
        exact .byte (by decide) (.ok (.here rest))
      · split
        · next same =>
          rw [same]
          refine .byte (by decide) (.bind (leaves_readEscape rest) fun (bytes, rest) => ?_)
          refine .bind (ih rest) fun (more, rest) => ?_
          exact .ok (.here rest)
        · split
          · exact .error _
          · next plain =>
            refine .byte (le_of_not_control plain) (.bind (ih rest) fun (more, rest) => ?_)
            exact .ok (.here rest)

theorem leaves_readQuoted (input : List UInt8) : Leaves Prod.snd input (readQuoted input) := by
  unfold readQuoted
  refine .bind (leaves_readQuotedBytes _ input) fun (bytes, rest) => ?_
  dsimp only
  split
  · exact .ok (.here rest)
  · exact .error _

theorem leaves_skipQuoted (rounds : Nat) (input : List UInt8) :
    Leaves id input (skipQuoted rounds input) := by
  induction rounds generalizing input with
  | zero => exact .error _
  | succ rounds ih =>
    cases input with
    | nil => exact .error _
    | cons b rest =>
      unfold skipQuoted
      split
      · next same =>
        rw [same]
        exact .byte (by decide) (.ok (.here rest))
      · split
        · next same =>
          rw [same]
          apply Leaves.byte (by decide)
          split
          · exact .error _
          · next c rest =>
            split
            · next same =>
              rw [same]
              refine .byte (by decide) (.bind (leaves_readHex rest) fun (n, rest) => ?_)
              exact ih rest
            · split
              · next escaped => exact .byte (le_of_escapedByte? escaped) (ih rest)
              · exact .error _
        · split
          · exact .error _
          · next plain => exact .byte (le_of_not_control plain) (ih rest)

/-! ## Numbers -/

theorem past_digits (input : List UInt8) : Past input (input.dropWhile isDigit) :=
  .dropWhile (fun _ => le_of_isDigit) input

theorem past_takeDigits (significand : Nat) (input : List UInt8) :
    Past input (takeDigits significand input).2.2 := by
  induction input generalizing significand with
  | nil => exact .here []
  | cons b rest ih =>
    rw [takeDigits]
    split
    · next taken =>
      rw [Bool.and_eq_true] at taken
      exact .byte (le_of_isDigit taken.1) (ih _)
    · exact .here _

theorem le_of_exponentMark {b : UInt8} (h : b = code 'e' ∨ b = code 'E') : 9 ≤ b := by
  rcases h with rfl | rfl <;> decide

theorem leaves_readExponent (negative : Bool) (significand : Nat) (exponent : Int)
    (input : List UInt8) :
    Leaves Prod.snd input (readExponent negative significand exponent input) := by
  unfold readExponent
  cases input with
  | nil => exact .error _
  | cons b rest =>
    have sign : ∃ down digits, (if b = code '-' then (true, rest)
        else if b = code '+' then (false, rest) else (false, b :: rest)) = (down, digits) ∧
        Past (b :: rest) digits := by
      split
      · next same => exact ⟨true, rest, rfl, .byte (same ▸ by decide) (.here rest)⟩
      · split
        · next same => exact ⟨false, rest, rfl, .byte (same ▸ by decide) (.here rest)⟩
        · exact ⟨false, b :: rest, rfl, .here _⟩
    obtain ⟨down, digits, same, past⟩ := sign
    dsimp only
    rw [same]
    refine .past past (.check _ (.check _ ?_))
    have number (result : Except Fault Number) : Leaves Prod.snd digits
        (result >>= fun number => .ok (number, digits.dropWhile isDigit)) :=
      .pure result fun number => .ok (past_digits digits)
    split
    · split
      · exact number _
      · exact number _
    · exact number _

theorem leaves_readNumberTail (negative : Bool) (significand dropped : Nat) (input : List UInt8) :
    Leaves Prod.snd input (readNumberTail negative significand dropped input) := by
  have number (result : Except Fault Number) (rest : List UInt8) :
      Leaves Prod.snd rest (result >>= fun number => .ok (number, rest)) :=
    .pure result fun number => .ok (.here rest)
  unfold readNumberTail
  split
  · split
    · exact number _ []
    · exact number _ []
  · next b rest =>
    split
    · next same =>
      rw [same]
      refine .byte (by decide) (.check _ (.check _ ?_))
      have past := (past_takeDigits significand rest).trans (past_digits _)
      generalize (takeDigits significand rest).2.2.dropWhile isDigit = left at past
      refine .past past ?_
      cases left with
      | nil => exact number _ []
      | cons c rest =>
        dsimp only
        split
        · next mark => exact .byte (le_of_exponentMark mark) (leaves_readExponent _ _ _ rest)
        · exact number _ (c :: rest)
    · split
      · next mark => exact .byte (le_of_exponentMark mark) (leaves_readExponent _ _ _ rest)
      · split
        · exact number _ _
        · exact number _ _

theorem leaves_readUnsigned (negative : Bool) (input : List UInt8) :
    Leaves Prod.snd input (readUnsigned negative input) := by
  unfold readUnsigned
  split
  · exact .error _
  · next b rest =>
    split
    · next same =>
      rw [same]
      apply Leaves.byte (by decide)
      split
      · split
        · exact .error _
        · exact leaves_readNumberTail _ _ _ _
      · exact leaves_readNumberTail _ _ _ _
    · split
      · exact .past ((past_takeDigits 0 (b :: rest)).trans (past_digits _))
          (leaves_readNumberTail _ _ _ _)
      · exact .error _

theorem leaves_skipDigits (input : List UInt8) : Leaves id input (skipDigits input) := by
  unfold skipDigits
  split
  · exact .error _
  · exact .ok (past_digits input)

theorem leaves_skipExponent (input : List UInt8) : Leaves id input (skipExponent input) := by
  unfold skipExponent
  split
  · exact .ok (.here [])
  · next b rest =>
    split
    · next mark =>
      apply Leaves.byte (le_of_exponentMark mark)
      split
      · next c digits =>
        split
        · next sign =>
          refine .byte ?_ (leaves_skipDigits digits)
          rcases sign with rfl | rfl <;> decide
        · exact leaves_skipDigits (c :: digits)
      · exact .error _
    · exact .ok (.here _)

theorem leaves_skipPlaces (input : List UInt8) : Leaves id input (skipPlaces input) := by
  unfold skipPlaces
  split
  · exact .ok (.here [])
  · next b rest =>
    split
    · next same =>
      rw [same]
      exact .byte (by decide) (.bind (leaves_skipDigits rest) leaves_skipExponent)
    · exact leaves_skipExponent (b :: rest)

theorem leaves_skipUnsigned (input : List UInt8) : Leaves id input (skipUnsigned input) := by
  unfold skipUnsigned
  split
  · exact .error _
  · next b rest =>
    split
    · next same =>
      rw [same]
      apply Leaves.byte (by decide)
      split
      · exact leaves_skipPlaces rest
      · exact .error _
    · exact .bind (leaves_skipDigits (b :: rest)) leaves_skipPlaces

/-! ## Values -/

theorem leaves_readLeafOr {container : UInt8 → Reader Json}
    (h : ∀ b rest, Leaves Prod.snd rest (container b rest)) (input : List UInt8) :
    Leaves Prod.snd input (readLeafOr container input) := by
  have word (value : Json) {word : List UInt8} (plain : word.all (9 ≤ ·)) (rest : List UInt8) :
      Leaves Prod.snd rest (readLiteral word rest >>= fun rest => .ok (value, rest)) :=
    .bind (leaves_readLiteral plain rest) fun rest => .ok (.here rest)
  unfold readLeafOr
  apply Leaves.past (past_skipGaps input)
  generalize skipGaps input = start
  cases start with
  | nil => exact .error _
  | cons b rest =>
    dsimp only
    split
    · next same => exact .byte (same ▸ by decide) (word null (by decide) rest)
    split
    · next same => exact .byte (same ▸ by decide) (word (boolean true) (by decide) rest)
    split
    · next same => exact .byte (same ▸ by decide) (word (boolean false) (by decide) rest)
    split
    · next same =>
      refine .byte (same ▸ by decide) (.bind (leaves_readQuoted rest) fun (s, rest) => ?_)
      exact .ok (.here rest)
    split
    · next same =>
      refine .byte (same ▸ by decide) (.bind (leaves_readUnsigned true rest) fun (n, rest) => ?_)
      exact .ok (.here rest)
    split
    · refine .bind (leaves_readUnsigned false (b :: rest)) fun (n, rest) => ?_
      exact .ok (.here rest)
    split
    · next opens =>
      refine .byte ?_ (h b rest)
      rcases opens with rfl | rfl <;> decide
    · exact .error _

section Containers

variable {readItem : Reader Json} (h : ∀ input, Leaves Prod.snd input (readItem input))

include h

theorem leaves_readItems (rounds : Nat) (first : Bool) (input : List UInt8) :
    Leaves Prod.snd input (readItems readItem rounds first input) := by
  induction rounds generalizing first input with
  | zero => exact .error _
  | succ rounds ih =>
    have item (start : List UInt8) : Leaves Prod.snd start
        (readItem start >>= fun item => readItems readItem rounds false item.2 >>= fun items =>
          .ok (item.1 :: items.1, items.2)) := by
      refine .bind (h start) fun item => .bind (ih false item.2) fun items => ?_
      exact .ok (.here items.2)
    rw [readItems]
    apply Leaves.past (past_skipGaps input)
    generalize skipGaps input = start
    cases start with
    | nil => exact .error _
    | cons b rest =>
      dsimp only
      split
      · next same => exact .byte (same ▸ by decide) (.ok (.here rest))
      split
      · exact item (b :: rest)
      split
      · next same =>
        apply Leaves.byte (same ▸ by decide)
        apply Leaves.past (past_skipGaps rest)
        generalize skipGaps rest = start
        cases start with
        | nil => exact .error _
        | cons c rest =>
          dsimp only
          split
          · exact .error _
          · exact item (c :: rest)
      · exact .error _

omit h in
theorem leaves_readColon (input : List UInt8) : Leaves id input (readColon input) :=
  .past (past_skipGaps input) (leaves_readLiteral (by decide) _)

omit h in
theorem leaves_nextField (first : Bool) (input : List UInt8) :
    Leaves (fun (start, rest) => start.getD rest) input (nextField first input) := by
  unfold nextField
  apply Leaves.past (past_skipGaps input)
  generalize skipGaps input = start
  cases start with
  | nil => exact .error _
  | cons b rest =>
    dsimp only
    split
    · next same => exact .byte (same ▸ by decide) (.ok (.here rest))
    split
    · split
      · next same => exact .byte (same ▸ by decide) (.ok (.here rest))
      · exact .error _
    split
    · next same =>
      apply Leaves.byte (same ▸ by decide)
      apply Leaves.past (past_skipGaps rest)
      generalize skipGaps rest = start
      cases start with
      | nil => exact .error _
      | cons c rest =>
        dsimp only
        split
        · next same => exact .byte (same ▸ by decide) (.ok (.here rest))
        · exact .error _
    · exact .error _

theorem leaves_readFields (rounds : Nat) (first : Bool) (input : List UInt8) :
    Leaves Prod.snd input (readFields readItem rounds first input) := by
  induction rounds generalizing first input with
  | zero => exact .error _
  | succ rounds ih =>
    rw [readFields]
    refine .bind (leaves_nextField first input) fun (start, rest) => ?_
    cases start with
    | none => exact .ok (.here rest)
    | some start =>
      refine .bind (leaves_readQuoted start) fun (name, rest) => ?_
      refine .bind (leaves_readColon rest) fun rest => ?_
      refine .bind (h rest) fun (value, rest) => ?_
      refine .bind (ih false rest) fun (fields, rest) => ?_
      exact .ok (.here rest)

end Containers

theorem leaves_readValue (depth : Nat) (input : List UInt8) :
    Leaves Prod.snd input (readValue depth input) := by
  induction depth generalizing input with
  | zero => exact leaves_readLeafOr (fun _ _ => .error _) input
  | succ depth ih =>
    refine leaves_readLeafOr (fun b rest => ?_) input
    dsimp only
    split
    · refine .bind (leaves_readItems ih _ _ rest) fun (items, rest) => ?_
      exact .ok (.here rest)
    · refine .bind (leaves_readFields ih _ _ rest) fun (fields, rest) => ?_
      exact .ok (.here rest)

/-! ## Values that are skipped -/

theorem leaves_skipLeaf (input : List UInt8) : Leaves Prod.snd input (skipLeaf input) := by
  unfold skipLeaf
  apply Leaves.past (past_skipGaps input)
  generalize skipGaps input = start
  cases start with
  | nil => exact .error _
  | cons b rest =>
    dsimp only
    split
    · next same => exact .byte (same ▸ by decide) (.ok (.here rest))
    split
    · next same => exact .byte (same ▸ by decide) (.ok (.here rest))
    split
    · next same =>
      refine .byte (same ▸ by decide) (.bind (leaves_skipQuoted _ rest) fun rest => ?_)
      exact .ok (.here rest)
    split
    · next same =>
      refine .byte (same ▸ by decide) (.bind (leaves_skipUnsigned rest) fun rest => ?_)
      exact .ok (.here rest)
    split
    · refine .bind (leaves_skipUnsigned (b :: rest)) fun rest => ?_
      exact .ok (.here rest)
    · refine .bind (leaves_readLeafOr (fun _ _ => .error _) (b :: rest)) fun (value, rest) => ?_
      exact .ok (.here rest)

theorem leaves_closeFrames (afterItem : Bool) (frames : List Frame) (input : List UInt8) :
    Leaves Prod.snd input (closeFrames afterItem frames input) := by
  induction frames generalizing afterItem input with
  | nil => exact .ok (.here input)
  | cons frame outer ih =>
    rw [closeFrames]
    apply Leaves.past (past_skipGaps input)
    generalize skipGaps input = start
    cases start with
    | nil => exact .error _
    | cons b rest =>
      dsimp only
      split
      · next mark => exact .byte (mark.2 ▸ by decide) (.ok (.here rest))
      split
      · next same =>
        refine .byte ?_ (ih true rest)
        rw [same]
        cases frame <;> decide
      split
      · exact .error _
      · exact .ok (.here _)

theorem leaves_skipName (input : List UInt8) : Leaves id input (skipName input) := by
  unfold skipName
  apply Leaves.past (past_skipGaps input)
  generalize skipGaps input = start
  cases start with
  | nil => exact .error _
  | cons b rest =>
    dsimp only
    split
    · exact .error _
    · next same =>
      refine .byte (Decidable.not_not.mp same ▸ by decide) ?_
      exact .bind (leaves_skipQuoted _ rest) leaves_readColon

theorem leaves_skipOpen (rounds : Nat) (frames : List Frame) (input : List UInt8) :
    Leaves id input (skipOpen rounds frames input) := by
  induction rounds generalizing frames input with
  | zero => exact .error _
  | succ rounds ih =>
    rw [skipOpen]
    refine .bind (leaves_skipLeaf input) fun (opened, rest) => ?_
    cases opened
    all_goals
      refine .bind (leaves_closeFrames _ _ rest) fun (frames, rest) => ?_
      cases frames with
      | nil => exact .ok (.here rest)
      | cons frame outer =>
        cases frame with
        | array => exact ih _ rest
        | object => exact .bind (leaves_skipName rest) (ih _)

theorem leaves_skipValue (input : List UInt8) : Leaves id input (skipValue input) :=
  leaves_skipOpen _ [] input

/-! ## Structures -/

theorem leaves_mistypedValue {α : Type} (input : List UInt8) :
    Leaves (Prod.snd (α := α)) input (mistypedValue input) :=
  .pure _ fun _ => .error _

theorem leaves_readText (input : List UInt8) : Leaves Prod.snd input (readText input) := by
  unfold readText
  apply Leaves.past (past_skipGaps input)
  generalize skipGaps input = start
  cases start with
  | nil => exact .error _
  | cons b rest =>
    dsimp only
    split
    · next same => exact .byte (same ▸ by decide) (leaves_readQuoted rest)
    · exact leaves_mistypedValue (b :: rest)

theorem leaves_readWord (input : List UInt8) : Leaves Prod.snd input (readWord input) := by
  unfold readWord
  refine .bind (leaves_readLeafOr (fun _ _ => .error _) input) fun (value, rest) => ?_
  dsimp only
  split
  · split
    · exact .ok (.here rest)
    · exact .error _
  · exact .error _

section Structures

variable {δ α : Type} {fields : List (Field δ)}
  (h : ∀ field ∈ fields, ∀ depth draft input, Leaves Prod.snd input (field.read depth draft input))

include h

theorem leaves_readObjectDraft (depth rounds : Nat) (first : Bool) (draft : δ)
    (input : List UInt8) :
    Leaves Prod.snd input (readObjectDraft fields depth rounds first draft input) := by
  induction rounds generalizing first draft input with
  | zero => exact .error _
  | succ rounds ih =>
    rw [readObjectDraft]
    refine .bind (leaves_nextField first input) fun (start, rest) => ?_
    cases start with
    | none => exact .ok (.here rest)
    | some start =>
      refine .bind (leaves_readQuoted start) fun (name, rest) => ?_
      dsimp only
      split
      · refine .bind (leaves_readColon rest) fun rest => ?_
        refine .bind (leaves_skipValue rest) fun rest => ?_
        exact ih false draft rest
      · next field found =>
        refine .check _ ?_
        refine .bind (leaves_readColon rest) fun rest => ?_
        refine .bind (h field (List.mem_of_find?_eq_some found) _ _ rest) fun (draft, rest) => ?_
        exact ih false draft rest

theorem leaves_readArrayDraft (depth : Nat) (first : Bool) (draft : δ) (input : List UInt8) :
    Leaves Prod.snd input (readArrayDraft depth fields first draft input) := by
  induction fields generalizing first draft input with
  | nil => exact .ok (.here input)
  | cons field fields ih =>
    have read (start : List UInt8) : Leaves Prod.snd start
        (field.read depth draft start >>= fun read =>
          readArrayDraft depth fields false read.1 read.2) := by
      refine .bind (h field List.mem_cons_self _ _ start) fun read => ?_
      exact ih (fun field' hf => h field' (List.mem_cons_of_mem field hf)) false read.1 read.2
    rw [readArrayDraft]
    apply Leaves.past (past_skipGaps input)
    generalize skipGaps input = start
    cases start with
    | nil => exact .error _
    | cons b rest =>
      dsimp only
      split
      · exact .ok (.here _)
      split
      · exact read (b :: rest)
      split
      · next same =>
        apply Leaves.byte (same ▸ by decide)
        apply Leaves.past (past_skipGaps rest)
        generalize skipGaps rest = start
        cases start with
        | nil => exact .error _
        | cons c rest =>
          dsimp only
          split
          · exact .error _
          · exact read (c :: rest)
      · exact .error _

end Structures

theorem leaves_readStructure {δ α : Type} {schema : Schema δ α}
    (h : ∀ field ∈ schema.fields, ∀ depth draft input,
      Leaves Prod.snd input (field.read depth draft input))
    (depth : Nat) (input : List UInt8) :
    Leaves Prod.snd input (readStructure schema depth input) := by
  unfold readStructure
  apply Leaves.past (past_skipGaps input)
  generalize skipGaps input = start
  cases start with
  | nil => exact .error _
  | cons b rest =>
    dsimp only
    split
    · next same =>
      cases depth with
      | zero => exact .error _
      | succ depth =>
        apply Leaves.byte (same ▸ by decide)
        refine .bind (leaves_readObjectDraft h _ _ _ _ rest) fun (draft, rest) => ?_
        exact .pure _ fun _ => .ok (.here rest)
    split
    · next same =>
      cases depth with
      | zero => exact .error _
      | succ depth =>
        apply Leaves.byte (same ▸ by decide)
        refine .bind (leaves_readArrayDraft h _ _ _ rest) fun (draft, rest) => .pure _ fun value => ?_
        apply Leaves.past (past_skipGaps rest)
        generalize skipGaps rest = start
        cases start with
        | nil => exact .error _
        | cons c rest =>
          dsimp only
          split
          · next same => exact .byte (same ▸ by decide) (.ok (.here rest))
          · exact .error _
    · exact leaves_mistypedValue (b :: rest)

/-- What is read as a whole text holds no byte below a tabulator. -/
theorem le_of_readWhole {α : Type} {reader : Reader α} {input : List UInt8} {value : α}
    (h : Leaves Prod.snd input (reader input)) (read : readWhole reader input = .ok value) :
    ∀ b ∈ input, 9 ≤ b := by
  unfold readWhole at read
  cases result : reader input with
  | error fault =>
    rw [result] at read
    cases read
  | ok found =>
    obtain ⟨found, rest⟩ := found
    have past := (h _ result).trans (past_skipGaps rest)
    apply past.le_of_mem
    rw [result] at read
    dsimp only [bind, Except.bind] at read
    split at read
    · next ends =>
      rw [List.isEmpty_iff.mp ends]
      exact nofun
    · cases read

end TraceJournal.Json
