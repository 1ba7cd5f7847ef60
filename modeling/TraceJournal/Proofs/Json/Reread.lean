import TraceJournal.Proofs.Json.Leaf

/-!
# Reading written values

What a value becomes when it is read from its own text: texts and integers stay as they are, every
other number becomes what its own text is read as, the fields of an object are sorted, and nothing
is made of a value in which too many containers stand inside each other.
-/

namespace TraceJournal.Json

open TraceJournal.Text

mutual
/-- What a value becomes when its text is read and at most `depth` containers may stand inside each
other. -/
def reread : Json → (depth : Nat) → Option Json
  | null, _ => some null
  | boolean b, _ => some (boolean b)
  | number n, _ => (read (bytesOf n.chars)).toOption
  | text s, _ => some (text s)
  | array items, depth =>
    match depth with
    | 0 => none
    | depth + 1 => (rereadItems items depth).map array
  | object fields, depth =>
    match depth with
    | 0 => none
    | depth + 1 => (rereadFields fields depth).map ofFields

/-- What the items of an array become. -/
def rereadItems : List Json → (depth : Nat) → Option (List Json)
  | [], _ => some []
  | item :: rest, depth =>
    (item.reread depth).bind fun item => (rereadItems rest depth).map (item :: ·)

/-- What the fields of an object become. -/
def rereadFields : List (String × Json) → (depth : Nat) → Option (List (String × Json))
  | [], _ => some []
  | (name, value) :: rest, depth =>
    (value.reread depth).bind fun value => (rereadFields rest depth).map ((name, value) :: ·)
end

/-! ## Leaves -/

theorem endsNumber_nil : EndsNumber [] := nofun

theorem readValue_eq (depth : Nat) : ∃ container, readValue depth = readLeafOr container := by
  cases depth with
  | zero => exact ⟨_, rfl⟩
  | succ depth => exact ⟨_, rfl⟩

/-- A number becomes the same in any text. -/
theorem readValue_number (n : Number) (depth : Nat) {rest : List UInt8} (ends : EndsNumber rest) :
    (readValue depth (bytesOf n.chars ++ rest)).toOption =
      (read (bytesOf n.chars)).toOption.map fun value => (value, rest) := by
  obtain ⟨result, all⟩ := readLeafOr_number n
  obtain ⟨container, here⟩ := readValue_eq depth
  obtain ⟨container', alone⟩ := readValue_eq maxDepth
  have whole := all container' [] endsNumber_nil
  rw [List.append_nil] at whole
  rw [here, all container rest ends, read, readWhole, alone, whole]
  cases result <;> rfl

/-- The bytes of a quoted text, in front of others. -/
theorem bytesOf_quotedChars (s : String) (rest : List UInt8) :
    bytesOf (quotedChars s) ++ rest =
      code '"' :: (bytesOf (s.toList.flatMap escapeChar) ++ code '"' :: rest) := by
  rw [quotedChars, List.cons_append, bytesOf_ascii_cons (by decide), bytesOf_append,
    bytesOf_ascii_cons (by decide), bytesOf_nil, List.cons_append, List.append_assoc,
    List.singleton_append]

theorem readValue_text (s : String) (depth : Nat) (rest : List UInt8) :
    readValue depth (bytesOf (quotedChars s) ++ rest) = .ok (text s, rest) := by
  obtain ⟨container, here⟩ := readValue_eq depth
  have leaf (more : List UInt8) : readLeafOr container (code '"' :: more) =
      (readQuoted more).bind fun read => .ok (text read.1, read.2) := rfl
  rw [here, bytesOf_quotedChars, leaf, readQuoted_escaped]
  rfl

theorem readValue_null (depth : Nat) (rest : List UInt8) :
    readValue depth (bytesOf (chars null) ++ rest) = .ok (null, rest) := by
  obtain ⟨container, here⟩ := readValue_eq depth
  rw [here]
  rfl

theorem readValue_boolean (b : Bool) (depth : Nat) (rest : List UInt8) :
    readValue depth (bytesOf (chars (boolean b)) ++ rest) = .ok (boolean b, rest) := by
  obtain ⟨container, here⟩ := readValue_eq depth
  rw [here]
  cases b <;> rfl

/-! ## Containers -/

/-- Something is done with what is read. -/
theorem toOption_bind {α β γ : Type} {read : Except Fault β} {a? : Option α} {f : α → β}
    (h : read.toOption = a?.map f) (next : β → Except Fault γ) :
    (read >>= next).toOption = a?.bind fun a => (next (f a)).toOption := by
  cases read with
  | error e =>
    cases a? with
    | none => rfl
    | some a => cases h
  | ok result =>
    cases a? with
    | none => cases h
    | some a =>
      cases Option.some.inj h
      rfl

/-- Something is read in front of a list of others. -/
theorem toOption_cons {α β : Type} {first : Except Fault (α × List UInt8)} {a? : Option α}
    {more : Reader (List β)} {as? : Option (List β)} {middle rest : List UInt8} (f : α → β)
    (h : first.toOption = a?.map fun a => (a, middle))
    (h' : (more middle).toOption = as?.map fun as => (as, rest)) :
    (do
      let (a, rest) ← first
      let (as, rest) ← more rest
      .ok (f a :: as, rest) : Except Fault (List β × List UInt8)).toOption =
      (a?.bind fun a => as?.map (f a :: ·)).map fun as => (as, rest) := by
  rw [toOption_bind h]
  cases a? with
  | none => rfl
  | some a =>
    rw [Option.bind_some, toOption_bind h']
    cases as? <;> rfl

/-- Something is made of what is read. -/
theorem toOption_map {α β : Type} {read : Except Fault (α × List UInt8)} {a? : Option α}
    {rest : List UInt8} (f : α → β) (h : read.toOption = a?.map fun a => (a, rest)) :
    (do
      let (a, rest) ← read
      .ok (f a, rest) : Except Fault (β × List UInt8)).toOption =
      (a?.map f).map fun b => (b, rest) := by
  rw [toOption_bind h]
  cases a? <;> rfl

/-- The text of a number starts with a digit or a minus sign. -/
theorem front_number (n : Number) :
    ∃ b more, bytesOf n.chars = b :: more ∧ (isDigit b = true ∨ b = code '-') := by
  cases n with
  | integer value least most =>
    rw [Number.chars, signedDecimal]
    split
    · exact ⟨_, _, bytesOf_ascii_cons (by decide) _, .inr rfl⟩
    · obtain ⟨b, more, bytes, digit⟩ := digit_front_of_all (fun _ => isDigit_of_mem_decimal)
        (decimal_ne_nil value.natAbs) []
      rw [List.append_nil] at bytes
      exact ⟨b, more, bytes, .inl digit⟩
  | decimal x =>
    obtain ⟨unsigned, text, written⟩ := Number.written_text x
    rw [Number.chars, text]
    split
    · exact ⟨_, _, bytesOf_ascii_cons (by decide) _, .inr rfl⟩
    · obtain ⟨b, more, bytes, digit⟩ := digit_front_of_written written
      exact ⟨b, more, bytes, .inl digit⟩

/-- The text of a value starts with no blank and with no mark that ends an array. -/
theorem front_chars (j : Json) :
    ∃ b more, bytesOf j.chars = b :: more ∧ isGap b = false ∧ b ≠ code ']' := by
  cases j with
  | null => exact ⟨_, _, rfl, rfl, by decide⟩
  | boolean b =>
    cases b
    · exact ⟨_, _, rfl, rfl, by decide⟩
    · exact ⟨_, _, rfl, rfl, by decide⟩
  | number n =>
    obtain ⟨b, more, bytes, digit | rfl⟩ := front_number n
    · refine ⟨b, more, bytes, isGap_of_isDigit digit, ?_⟩
      rintro rfl
      cases digit
    · exact ⟨_, more, bytes, rfl, by decide⟩
  | text s =>
    rw [chars, ← List.append_nil (bytesOf _), bytesOf_quotedChars]
    exact ⟨_, _, rfl, rfl, by decide⟩
  | array items =>
    cases items with
    | nil => exact ⟨_, _, rfl, rfl, by decide⟩
    | cons item rest => exact ⟨_, _, bytesOf_ascii_cons (by decide) _, rfl, by decide⟩
  | object fields =>
    cases fields with
    | nil => exact ⟨_, _, rfl, rfl, by decide⟩
    | cons field rest => exact ⟨_, _, bytesOf_ascii_cons (by decide) _, rfl, by decide⟩

/-- Where an array goes on after an item. -/
theorem readItems_more (readItem : Reader Json) (rounds : Nat) {b : UInt8} (gap : isGap b = false)
    (other : b ≠ code ']') (more : List UInt8) :
    readItems readItem (rounds + 1) false (code ',' :: b :: more) =
      (do
        let (item, rest) ← readItem (b :: more)
        let (items, rest) ← readItems readItem rounds false rest
        .ok (item :: items, rest)) := by
  have comma (rest : List UInt8) : skipGaps (code ',' :: rest) = code ',' :: rest := rfl
  have mark : code ',' ≠ code ']' := by decide
  simp only [readItems, comma, mark, skipGaps_cons gap, other, if_true, if_false,
    Bool.false_eq_true]
  rfl

/-- Where an array starts with an item. -/
theorem readItems_first (readItem : Reader Json) (rounds : Nat) {b : UInt8} (gap : isGap b = false)
    (other : b ≠ code ']') (more : List UInt8) :
    readItems readItem (rounds + 1) true (b :: more) =
      (do
        let (item, rest) ← readItem (b :: more)
        let (items, rest) ← readItems readItem rounds false rest
        .ok (item :: items, rest)) := by
  simp only [readItems, skipGaps_cons gap, other, if_true, if_false]
  rfl

/-- A field after its name. -/
theorem readFields_named (readItem : Reader Json) (rounds : Nat) (first : Bool) (name : String)
    (more : List UInt8) :
    readFields readItem (rounds + 1) first
        ((if first then [] else [code ',']) ++ (bytesOf (quotedChars name) ++ code ':' :: more)) =
      (do
        let (value, rest) ← readItem more
        let (fields, rest) ← readFields readItem rounds false rest
        .ok ((name, value) :: fields, rest)) := by
  have start (input : List UInt8) :
      nextField first ((if first then [] else [code ',']) ++ code '"' :: input) =
        .ok (some input, input) := by
    cases first <;> rfl
  have colon : readColon (code ':' :: more) = .ok more := rfl
  rw [bytesOf_quotedChars]
  simp only [readFields, start, bind, Except.bind, readQuoted_escaped, colon]

/-- What follows an item of an array is no part of a number. -/
theorem endsNumber_moreItems (items : List Json) (rest : List UInt8) :
    EndsNumber (bytesOf (moreItemChars items) ++ rest) := by
  cases items with
  | nil => exact .cons (by decide) _
  | cons item items =>
    rw [moreItemChars, List.cons_append, bytesOf_ascii_cons (by decide)]
    exact .cons (by decide) _

/-- What follows a field of an object is no part of a number. -/
theorem endsNumber_moreFields (fields : List (String × Json)) (rest : List UInt8) :
    EndsNumber (bytesOf (moreFieldChars fields) ++ rest) := by
  cases fields with
  | nil => exact .cons (by decide) _
  | cons field fields =>
    rw [moreFieldChars, List.cons_append, List.cons_append, bytesOf_ascii_cons (by decide)]
    exact .cons (by decide) _

/-- The bytes of a field and of what follows it in the object. -/
theorem bytesOf_field (name : String) (value : Json) (fields : List (String × Json))
    (rest : List UInt8) :
    bytesOf (quotedChars name ++ ':' :: value.chars ++ moreFieldChars fields) ++ rest =
      bytesOf (quotedChars name) ++ code ':' ::
        (bytesOf value.chars ++ (bytesOf (moreFieldChars fields) ++ rest)) := by
  have colon : ':'.toNat < 128 := by decide
  simp only [bytesOf_append, bytesOf_ascii_cons colon, List.append_assoc, List.cons_append]

mutual
/-- A value is read from its text, in front of anything that is no part of a number, as what it
becomes. -/
theorem readValue_chars : (j : Json) → (depth : Nat) → (rest : List UInt8) → EndsNumber rest →
    (readValue depth (bytesOf j.chars ++ rest)).toOption =
      (j.reread depth).map fun j => (j, rest)
  | null, depth, rest, _ => by rw [readValue_null]; rfl
  | boolean b, depth, rest, _ => by rw [readValue_boolean]; rfl
  | number n, depth, rest, ends => readValue_number n depth ends
  | text s, depth, rest, _ => by rw [chars, readValue_text]; rfl
  | array [], depth, rest, _ => by cases depth <;> rfl
  | array (item :: items), depth, rest, _ => by
    have bytes : bytesOf (array (item :: items)).chars ++ rest =
        code '[' :: (bytesOf item.chars ++ (bytesOf (moreItemChars items) ++ rest)) := by
      rw [chars, List.cons_append, bytesOf_ascii_cons (by decide), bytesOf_append, List.cons_append,
        List.append_assoc]
    rw [bytes]
    cases depth with
    | zero => rfl
    | succ depth =>
      have opened (more : List UInt8) : readValue (depth + 1) (code '[' :: more) =
          (do
            let (items, rest) ← readItems (readValue depth) (more.length + 1) true more
            .ok (array items, rest)) := rfl
      obtain ⟨b, tail, front, gap, other⟩ := front_chars item
      have first := readValue_chars item depth _ (endsNumber_moreItems items rest)
      have later := readItems_chars items depth
        (bytesOf item.chars ++ (bytesOf (moreItemChars items) ++ rest)).length rest (by
          simp only [List.length_append]
          omega)
      rw [opened]
      apply toOption_map array
      rw [front, List.cons_append] at first later ⊢
      rw [readItems_first _ _ gap other]
      exact toOption_cons (fun item => item) first later
  | object [], depth, rest, _ => by cases depth <;> rfl
  | object ((name, value) :: fields), depth, rest, _ => by
    have bytes : bytesOf (object ((name, value) :: fields)).chars ++ rest =
        code '\x7b' :: (bytesOf (quotedChars name) ++ code ':' ::
          (bytesOf value.chars ++ (bytesOf (moreFieldChars fields) ++ rest))) := by
      rw [chars, List.cons_append, List.cons_append, bytesOf_ascii_cons (by decide),
        List.cons_append, bytesOf_field]
    rw [bytes]
    cases depth with
    | zero => rfl
    | succ depth =>
      have opened (more : List UInt8) : readValue (depth + 1) (code '\x7b' :: more) =
          (do
            let (fields, rest) ← readFields (readValue depth) (more.length + 1) true more
            .ok (ofFields fields, rest)) := rfl
      have first := readValue_chars value depth _ (endsNumber_moreFields fields rest)
      have later := readFields_chars fields depth (bytesOf (quotedChars name) ++ code ':' ::
          (bytesOf value.chars ++ (bytesOf (moreFieldChars fields) ++ rest))).length rest (by
        simp only [List.length_append, List.length_cons]
        omega)
      have named (rounds : Nat) := readFields_named (readValue depth) rounds true name
        (bytesOf value.chars ++ (bytesOf (moreFieldChars fields) ++ rest))
      simp only [if_true, List.nil_append] at named
      rw [opened]
      apply toOption_map ofFields
      rw [named]
      exact toOption_cons (fun value => (name, value)) first later

/-- The items after the first one, and the end of the array. -/
theorem readItems_chars : (items : List Json) → (depth rounds : Nat) → (rest : List UInt8) →
    (bytesOf (moreItemChars items) ++ rest).length ≤ rounds →
    (readItems (readValue depth) rounds false (bytesOf (moreItemChars items) ++ rest)).toOption =
      (rereadItems items depth).map fun items => (items, rest)
  | [], depth, rounds, rest, enough => by
    cases rounds with
    | zero => cases enough
    | succ rounds => rfl
  | item :: items, depth, rounds, rest, enough => by
    obtain ⟨b, tail, front, gap, other⟩ := front_chars item
    have bytes : bytesOf (moreItemChars (item :: items)) ++ rest =
        code ',' :: (bytesOf item.chars ++ (bytesOf (moreItemChars items) ++ rest)) := by
      rw [moreItemChars, List.cons_append, bytesOf_ascii_cons (by decide), bytesOf_append,
        List.cons_append, List.append_assoc]
    have first := readValue_chars item depth _ (endsNumber_moreItems items rest)
    rw [bytes, List.length_cons, List.length_append] at enough
    rw [bytes]
    cases rounds with
    | zero => cases enough
    | succ rounds =>
      have later := readItems_chars items depth rounds rest (by omega)
      rw [front, List.cons_append] at first ⊢
      rw [readItems_more _ _ gap other]
      exact toOption_cons (fun item => item) first later

/-- The fields after the first one, and the end of the object. -/
theorem readFields_chars : (fields : List (String × Json)) → (depth rounds : Nat) →
    (rest : List UInt8) → (bytesOf (moreFieldChars fields) ++ rest).length ≤ rounds →
    (readFields (readValue depth) rounds false (bytesOf (moreFieldChars fields) ++ rest)).toOption =
      (rereadFields fields depth).map fun fields => (fields, rest)
  | [], depth, rounds, rest, enough => by
    cases rounds with
    | zero => cases enough
    | succ rounds => rfl
  | (name, value) :: fields, depth, rounds, rest, enough => by
    have bytes : bytesOf (moreFieldChars ((name, value) :: fields)) ++ rest =
        [code ','] ++ (bytesOf (quotedChars name) ++ code ':' ::
          (bytesOf value.chars ++ (bytesOf (moreFieldChars fields) ++ rest))) := by
      rw [moreFieldChars, List.cons_append, List.cons_append, bytesOf_ascii_cons (by decide),
        List.cons_append, bytesOf_field, List.singleton_append]
    have first := readValue_chars value depth _ (endsNumber_moreFields fields rest)
    rw [bytes] at enough ⊢
    simp only [List.length_append, List.length_cons, List.length_nil] at enough
    cases rounds with
    | zero => cases enough
    | succ rounds =>
      have later := readFields_chars fields depth rounds rest (by
        rw [List.length_append]
        omega)
      have named := readFields_named (readValue depth) rounds false name
        (bytesOf value.chars ++ (bytesOf (moreFieldChars fields) ++ rest))
      rw [if_neg (by decide)] at named
      rw [named]
      exact toOption_cons (fun value => (name, value)) first later
end

end TraceJournal.Json
