import TraceJournal.Proofs.Segment.Appending
import TraceJournal.Proofs.Store.Document

/-!
# Finding what was accepted

A store writes every body that fits into a frame, however deep, but reads only bodies that are not
too deep, and reads some numbers as others. So a document that is accepted is found as it is exactly
if its body is kept when it is read from its own text.
-/

namespace TraceJournal

namespace Document

/-- What a document becomes when it is read from its own text. -/
def reread? (d : Document) : Option Document :=
  (d.body.reread 126).map fun body => { d with body }

theorem reread?_eq_some_iff {d : Document} (sorted : d.body.Sorted) :
    d.reread? = some d ↔ d.body.depth ≤ 126 ∧ ∀ x ∈ d.body.decimals, Json.KeepsDecimal x := by
  rw [← Json.reread_eq_some_iff d.body 126 sorted, reread?]
  constructor
  · intro same
    obtain ⟨body, becomes, same⟩ := Option.map_eq_some_iff.mp same
    rw [becomes, ← same]
  · intro becomes
    rw [becomes]
    rfl

theorem reread?_of_deep {d : Document} (deep : 126 < d.body.depth) : d.reread? = none := by
  rw [reread?, Json.reread_of_deep d.body 126 deep]
  rfl

/-- A document is read back from its own payload exactly if its body is not too deep and all its
numbers are kept. -/
theorem readsBack_iff {d : Document} (sorted : d.body.Sorted) :
    d.ReadsBack ↔ d.body.depth ≤ 126 ∧ ∀ x ∈ d.body.decimals, Json.KeepsDecimal x := by
  rw [← reread?_eq_some_iff sorted, reread?, ← read_render, Json.toOption_eq_some_iff]
  exact Iff.rfl

end Document

namespace Frame

theorem payload_ne_nil (d : Document) : payload d ≠ [] := by
  rw [payload, Document.toBytes_render]
  exact List.cons_ne_nil _ _

/-- Where the frame of a document stands, reading finds what the document becomes, if anything. -/
theorem read_encode_append {d : Document} (fits : d.Fits) (rest : List UInt8) :
    read (encode d ++ rest) 0 =
      d.reread?.elim (corrupt (encode d).length) fun d' => complete d' (encode d).length := by
  have frame := read_around (payload_ne_nil d) fits rest
  rw [encode, frame, Document.reread?, ← Document.read_render, ← payload]
  cases Document.read (payload d) <;> rfl

/-- The frame of a document holds what the document becomes, whatever follows. -/
theorem documents_encode_append {d : Document} (fits : d.Fits) (rest : List UInt8) :
    documents (encode d ++ rest) = d.reread?.toList ++ documents rest := by
  have frame := read_encode_append fits rest
  have behind : (encode d ++ rest).drop (encode d).length = rest := List.drop_left
  cases becomes : d.reread? with
  | some d' =>
    rw [becomes] at frame
    rw [documents_of_complete frame, behind]
    rfl
  | none =>
    rw [becomes] at frame
    rw [documents_of_corrupt frame, behind]
    rfl

/-- A file with a single frame holds what its document becomes. -/
theorem documents_encode {d : Document} (fits : d.Fits) :
    documents (encode d) = d.reread?.toList := by
  have alone := documents_encode_append fits []
  rwa [List.append_nil, show documents [] = [] from rfl, List.append_nil] at alone

/-- A file of frames holds what their documents become. -/
theorem documents_encodeAll_of_fits {docs : List Document} (fits : ∀ d ∈ docs, d.Fits) :
    documents (encodeAll docs) = docs.filterMap Document.reread? := by
  induction docs with
  | nil => rfl
  | cons d rest ih =>
    rw [encodeAll_cons, documents_encode_append (fits d List.mem_cons_self),
      ih fun e he => fits e (List.mem_cons_of_mem d he), List.filterMap_cons]
    cases d.reread? <;> rfl

end Frame

/-- A document that is inserted into an empty file, with room for its frame, is found as what it
becomes when it is read from its own text. It is found as it is exactly if its body is not too deep
and all the numbers in it are kept, and not at all if it is too deep. -/
theorem Segment.finds_accepted {path : Path} {maxSize : Nat} {s : Segment} {disk disk' : Disk}
    {d : Document} (opened : openAt path maxSize disk = (.ok s, disk'))
    (empty : s.bytes disk' = []) (accepted : (s.insert d disk').1 = .ok ())
    (room : (Frame.encode d).length ≤ maxSize) :
    let h := History.next ⟨s, disk', []⟩ (.insert d)
    h.Finds d.reread?.toList ∧
    (d.body.Sorted →
      (h.Finds [d] ↔ d.body.depth ≤ 126 ∧ ∀ x ∈ d.body.decimals, Json.KeepsDecimal x)) ∧
    (126 < d.body.depth → h.Finds []) := by
  have fits : d.Fits := by
    by_cases fits : d.Fits
    · exact fits
    · rw [insert_of_not_fits s disk' fits] at accepted
      cases accepted
  have start := History.Behind.of_openAt opened
  rw [empty] at start
  obtain ⟨inserted, -⟩ := start.insert fits (by
    rw [(inPlace_of_openAt opened).2.2.1, List.nil_append, Frame.total_cons, Frame.total_nil]
    simpa using room)
  have finds := inserted.finds
  rw [List.nil_append, List.nil_append, Frame.encodeAll_cons, Frame.encodeAll_nil, List.append_nil,
    Frame.documents_encode fits] at finds
  refine ⟨finds, ?_, ?_⟩
  · intro sorted
    rw [finds.iff, Option.toList_eq_singleton_iff]
    exact Document.reread?_eq_some_iff sorted
  · intro deep
    rw [Document.reread?_of_deep deep] at finds
    exact finds

namespace Json

/-- Nothing, inside a number of arrays. -/
def nested : Nat → Json
  | 0 => null
  | n + 1 => array [nested n]

theorem depth_nested (n : Nat) : (nested n).depth = n := by
  induction n with
  | zero => rfl
  | succ n ih => rw [nested, depth, itemsDepth, itemsDepth, ih, Nat.max_zero]

theorem sorted_nested (n : Nat) : (nested n).Sorted := by
  induction n with
  | zero => trivial
  | succ n ih => exact ⟨ih, trivial⟩

end Json

/-- One array more than can be read makes a document that is accepted and never found. -/
theorem Segment.finds_accepted_nested :
    let d : Document :=
      ⟨⟨0, 0, by decide, by decide, by decide, by decide⟩, 1, Json.nested 127⟩
    ∃ s disk', openAt ⟨"traces"⟩ 1000 (.ofFile []) = (.ok s, disk') ∧
      (s.insert d disk').1 = .ok () ∧
      let h := History.next ⟨s, disk', []⟩ (.insert d)
      h.Finds [] ∧ ¬h.Finds [d] := by
  intro d
  obtain ⟨s, disk', opened, bytes⟩ := openAt_of_file (Disk.file_ofFile []) 1000
  have empty : s.bytes disk' = [] := bytes
  have short : (Frame.payload d).length ≤ 900 := by decide +kernel
  have fits : d.Fits := short.trans (by decide)
  have room : (Frame.encode d).length ≤ 1000 := by
    rw [Frame.length_encode, Frame.headerSize]
    omega
  obtain ⟨-, -, bound, size⟩ := inPlace_of_openAt opened
  have accepted : (s.insert d disk').1 = .ok () := by
    rw [insert_of_room disk' fits]
    simp only [append, size, empty, bound, List.length_nil, Nat.zero_add]
    exact room
  have deep : d.body.depth = 127 := Json.depth_nested 127
  obtain ⟨-, kept, lost⟩ :=
    finds_accepted opened empty accepted room
  refine ⟨s, disk', opened, accepted, lost (by omega), ?_⟩
  intro same
  have shallow := ((kept (Json.sorted_nested 127)).mp same).1
  omega

end TraceJournal
