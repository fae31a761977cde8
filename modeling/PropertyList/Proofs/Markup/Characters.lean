import PropertyList.Proofs.Markup.Content

/-! Characters of documents. Whatever the bytes of a document are, the texts in it hold only
characters that may stand in a document: characters that are written pass a check on their way, and
so do those that are referred to. -/
namespace PropertyList.Markup

mutual

/-- Whether all text inside an item may stand in a document. -/
def Item.isXml : Item → Bool
  | .text s => s.isXml
  | .element _ _ content => areXml content

def areXml : List Item → Bool
  | [] => true
  | item :: rest => item.isXml && areXml rest

end

theorem areXml_eq_all (items : List Item) : areXml items = items.all Item.isXml := by
  induction items with
  | nil => rfl
  | cons item items ih => rw [areXml, List.all_cons, ih]

theorem areXml_reverse {items : List Item} (h : areXml items = true) :
    areXml items.reverse = true := by
  rw [areXml_eq_all] at h ⊢
  rwa [List.all_reverse]

mutual

theorem Item.isXml_innerText : (item : Item) → item.isXml = true → item.innerText.isXml = true
  | .text _, h => h
  | .element _ _ content, h => isXml_innerTextOf content h

theorem isXml_innerTextOf :
    (items : List Item) → areXml items = true → (innerTextOf items).isXml = true
  | [], _ => rfl
  | item :: rest, h => by
    rw [areXml, Bool.and_eq_true] at h
    rw [innerTextOf, Text.isXml_append, Item.isXml_innerText item h.1, isXml_innerTextOf rest h.2,
      Bool.and_self]

end

section References

variable {latin : Bool}

theorem Reference.isXmlChar_of_ofNumeral? {base : Nat} {isNumeral : CodePoint → Bool} {s : Text}
    {c : CodePoint} (h : ofNumeral? base isNumeral s = some (.character c)) :
    isXmlChar c = true := by
  unfold ofNumeral? at h
  simp only [Bool.and_eq_true] at h
  split at h
  · rename_i hchecked
    cases h
    exact hchecked.2
  · cases h

/-- A reference stands for a character that a document may hold. -/
theorem Reference.isXmlChar_of_read? {body : Text} {c : CodePoint}
    (h : read? latin body = some (.character c)) : isXmlChar c = true := by
  unfold read? at h
  split at h
  · exact isXmlChar_of_ofNumeral? h
  · exact isXmlChar_of_ofNumeral? h
  · split at h
    · rename_i found
      cases h
      obtain ⟨front, back, hpredefined, -⟩ := List.lookup_eq_some_iff.mp found
      have hall : ∀ entry ∈ predefined, isXmlChar entry.2 = true := by decide
      exact hall (body, c) (by rw [hpredefined]; simp)
    · split at h
      · cases h
      · cases h

theorem isXml_cons {c : CodePoint} {s : Text} (hc : isXmlChar c = true) (hs : s.isXml = true) :
    Text.isXml (c :: s) = true := by
  rw [Text.isXml, List.all_cons, hc, ← Text.isXml, hs]
  rfl

theorem isXml_reverse {s : Text} (h : s.isXml = true) : Text.isXml s.reverse = true := by
  rwa [Text.isXml, List.all_reverse]

theorem TextRule.isXml_readOnto {rule : TextRule}
    (hrule : ∀ c d, rule.literal c = some d → isXmlChar d = true) {pending : Option Text}
    {read s t : Text} (h : readOnto latin rule pending read s = some t)
    (hread : read.isXml = true) : t.isXml = true := by
  fun_induction readOnto latin rule pending read s with
  | case1 read =>
    cases h
    exact isXml_reverse hread
  | case2 => cases h
  | case3 read rest ih => exact ih h hread
  | case4 read c rest _ _ ih => exact ih h hread
  | case5 read c rest _ _ d hliteral ih => exact ih h (isXml_cons (hrule c d hliteral) hread)
  | case6 => cases h
  | case7 pending read c rest _ ih => exact ih h hread
  | case8 pending read c rest _ d href ih =>
    exact ih h (isXml_cons (Reference.isXmlChar_of_read? href) hread)
  | case9 pending read c rest _ name _ _ ih => exact ih h hread
  | case10 => cases h
  | case11 => cases h

theorem isXml_characterData {s t : Text} (h : characterData latin s = some t) :
    t.isXml = true := by
  unfold characterData at h
  split at h
  · cases h
  · apply TextRule.isXml_readOnto _ h rfl
    intro c d hliteral
    simp only [characterRule] at hliteral
    split at hliteral
    · cases hliteral
    · rename_i hc
      split at hliteral
      · cases hliteral
        decide
      · cases hliteral
        simpa using hc

end References

/-- What a section reads has passed the check on characters. -/
theorem Section.isXml_step (latin : Bool) (kind : Section) {read : Text} (c : CodePoint)
    (hread : read.isXml = true) :
    (∀ more, kind.step latin read c = .goesOn more → more.isXml = true) ∧
      ∀ content, kind.step latin read c = .closes content → content.isXml = true := by
  by_cases hc : isXmlChar c = true
  · have hmore := isXml_cons hc hread
    have htail (a b : CodePoint) (rest : Text) (heq : read = a :: b :: rest) :
        Text.isXml rest.reverse = true := by
      rw [heq, Text.isXml, List.all_cons, List.all_cons] at hread
      simp only [Bool.and_eq_true] at hread
      exact isXml_reverse hread.2.2
    have htail' (a : CodePoint) (rest : Text) (heq : read = a :: rest) :
        Text.isXml rest.reverse = true := by
      rw [heq, Text.isXml, List.all_cons] at hread
      simp only [Bool.and_eq_true] at hread
      exact isXml_reverse hread.2
    constructor
    · intro more h
      unfold step at h
      grind
    · intro content h
      unfold step at h
      grind
  · constructor <;> intro _ h <;> simp [step, hc] at h

/-- A literal section that a cut holds may stand in a document. -/
def Piece.isXml : Piece → Bool
  | .cdata raw => raw.isXml
  | _ => true

/-- All literal sections of a cut, the one in hand included, may stand in a document. -/
def Cut.IsXml (cut : Cut) : Prop :=
  cut.pieces.all Piece.isXml = true ∧
    ∀ kind read, cut.state = .section kind read → read.isXml = true

theorem Cut.IsXml.step {latin : Bool} {cut : Cut} (h : cut.IsXml) (c : CodePoint) :
    (cut.step latin c).IsXml := by
  obtain ⟨state, pieces⟩ := cut
  obtain ⟨hpieces, hsection⟩ := h
  have hnew (kind : Section) :
      Cut.IsXml ⟨.section kind [], pieces⟩ := ⟨hpieces, by rintro _ _ ⟨⟩; rfl⟩
  have hplain (state : CutState) (hstate : ∀ kind read, state ≠ .section kind read)
      (more : List Piece) (hmore : more.all Piece.isXml = true) : Cut.IsXml ⟨state, more⟩ :=
    ⟨hmore, fun kind read heq => absurd heq (hstate kind read)⟩
  cases state with
  | characters read =>
    simp only [Cut.step]
    split
    · exact hplain _ (by simp) _ (by simpa [Piece.isXml] using hpieces)
    · exact hplain _ (by simp) _ hpieces
  | afterOpening =>
    simp only [Cut.step]
    split
    · exact hplain _ (by simp) _ hpieces
    split
    · exact hnew .instruction
    split
    · exact hplain _ (by simp) _ hpieces
    · exact hplain _ (by simp) _ hpieces
  | afterBang read =>
    simp only [Cut.step]
    split
    · exact hnew _
    split
    · exact hplain _ (by simp) _ hpieces
    · exact hplain _ (by simp) _ hpieces
  | «section» kind read =>
    have hread : read.isXml = true := hsection kind read rfl
    obtain ⟨hgoes, hcloses⟩ := Section.isXml_step latin kind c hread
    simp only [Cut.step]
    split
    · rename_i more heq
      exact ⟨hpieces, by rintro _ _ ⟨⟩; exact hgoes more heq⟩
    · rename_i content heq
      apply hplain _ (by simp)
      split
      · simpa [Piece.isXml, hcloses content heq] using hpieces
      · exact hpieces
    · exact hplain _ (by simp) _ hpieces
  | tag quote read =>
    simp only [Cut.step]
    split
    · exact hplain _ (by simp) _ (by simpa [Piece.isXml] using hpieces)
    · exact hplain _ (by simp) _ hpieces
  | failed => exact ⟨hpieces, hsection⟩

theorem Cut.IsXml.foldl {latin : Bool} {cut : Cut} (h : cut.IsXml) (s : Text) :
    (s.foldl (Cut.step latin) cut).IsXml := by
  induction s generalizing cut with
  | nil => exact h
  | cons c s ih => exact ih (h.step c)

theorem Cut.isXml_of_pieces? {latin : Bool} {s : Text} {pieces : List Piece}
    (h : Cut.pieces? latin s = some pieces) : pieces.all Piece.isXml = true := by
  have hstart : Cut.start.IsXml := ⟨rfl, by rintro _ _ ⟨⟩⟩
  have hend : (s.foldl (Cut.step latin) Cut.start).pieces.all Piece.isXml = true :=
    (hstart.foldl s).1
  unfold Cut.pieces? Cut.finish at h
  split at h
  · cases h
    simpa [Piece.isXml] using hend
  · cases h

namespace Assembly

/-- All text in the open elements, and in the document if there is one, may stand in a document. -/
def IsXml (assembly : Assembly) : Prop :=
  (∀ element ∈ assembly.openElements, areXml element.content = true) ∧
    ∀ document, assembly.document = some document → areXml document.content = true

variable {latin : Bool} {policy : AttributePolicy} {assembly reached : Assembly}

theorem IsXml.addText (h : assembly.IsXml) {s : Text} (hs : s.isXml = true)
    (hadd : assembly.addText s = some reached) : reached.IsXml := by
  obtain ⟨openElements, document⟩ := assembly
  cases openElements with
  | nil => cases hadd
  | cons element outer =>
    cases hadd
    refine ⟨?_, h.2⟩
    intro e he
    rcases List.mem_cons.mp he with rfl | hmem
    · have helement := h.1 element (List.mem_cons_self ..)
      simp [areXml, Item.isXml, hs, helement]
    · exact h.1 e (List.mem_cons_of_mem _ hmem)

theorem IsXml.open? (h : assembly.IsXml) {rawName : Text} {raw : List RawAttribute}
    (hopen : assembly.open? latin policy rawName raw = some reached) : reached.IsXml := by
  unfold Assembly.open? at hopen
  split at hopen
  · cases hopen
  · obtain ⟨opening, -, heq⟩ := Option.map_eq_some_iff.mp hopen
    rw [← heq]
    refine ⟨?_, h.2⟩
    intro e he
    rcases List.mem_cons.mp he with rfl | hmem
    · rfl
    · exact h.1 e hmem

theorem IsXml.close? (h : assembly.IsXml) {rawName : Text}
    (hclose : assembly.close? rawName = some reached) : reached.IsXml := by
  obtain ⟨openElements, document⟩ := assembly
  cases openElements with
  | nil => cases hclose
  | cons element outer =>
    have helement := areXml_reverse (h.1 element (List.mem_cons_self ..))
    unfold Assembly.close? at hclose
    simp only at hclose
    split at hclose
    · cases hclose
    · split at hclose
      · cases hclose
        refine ⟨by simp, ?_⟩
        rintro _ ⟨⟩
        exact helement
      · rename_i parent rest
        cases hclose
        refine ⟨?_, h.2⟩
        intro e he
        rcases List.mem_cons.mp he with rfl | hmem
        · have hparent := h.1 parent (by simp)
          simp [areXml, Item.isXml, helement, hparent]
        · exact h.1 e (by simp [hmem])

theorem isXml_endLines {read s : Text} (hread : read.isXml = true) (hs : s.isXml = true) :
    (endLines read s).isXml = true := by
  fun_induction endLines read s with
  | case1 read => exact isXml_reverse hread
  | case2 read c rest _ ih =>
    rw [Text.isXml, List.all_cons, Bool.and_eq_true] at hs
    exact ih (isXml_cons hs.1 hread) hs.2
  | case3 read c rest _ _ ih =>
    rw [Text.isXml, List.all_cons, Bool.and_eq_true] at hs
    exact ih hread hs.2
  | case4 read c rest _ _ ih =>
    rw [Text.isXml, List.all_cons, Bool.and_eq_true] at hs
    exact ih (isXml_cons (by decide) hread) hs.2

/-- Whatever a piece adds may stand in a document, as all that was there before. -/
theorem IsXml.addPiece (h : assembly.IsXml) {piece : Piece} (hpiece : piece.isXml = true)
    (hadd : assembly.addPiece latin policy piece = some reached) : reached.IsXml := by
  cases piece with
  | characters raw =>
    simp only [Assembly.addPiece] at hadd
    split at hadd
    · split at hadd
      · cases hadd
        exact h
      · cases hadd
    · obtain ⟨s, hs, htext⟩ := Option.bind_eq_some_iff.mp hadd
      exact h.addText (isXml_characterData hs) htext
  | cdata raw => exact h.addText (isXml_endLines rfl hpiece) hadd
  | tag raw =>
    simp only [Assembly.addPiece] at hadd
    split at hadd
    · cases hadd
    · exact h.close? hadd
    · split at hadd
      · obtain ⟨opened, hopened, hclosed⟩ := Option.bind_eq_some_iff.mp hadd
        exact (h.open? hopened).close? hclosed
      · exact h.open? hadd

theorem IsXml.foldlM (h : assembly.IsXml) {pieces : List Piece}
    (hpieces : pieces.all Piece.isXml = true)
    (hadd : pieces.foldlM (Assembly.addPiece latin policy) assembly = some reached) : reached.IsXml := by
  induction pieces generalizing assembly with
  | nil =>
    cases hadd
    exact h
  | cons piece pieces ih =>
    rw [List.all_cons, Bool.and_eq_true] at hpieces
    rw [List.foldlM_cons] at hadd
    obtain ⟨next, hnext, hrest⟩ := Option.bind_eq_some_iff.mp hadd
    exact ih (h.addPiece hpieces.1 hnext) hpieces.2 hrest

end Assembly

theorem Document.isXml_of_ofPieces? {latin : Bool} {policy : AttributePolicy} {pieces : List Piece}
    {document : Document} (hpieces : pieces.all Piece.isXml = true)
    (h : Document.ofPieces? latin policy pieces = some document) :
    areXml document.content = true := by
  obtain ⟨assembly, hassembly, hfinish⟩ := Option.bind_eq_some_iff.mp h
  have hstart : Assembly.start.IsXml := ⟨by simp [Assembly.start], by rintro _ ⟨⟩⟩
  have hend := hstart.foldlM hpieces hassembly
  unfold Assembly.finish at hfinish
  split at hfinish
  · exact hend.2 document hfinish
  · cases hfinish

theorem Source.isXml_of_document {source : Source} {document : Document}
    (h : source.document = .ok document) : areXml document.content = true := by
  rw [Source.document_eq] at h
  split at h
  · cases h
  · split at h
    · rename_i found hfound
      cases h
      obtain ⟨content, -, hrest⟩ := Option.bind_eq_some_iff.mp hfound
      obtain ⟨pieces, hpieces, hdocument⟩ := Option.bind_eq_some_iff.mp hrest
      exact Document.isXml_of_ofPieces? (Cut.isXml_of_pieces? hpieces) hdocument
    · cases h

/-- Every text in a document that can be read may stand in a document. -/
theorem Document.isXml_of_ofBytes {bytes : Bytes} {document : Document}
    (h : Document.ofBytes bytes = .ok document) : areXml document.content = true := by
  unfold Document.ofBytes at h
  rcases hsource : Source.ofBytes bytes with refusal | source
  · rw [hsource] at h
    cases h
  · rw [hsource] at h
    exact Source.isXml_of_document h

end PropertyList.Markup
