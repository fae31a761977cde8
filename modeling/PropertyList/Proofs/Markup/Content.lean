import PropertyList.Markup.Parse
import PropertyList.Proofs.Markup.Reference
import PropertyList.Proofs.Markup.Segment

/-! Content read piece by piece. `Reads` says that a text leads a reader from some characters read
and some open elements to others; such steps follow one another, so that the content of an element
is read as its parts are. -/
namespace PropertyList.Markup

/-- What the content of a source makes up, if its prolog gives a policy. -/
def Source.content? (source : Source) (policy : AttributePolicy) : Option Document :=
  (if source.isCut then none else (Lexer.run source.latin .start source.body).content).bind
    fun content => (Cut.pieces? source.latin content).bind (Document.ofPieces? source.latin policy)

theorem Source.document_eq (source : Source) :
    source.document =
      match AttributePolicy.ofProlog ⟨source.latin, source.standalone⟩
        (Lexer.run source.latin .start source.body).tokens with
      | .error refusal => .error refusal
      | .ok policy =>
        match source.content? policy with
        | some document => .ok document
        | none => .error .malformed := by
  unfold Source.document Source.content?
  dsimp only
  rcases AttributePolicy.ofProlog ⟨source.latin, source.standalone⟩
    (Lexer.run source.latin .start source.body).tokens with refusal | policy
  · rfl
  · cases source.isCut <;> rfl

variable {latin : Bool} {policy : AttributePolicy}

/-- Behind the characters `read`, the last of which comes first, a text is cut into pieces and
characters `after` that lead the open elements from `before` to `reached`. -/
def Reads (latin : Bool) (policy : AttributePolicy) (s : Text) (read : Text) (before : Assembly)
    (after : Text) (reached : Assembly) : Prop :=
  ∃ found : List Piece,
    (∀ pieces, s.foldl (Cut.step latin) ⟨.characters read, pieces⟩ =
      ⟨.characters after, found ++ pieces⟩) ∧
    found.reverse.foldlM (Assembly.addPiece latin policy) before = some reached

namespace Reads

theorem trans {s t read between after : Text} {before middle reached : Assembly}
    (h : Reads latin policy s read before between middle)
    (h' : Reads latin policy t between middle after reached) :
    Reads latin policy (s ++ t) read before after reached := by
  obtain ⟨found, hcut, hadd⟩ := h
  obtain ⟨more, hcut', hadd'⟩ := h'
  refine ⟨more ++ found, ?_, ?_⟩
  · intro pieces
    rw [List.foldl_append, hcut, hcut', List.append_assoc]
  · rw [List.reverse_append, List.foldlM_append, hadd]
    exact hadd'

/-- Characters in front of a tag are only collected. -/
theorem characters {s : Text} (h : ch '<' ∉ s) (read : Text) (before : Assembly) :
    Reads latin policy s read before (s.reverse ++ read) before := by
  exact ⟨[], Cut.foldl_characters h read, rfl⟩

/-- A tag without quotation marks is a piece behind the characters in front of it. -/
theorem tag {raw : Text} (hne : raw ≠ []) (hhead : raw.head? ≠ some (ch '!') ∧
      raw.head? ≠ some (ch '?')) (hplain : ∀ c ∈ raw, c ≠ ch '>' ∧ c ≠ ch '"' ∧ c ≠ ch '\'')
    {read : Text} {before middle reached : Assembly}
    (htext : Assembly.addPiece latin policy before (.characters read.reverse) = some middle)
    (htag : Assembly.addPiece latin policy middle (.tag raw) = some reached) :
    Reads latin policy (ch '<' :: raw ++ [ch '>']) read before [] reached := by
  have hinside : ∀ s : Text, (∀ c ∈ s, c ≠ ch '>' ∧ c ≠ ch '"' ∧ c ≠ ch '\'') →
      s.foldlM Cut.quoteBehind? none = some none := by
    intro s
    induction s with
    | nil => intros; rfl
    | cons c s ih =>
      intro h
      have hc := h c (List.mem_cons_self ..)
      have hstep : Cut.quoteBehind? none c = some none := by
        simp [Cut.quoteBehind?, Cut.quoteAfter, hc.1, hc.2.1, hc.2.2]
      rw [List.foldlM_cons, hstep]
      exact ih fun d hd => h d (List.mem_cons_of_mem _ hd)
  have hsound : (Segment.tag raw).Sound := by
    cases raw with
    | nil => exact hne rfl
    | cons c s =>
      have hbang : c ≠ ch '!' := fun heq => hhead.1 (by rw [heq]; rfl)
      have hmark : c ≠ ch '?' := fun heq => hhead.2 (by rw [heq]; rfl)
      exact ⟨hbang, hmark, (hplain c (List.mem_cons_self ..)).1,
        hinside s fun d hd => hplain d (List.mem_cons_of_mem _ hd)⟩
  refine ⟨[.tag raw, .characters read.reverse], Cut.foldl_written_tag hsound read, ?_⟩
  simp only [List.reverse_cons, List.reverse_nil, List.nil_append, List.singleton_append,
    List.foldlM_cons, htext, Option.bind_eq_bind, Option.bind_some, htag, List.foldlM_nil]
  rfl

/-- A document is read where its end tag has been, and blanks may follow it. -/
theorem document {s after : Text} {document : Document}
    (h : Reads latin policy s [] .start after ⟨[], some document⟩)
    (hafter : after.all isSpace = true) :
    (Cut.pieces? latin s).bind (Document.ofPieces? latin policy) = some document := by
  obtain ⟨found, hcut, hadd⟩ := h
  have hpieces : Cut.pieces? latin s = some (.characters after.reverse :: found).reverse := by
    have hstart := hcut []
    rw [List.append_nil] at hstart
    rw [Cut.pieces?, Cut.start, hstart, Cut.finish]
  have hlast : Assembly.addPiece latin policy ⟨[], some document⟩ (.characters after.reverse) =
      some ⟨[], some document⟩ := by
    rw [Assembly.addPiece, List.all_reverse, hafter]
    rfl
  rw [hpieces, Option.bind_some, Document.ofPieces?, List.reverse_cons, List.foldlM_append, hadd]
  simp [hlast, Assembly.finish]

end Reads

/-- The element with more items at the end of its content, the last one in front. -/
def OpenElement.extend (element : OpenElement) (items : List Item) : OpenElement :=
  { element with content := items ++ element.content }

/-- Open elements around some content, and no document yet. -/
def Assembly.inside (element : OpenElement) (outer : List OpenElement) : Assembly :=
  ⟨element :: outer, none⟩

theorem OpenElement.extend_extend (element : OpenElement) (items more : List Item) :
    (element.extend items).extend more = element.extend (more ++ items) := by
  simp [extend]

/-- Indentation becomes a text in the innermost element. -/
theorem Assembly.addPiece_of_isIndent {s : Text} (h : s.IsIndent) (element : OpenElement)
    (outer : List OpenElement) :
    Assembly.addPiece latin policy (.inside element outer) (.characters s) =
      some (.inside (element.extend [.text s]) outer) := by
  rw [Assembly.addPiece, Assembly.inside]
  simp only [List.isEmpty_cons, Bool.false_eq_true, if_false, characterData_of_isIndent latin h]
  rfl

end PropertyList.Markup
