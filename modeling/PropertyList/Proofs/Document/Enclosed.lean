import PropertyList.Proofs.Document.Failure
import PropertyList.Proofs.Markup.Denotation
import PropertyList.Proofs.Markup.Segmentation

/-! Where the texts of leaves come from. The text of an open element is what the segments behind its
tag hold, so that the text of a leaf is what the segments between two tags hold. -/
namespace PropertyList.Markup

/-- Segments hold a text: that of their character data and literal sections. Comments, instructions
and tags add nothing. -/
inductive Holds : List Segment → Text → Prop
  | nil : Holds [] []
  | characters {raw s : Text} {rest : List Segment} {t : Text} (hraw : Denotes raw s)
      (h : Holds rest t) : Holds (.characters raw :: rest) (s ++ t)
  | cdata {body : Text} {rest : List Segment} {t : Text} (h : Holds rest t) :
      Holds (.section .cdata body :: rest) (Assembly.endLines [] body ++ t)
  | aside {kind : Section} {body : Text} {rest : List Segment} {t : Text} (hkind : kind ≠ .cdata)
      (h : Holds rest t) : Holds (.section kind body :: rest) t
  | tag {raw : Text} {rest : List Segment} {t : Text} (h : Holds rest t) :
      Holds (.tag raw :: rest) t

theorem Holds.append {front back : List Segment} {s t : Text} (h : Holds front s)
    (hback : Holds back t) : Holds (front ++ back) (s ++ t) := by
  induction h with
  | nil => exact hback
  | characters hraw _ ih =>
    rw [List.append_assoc]
    exact .characters hraw ih
  | cdata _ ih =>
    rw [List.append_assoc]
    exact .cdata ih
  | aside hkind _ ih => exact .aside hkind ih
  | tag _ ih => exact .tag ih

/-- A text is empty, or it is what stands between two tags. -/
def IsEnclosed (segments : List Segment) (s : Text) : Prop :=
  s = [] ∨ ∃ before opening inner closing after,
    segments = before ++ .tag opening :: inner ++ .tag closing :: after ∧ Holds inner s

theorem IsEnclosed.append {segments : List Segment} {s : Text} (h : IsEnclosed segments s)
    (more : List Segment) : IsEnclosed (segments ++ more) s := by
  rcases h with rfl | ⟨before, opening, inner, closing, after, rfl, hs⟩
  · exact .inl rfl
  · exact .inr ⟨before, opening, inner, closing, after ++ more, by simp, hs⟩

/-- The text of every leaf in a content is enclosed. -/
def AreEnclosed (segments : List Segment) (items : List Item) : Prop :=
  ∀ leaf ∈ leavesOf items, IsEnclosed segments leaf.2

variable {segments tail : List Segment} {item : Item} {items : List Item}

theorem leavesOf_eq_flatMap (items : List Item) : leavesOf items = items.flatMap Item.leaves := by
  induction items with
  | nil => rfl
  | cons item items ih => rw [leavesOf, List.flatMap_cons, ih]

theorem AreEnclosed.append (h : AreEnclosed segments items) (more : List Segment) :
    AreEnclosed (segments ++ more) items :=
  fun leaf hleaf => (h leaf hleaf).append more

theorem AreEnclosed.cons (hitem : AreEnclosed segments [item]) (h : AreEnclosed segments items) :
    AreEnclosed segments (item :: items) := by
  intro leaf hleaf
  rcases List.mem_append.mp hleaf with hfirst | hmore
  · exact hitem leaf (List.mem_append_left _ hfirst)
  · exact h leaf hmore

theorem AreEnclosed.reverse (h : AreEnclosed segments items) : AreEnclosed segments items.reverse := by
  intro leaf hleaf
  rw [leavesOf_eq_flatMap, List.mem_flatMap] at hleaf
  obtain ⟨item, hitem, hleaf⟩ := hleaf
  apply h leaf
  rw [leavesOf_eq_flatMap]
  exact List.mem_flatMap.mpr ⟨item, List.mem_reverse.mp hitem, hleaf⟩

theorem areEnclosed_nil (segments : List Segment) : AreEnclosed segments [] := by
  intro leaf hleaf
  cases hleaf

theorem areEnclosed_text (segments : List Segment) (s : Text) : AreEnclosed segments [.text s] := by
  intro leaf hleaf
  cases hleaf

theorem areEnclosed_element {name : Text} {attributes : List Attribute} {content : List Item}
    (htext : IsEnclosed segments (innerTextOf content)) (h : AreEnclosed segments content) :
    AreEnclosed segments [.element name attributes content] := by
  intro leaf hleaf
  rw [leavesOf, leavesOf, List.append_nil, Item.leaves] at hleaf
  split at hleaf
  · exact h leaf hleaf
  · rw [List.mem_singleton.mp hleaf]
    exact htext

theorem innerTextOf_append (items more : List Item) :
    innerTextOf (items ++ more) = innerTextOf items ++ innerTextOf more := by
  induction items with
  | nil => rfl
  | cons item items ih => rw [List.cons_append, innerTextOf, innerTextOf, ih, List.append_assoc]

/-- What an item adds to the text of the element that it is put into. -/
theorem innerTextOf_reverse_cons (item : Item) (content : List Item) :
    innerTextOf (item :: content).reverse = innerTextOf content.reverse ++ item.innerText := by
  rw [List.reverse_cons, innerTextOf_append, innerTextOf, innerTextOf, List.append_nil]

namespace Assembly

/-- The segments behind the tag of every open element hold its text so far. -/
def AreOpen : List OpenElement → List Segment → Prop
  | [], _ => True
  | element :: outer, segments => ∃ before raw inner, segments = before ++ .tag raw :: inner ∧
      Holds inner (innerTextOf element.content.reverse) ∧ AreOpen outer before

variable {element : OpenElement} {outer : List OpenElement} {assembly reached : Assembly}
  {document : Option Document}

/-- Further segments hold the text of a further item. -/
theorem AreOpen.cons (h : AreOpen (element :: outer) segments) (htail : Holds tail item.innerText) :
    AreOpen ({ element with content := item :: element.content } :: outer) (segments ++ tail) := by
  obtain ⟨before, raw, inner, rfl, hinner, houter⟩ := h
  refine ⟨before, raw, inner ++ tail, by simp, ?_, houter⟩
  rw [innerTextOf_reverse_cons]
  exact hinner.append htail

/-- Further segments hold no text. -/
theorem AreOpen.append (h : AreOpen outer segments) (htail : Holds tail []) :
    AreOpen outer (segments ++ tail) := by
  cases outer with
  | nil => trivial
  | cons element outer =>
    obtain ⟨before, raw, inner, rfl, hinner, houter⟩ := h
    refine ⟨before, raw, inner ++ tail, by simp, ?_, houter⟩
    rw [← List.append_nil (innerTextOf _)]
    exact hinner.append htail

/-- What the pieces of some segments have been put together to. -/
structure Follows (assembly : Assembly) (segments : List Segment) : Prop where
  areOpen : AreOpen assembly.openElements segments
  inside : ∀ element ∈ assembly.openElements, AreEnclosed segments element.content
  document : ∀ document, assembly.document = some document → AreEnclosed segments document.content

theorem follows_start : start.Follows [] where
  areOpen := trivial
  inside element helement := by cases helement
  document document hdocument := by cases hdocument

/-- The elements stay as they are. -/
theorem Follows.append (h : assembly.Follows segments)
    (hopen : AreOpen assembly.openElements (segments ++ tail)) :
    assembly.Follows (segments ++ tail) where
  areOpen := hopen
  inside element helement := (h.inside element helement).append tail
  document document hdocument := (h.document document hdocument).append tail

theorem Follows.addText (h : assembly.Follows segments) {s : Text} (htail : Holds tail s)
    (hadd : assembly.addText s = some reached) : reached.Follows (segments ++ tail) := by
  obtain ⟨openElements, document⟩ := assembly
  cases openElements with
  | nil => cases hadd
  | cons element outer =>
    cases hadd
    have hinside := h.inside
    rw [List.forall_mem_cons] at hinside
    refine ⟨h.areOpen.cons htail, ?_, fun found hfound => (h.document found hfound).append tail⟩
    rw [List.forall_mem_cons]
    exact ⟨(areEnclosed_text _ s).cons (hinside.1.append tail),
      fun element helement => (hinside.2 element helement).append tail⟩

theorem Follows.open? {latin : Bool} {policy : AttributePolicy} (h : assembly.Follows segments)
    {rawName raw : Text} {attributes : List RawAttribute}
    (hopen : assembly.open? latin policy rawName attributes = some reached) :
    reached.Follows (segments ++ [.tag raw]) := by
  unfold Assembly.open? at hopen
  split at hopen
  · cases hopen
  · obtain ⟨opening, -, rfl⟩ := Option.map_eq_some_iff.mp hopen
    refine ⟨⟨segments, raw, [], rfl, .nil, h.areOpen⟩, ?_,
      fun found hfound => (h.document found hfound).append _⟩
    rw [List.forall_mem_cons]
    exact ⟨areEnclosed_nil _,
      fun element helement => (h.inside element helement).append _⟩

/-- An element is closed whose text the segments `tail` hold behind those of the outer elements. -/
theorem Follows.of_close? {before : List Segment} {rawName : Text}
    (hclose : close? ⟨element :: outer, document⟩ rawName = some reached)
    (houter : AreOpen outer before) (htail : Holds tail (innerTextOf element.content.reverse))
    (htext : IsEnclosed (before ++ tail) (innerTextOf element.content.reverse))
    (hcontent : AreEnclosed (before ++ tail) element.content)
    (hinside : ∀ element ∈ outer, AreEnclosed (before ++ tail) element.content)
    (hdocument : ∀ found, document = some found → AreEnclosed (before ++ tail) found.content) :
    reached.Follows (before ++ tail) := by
  unfold Assembly.close? at hclose
  dsimp only at hclose
  split at hclose
  · cases hclose
  · split at hclose
    · cases hclose
      refine ⟨trivial, by simp, ?_⟩
      rintro _ ⟨⟩
      exact hcontent.reverse
    · rename_i parent rest
      cases hclose
      rw [List.forall_mem_cons] at hinside
      have hitem : Holds tail (Item.innerText
          (.element element.name element.attributes element.content.reverse)) := by
        rw [Item.innerText]
        exact htail
      refine ⟨houter.cons hitem, ?_, hdocument⟩
      rw [List.forall_mem_cons]
      exact ⟨(areEnclosed_element htext hcontent.reverse).cons hinside.1, hinside.2⟩

theorem Follows.close? (h : assembly.Follows segments) {rawName : Text} (raw : Text)
    (hclose : assembly.close? rawName = some reached) :
    reached.Follows (segments ++ [.tag raw]) := by
  obtain ⟨openElements, document⟩ := assembly
  cases openElements with
  | nil => cases hclose
  | cons element outer =>
    obtain ⟨before, opening, inner, rfl, hinner, houter⟩ := h.areOpen
    have hinside := h.inside
    rw [List.forall_mem_cons] at hinside
    have hsplit : before ++ .tag opening :: inner ++ [.tag raw] =
        before ++ (.tag opening :: inner ++ [.tag raw]) := List.append_assoc ..
    have hkept {items : List Item} (hitems : AreEnclosed (before ++ .tag opening :: inner) items) :
        AreEnclosed (before ++ (.tag opening :: inner ++ [.tag raw])) items := by
      rw [← hsplit]
      exact hitems.append _
    rw [hsplit]
    apply Follows.of_close? hclose houter
    · rw [← List.append_nil (innerTextOf _)]
      exact (Holds.tag hinner).append (.tag .nil)
    · exact .inr ⟨before, opening, inner, raw, [], by simp, hinner⟩
    · exact hkept hinside.1
    · exact fun element helement => hkept (hinside.2 element helement)
    · exact fun found hfound => hkept (h.document found hfound)

/-- An element is opened and closed by the same tag. -/
theorem Follows.empty {latin : Bool} {policy : AttributePolicy} (h : assembly.Follows segments)
    {rawName : Text} (raw : Text) {attributes : List RawAttribute} {opened : Assembly}
    (hopen : assembly.open? latin policy rawName attributes = some opened)
    (hclose : opened.close? rawName = some reached) : reached.Follows (segments ++ [.tag raw]) := by
  unfold Assembly.open? at hopen
  split at hopen
  · cases hopen
  · obtain ⟨opening, -, rfl⟩ := Option.map_eq_some_iff.mp hopen
    have htail : Holds [.tag raw] [] := .tag .nil
    have hkept := h.append (h.areOpen.append htail)
    exact .of_close? hclose h.areOpen htail (.inl rfl) (areEnclosed_nil _) hkept.inside hkept.document

variable {latin : Bool} {policy : AttributePolicy}

/-- What one more segment adds to the elements. -/
theorem Follows.addPiece (h : assembly.Follows segments) {segment : Segment} {piece : Piece}
    (hpiece : segment.piece? = some piece)
    (hadd : assembly.addPiece latin policy piece = some reached) :
    reached.Follows (segments ++ [segment]) := by
  cases segment with
  | characters raw =>
    cases hpiece
    simp only [Assembly.addPiece] at hadd
    split at hadd
    · rename_i hnone
      split at hadd
      · cases hadd
        apply h.append
        rw [List.isEmpty_iff.mp hnone]
        trivial
      · cases hadd
    · obtain ⟨s, hs, htext⟩ := Option.bind_eq_some_iff.mp hadd
      have htail : Holds [.characters raw] (s ++ []) :=
        .characters (denotes_of_characterData hs) .nil
      rw [List.append_nil] at htail
      exact h.addText htail htext
  | «section» kind body =>
    cases kind with
    | cdata =>
      cases hpiece
      have htail : Holds [.section .cdata body] (endLines [] body ++ []) := .cdata .nil
      rw [List.append_nil] at htail
      exact h.addText htail hadd
    | comment => cases hpiece
    | instruction => cases hpiece
  | tag raw =>
    cases hpiece
    simp only [Assembly.addPiece] at hadd
    split at hadd
    · cases hadd
    · exact h.close? raw hadd
    · split at hadd
      · obtain ⟨opened, hopened, hclosed⟩ := Option.bind_eq_some_iff.mp hadd
        exact h.empty raw hopened hclosed
      · exact h.open? hadd

/-- What segments are put together to. -/
theorem Follows.foldlM {before : List Segment} (h : assembly.Follows before)
    (hadd : (segments.filterMap Segment.piece?).foldlM (Assembly.addPiece latin policy) assembly =
      some reached) : reached.Follows (before ++ segments) := by
  induction segments generalizing assembly before with
  | nil =>
    cases hadd
    rwa [List.append_nil]
  | cons segment segments ih =>
    rw [← List.singleton_append, ← List.append_assoc]
    cases hpiece : segment.piece? with
    | none =>
      rw [List.filterMap_cons_none hpiece] at hadd
      have haside : Holds [segment] [] := by
        cases segment with
        | «section» kind body => exact .aside (fun hkind => by cases hkind; cases hpiece) .nil
        | _ => cases hpiece
      exact ih (h.append (h.areOpen.append haside)) hadd
    | some piece =>
      rw [List.filterMap_cons_some hpiece, List.foldlM_cons] at hadd
      obtain ⟨next, hnext, hrest⟩ := Option.bind_eq_some_iff.mp hadd
      exact ih (h.addPiece hpiece hnext) hrest

end Assembly

/-- The text of every leaf of a document is enclosed in the segments of its content. -/
theorem Document.areEnclosed_of_ofPieces? {latin : Bool} {policy : AttributePolicy}
    {document : Document}
    (h : Document.ofPieces? latin policy (segments.filterMap Segment.piece?) = some document) :
    AreEnclosed segments document.content := by
  obtain ⟨assembly, hassembly, hfinish⟩ := Option.bind_eq_some_iff.mp h
  have hfollows := Assembly.follows_start.foldlM hassembly
  unfold Assembly.finish at hfinish
  split at hfinish
  · exact hfollows.document document hfinish
  · cases hfinish

end PropertyList.Markup
