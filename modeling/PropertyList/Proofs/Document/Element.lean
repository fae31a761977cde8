import PropertyList.Document.Writer
import PropertyList.Proofs.Markup.Reference

/-! Elements as texts. References put in one after another are the references of the single
characters; `markup` writes an element out by recursion, with what follows it, and `writeElements`
writes the same text. What is put behind all that a draft holds is written at its end, whichever
element it went to. -/
namespace PropertyList

namespace Text

theorem escaped_append (s t : Text) : escaped (s ++ t) = s.escaped ++ t.escaped :=
  List.flatMap_append

theorem replaced_append (s t : Text) (c : CodePoint) (reference : Text) :
    (s ++ t).replaced c reference = s.replaced c reference ++ t.replaced c reference :=
  List.flatMap_append

/-- A character that is not looked for stays. -/
theorem replaced_singleton_of_ne {c d : CodePoint} (h : d ≠ c) (reference : Text) :
    replaced [d] c reference = [d] := by
  simp [replaced, h]

theorem escapedWith_append (references : List (CodePoint × Text)) (s t : Text) :
    escapedWith references (s ++ t) = escapedWith references s ++ escapedWith references t := by
  rw [escapedWith, escapedWith, escapedWith]
  induction markupReferences ++ references generalizing s t with
  | nil => rfl
  | cons entry entries ih => simp only [List.foldl_cons, replaced_append, ih]

theorem escapedWith_singleton_of_not_mem {references : List (CodePoint × Text)} {c : CodePoint}
    (h : c ∉ (markupReferences ++ references).map Prod.fst) :
    escapedWith references [c] = [c] := by
  rw [escapedWith]
  generalize markupReferences ++ references = entries at h
  induction entries with
  | nil => rfl
  | cons entry entries ih =>
    rw [List.map_cons, List.mem_cons, not_or] at h
    rw [List.foldl_cons, replaced_singleton_of_ne h.1, ih h.2]

theorem escapedWith_singleton (c : CodePoint) :
    escapedWith textReferences [c] = escapeChar c := by
  by_cases h : c ∈ referredTo
  · have hall : ∀ d ∈ referredTo, escapedWith textReferences [d] = escapeChar d := by decide
    exact hall c h
  · rw [escapeChar_of_not_mem h, escapedWith_singleton_of_not_mem h]

/-- No reference is looked for in one that was put in before, as the ampersand comes first. -/
theorem escapedWith_textReferences (s : Text) : s.escapedWith textReferences = s.escaped := by
  induction s with
  | nil => rfl
  | cons c s ih =>
    rw [← List.singleton_append, escapedWith_append, escapedWith_singleton, ih,
      List.singleton_append, escaped_cons]

end Text

namespace Element

mutual

/-- The text of an element and of what follows it in its parent. -/
def markup : Element → Text
  | ⟨tag, attributes, head, children, tail⟩ =>
    (if isEmpty ⟨tag, attributes, head, children, tail⟩ then
        emptyTag (opening ⟨tag, attributes, head, children, tail⟩)
      else
        openTag (opening ⟨tag, attributes, head, children, tail⟩) ++ (head.getD []).escaped ++
          markupAll children ++ closeTag tag) ++
      tail.escaped

def markupAll : List Element → Text
  | [] => []
  | element :: rest => element.markup ++ markupAll rest

end

theorem markup_of_isEmpty {element : Element} (h : element.isEmpty = true) :
    element.markup = emptyTag element.opening ++ element.tail.escaped := by
  cases element
  rw [markup, if_pos h]

theorem markup_of_not_isEmpty {element : Element} (h : ¬element.isEmpty = true) :
    element.markup = openTag element.opening ++ (element.head.getD []).escaped ++
      markupAll element.children ++ closeTag element.tag ++ element.tail.escaped := by
  cases element
  rw [markup, if_neg h]

theorem markupAll_append (a b : List Element) : markupAll (a ++ b) = markupAll a ++ markupAll b := by
  induction a with
  | nil => rfl
  | cons element a ih =>
    rw [List.cons_append, markupAll, markupAll, ih, List.append_assoc]

end Element

namespace Draft

/-- The text of a draft between its tags. -/
def inside (draft : Draft) : Text :=
  draft.head.escaped ++ Element.markupAll draft.children.reverse

/-- The tags of a draft around a text. -/
def wrap (draft : Draft) (s : Text) : Text :=
  openTag draft.element.opening ++ s ++ closeTag draft.tag

theorem markup_element (draft : Draft) : draft.element.markup = draft.wrap draft.inside := by
  rw [Element.markup_of_not_isEmpty (by simp [element, Element.isEmpty]), wrap, inside]
  simp [element, Text.escaped]

theorem inside_ofTag (tag : Text) (attributes : List (Text × Text)) :
    (ofTag tag attributes).inside = text "\n" :=
  rfl

theorem inside_add (draft : Draft) (element : Element) :
    (draft.add element).inside = draft.inside ++ element.markup := by
  simp [inside, add, Element.markupAll_append, Element.markupAll]

theorem inside_addText (draft : Draft) (s : Text) :
    (draft.addText s).inside = draft.inside ++ s.escaped := by
  unfold addText
  split
  · rename_i hchildren
    simp [inside, hchildren, Element.markupAll, Text.escaped_append]
  · rename_i last before hchildren
    have hlast : Element.markup { last with tail := last.tail ++ s } = last.markup ++ s.escaped := by
      cases last
      simp only [Element.markup, Text.escaped_append, List.append_assoc]
      rfl
    simp [inside, hchildren, Element.markupAll_append, Element.markupAll, hlast]

theorem inside_addLine (draft : Draft) (depth : Nat) (element : Element) :
    (draft.addLine depth element).inside =
      draft.inside ++ (tabs depth ++ element.markup ++ text "\n") := by
  have hbreak : (text "\n").escaped = text "\n" := by decide
  rw [addLine, inside_addText, inside_add, inside_addText, (Text.isIndent_tabs depth).escaped,
    hbreak]
  simp only [List.append_assoc]

theorem wrap_addText (draft : Draft) (s : Text) : (draft.addText s).wrap = draft.wrap := by
  unfold addText
  split <;> rfl

theorem wrap_addLine (draft : Draft) (depth : Nat) (element : Element) :
    (draft.addLine depth element).wrap = draft.wrap := by
  rw [addLine, wrap_addText]
  exact wrap_addText draft (tabs depth)

end Draft

namespace Pieces

theorem toText_cons (piece : Text) (written : Pieces) :
    toText (piece :: written) = written.toText ++ piece := by
  simp [toText]

end Pieces

namespace Unwritten

/-- The text that an entry stands for. -/
def text : Unwritten → Text
  | .element e => e.markup
  | .ending e => closeTag e.tag ++ e.tail.escaped

theorem flatMap_text_elements (list : List Element) :
    (elements list).flatMap text = Element.markupAll list := by
  induction list with
  | nil => rfl
  | cons element list ih =>
    rw [elements, List.map_cons, List.flatMap_cons, ← elements, ih, Element.markupAll, text]

end Unwritten

/-- The pieces written and the stack make up the same text all the way. -/
theorem toText_writeElements (stack : List Unwritten) (written : Pieces) :
    (writeElements stack written).toText = written.toText ++ stack.flatMap Unwritten.text := by
  induction stack, written using writeElements.induct with
  | case1 written => rw [writeElements, List.flatMap_nil, List.append_nil]
  | case2 written element stack ih =>
    rw [writeElements, ih, Pieces.toText_cons, Pieces.toText_cons, Text.escapedWith_textReferences,
      List.flatMap_cons, Unwritten.text]
    simp only [List.append_assoc]
  | case3 written element stack hempty ih =>
    rw [writeElements, if_pos hempty, ih, Pieces.toText_cons, Pieces.toText_cons,
      Text.escapedWith_textReferences, List.flatMap_cons, Unwritten.text,
      Element.markup_of_isEmpty hempty]
    simp only [List.append_assoc]
  | case4 written element stack hempty ih =>
    rw [writeElements, if_neg hempty, ih, Pieces.toText_cons, Pieces.toText_cons,
      Text.escapedWith_textReferences, List.flatMap_append, List.flatMap_cons, List.flatMap_cons,
      Unwritten.flatMap_text_elements, Unwritten.text, Unwritten.text,
      Element.markup_of_not_isEmpty hempty]
    simp only [List.append_assoc]

end PropertyList
