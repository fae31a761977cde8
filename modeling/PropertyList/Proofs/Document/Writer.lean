import PropertyList.Proofs.Document.Element
import PropertyList.Proofs.Leaf.Codec
import PropertyList.Proofs.Markup.Tag

/-! Documents as layouts. A node on the stack of `build` becomes one line of the element in hand,
whatever lies below it on the stack, and that line is written out as the layout of the node. -/
namespace PropertyList

namespace Node

mutual

/-- The element of a node at some depth. A bare node has none: what stands here for it is never
built. -/
def toElement (columns depth : ℕ) : Node → Element
  | .leaf l => .ofLeaf depth columns l
  | .container kind children =>
    ((addLines columns (depth + 1) children (.ofTag kind.tag [])).addText (tabs depth)).element
  | .bare => Draft.element (.ofTag [] [])

/-- A draft with a further line for each node. -/
def addLines (columns depth : ℕ) : List Node → Draft → Draft
  | [], draft => draft
  | node :: rest, draft =>
    addLines columns depth rest (draft.addLine depth (node.toElement columns depth))

end

theorem wrap_addLines (columns depth : ℕ) (nodes : List Node) (draft : Draft) :
    (addLines columns depth nodes draft).wrap = draft.wrap := by
  induction nodes generalizing draft with
  | nil => rw [addLines]
  | cons node nodes ih => rw [addLines, ih, Draft.wrap_addLine]

end Node

theorem Element.markup_ofLeaf (depth columns : ℕ) (leaf : Leaf) :
    (ofLeaf depth columns leaf).markup = leaf.element depth columns := by
  unfold Leaf.element
  split
  · rename_i hcontent
    simp [ofLeaf, markup, hcontent, isEmpty, opening, Text.escaped]
  · rename_i content hcontent
    simp [ofLeaf, markup, hcontent, isEmpty, opening, Text.escaped, markupAll]

namespace Node

mutual

/-- The line of an element is the layout of its node. -/
theorem line_toElement (columns depth : ℕ) :
    (node : Node) → node.isWritable = true →
      tabs depth ++ (node.toElement columns depth).markup ++ text "\n" = node.layout columns depth
  | .leaf l, _ => by rw [toElement, Element.markup_ofLeaf, layout]
  | .container kind children, h => by
    rw [toElement, Draft.markup_element, Draft.wrap_addText, wrap_addLines, Draft.inside_addText,
      inside_addLines columns (depth + 1) children h, Draft.inside_ofTag,
      (Text.isIndent_tabs depth).escaped, layout]
    simp [Draft.wrap, Draft.ofTag, Draft.element, Element.opening]
  | .bare, h => Bool.noConfusion h

theorem inside_addLines (columns depth : ℕ) :
    (nodes : List Node) → areWritable nodes = true → (draft : Draft) →
      (addLines columns depth nodes draft).inside = draft.inside ++ layoutAll columns depth nodes
  | [], _, draft => by rw [addLines, layoutAll, List.append_nil]
  | node :: rest, h, draft => by
    rw [areWritable, Bool.and_eq_true] at h
    rw [addLines, inside_addLines columns depth rest h.2, Draft.inside_addLine,
      line_toElement columns depth node h.1, layoutAll, List.append_assoc]

end

mutual

/-- A node on the stack becomes a line of the draft, and the rest of the stack goes on from there. -/
theorem build_node (columns depth : ℕ) :
    (node : Node) → node.isWritable = true → (stack : List Pending) → (draft : Draft) →
      build columns (.node node depth :: stack) draft =
        build columns stack (draft.addLine depth (node.toElement columns depth))
  | .leaf l, _, stack, draft => by rw [build, toElement]
  | .container kind children, h, stack, draft => by
    rw [build, build_children columns depth children h, build, toElement]
  | .bare, h, _, _ => Bool.noConfusion h

theorem build_children (columns depth : ℕ) :
    (nodes : List Node) → areWritable nodes = true → (stack : List Pending) → (draft : Draft) →
      build columns (Pending.children depth nodes ++ stack) draft =
        build columns stack (addLines columns (depth + 1) nodes draft)
  | [], _, stack, draft => by rw [addLines]; rfl
  | node :: rest, h, stack, draft => by
    rw [areWritable, Bool.and_eq_true] at h
    rw [Pending.children, List.map_cons, List.cons_append, build_node columns (depth + 1) node h.1,
      ← Pending.children, build_children columns depth rest h.2, addLines]

end

end Node

namespace Pending

def isWritable : Pending → Bool
  | .node n _ => n.isWritable
  | .close _ _ => true

theorem all_children (depth : ℕ) (nodes : List Node) :
    (children depth nodes).all isWritable = Node.areWritable nodes := by
  induction nodes with
  | nil => rfl
  | cons node nodes ih =>
    rw [children, List.map_cons, List.all_cons, ← children, ih, Node.areWritable, isWritable]

end Pending

/-- A bare node anywhere on the stack is met in the end. -/
theorem build_eq_error (columns : ℕ) (stack : List Pending) (draft : Draft)
    (h : stack.all Pending.isWritable = false) :
    build columns stack draft = .error (.wrongType .leaf Node.bare.className) := by
  induction stack, draft using build.induct columns with
  | case1 draft => cases h
  | case2 draft parent depth stack ih =>
    rw [build]
    exact ih h
  | case3 draft leaf depth stack ih =>
    rw [build]
    exact ih h
  | case4 draft kind children depth stack ih =>
    rw [build]
    apply ih
    rw [List.all_append, Pending.all_children, List.all_cons, Pending.isWritable, Bool.true_and]
    exact h
  | case5 draft depth stack => rw [build]

/-- The document of a tree without bare nodes is its layout between head and foot. -/
theorem write_eq_ok (config : Config) {tree : Node} (h : tree.isWritable = true) :
    write config tree =
      .ok (documentHead ++ tree.layout config.columns 0 ++ documentFoot) := by
  have hbuild : build config.columns [.node tree 0] emptyRoot =
      .ok (emptyRoot.addLine 0 (tree.toElement config.columns 0)).element := by
    rw [Node.build_node _ _ _ h, build]
  have hmarkup : (emptyRoot.addLine 0 (tree.toElement config.columns 0)).element.markup =
      emptyRoot.wrap (text "\n" ++ tree.layout config.columns 0) := by
    rw [Draft.markup_element, Draft.wrap_addLine, Draft.inside_addLine, emptyRoot,
      Draft.inside_ofTag, Node.line_toElement _ _ _ h]
  have hhead : Pieces.toText [text "\n", documentType, text "\n", xmlDeclaration] ++
      (openTag emptyRoot.element.opening ++ text "\n") = documentHead := by decide +kernel
  have hfoot : closeTag emptyRoot.tag ++ text "\n" = documentFoot := by decide
  rw [write, hbuild]
  change Except.ok (Pieces.toText (text "\n" :: writeElements _ _)) = _
  rw [Pieces.toText_cons, toText_writeElements, List.flatMap_singleton, Unwritten.text, hmarkup,
    Draft.wrap, ← hhead, ← hfoot]
  simp only [List.append_assoc]

/-- A tree with a bare node has no document. -/
theorem write_eq_error (config : Config) {tree : Node} (h : tree.isWritable = false) :
    write config tree = .error (.wrongType .leaf Node.bare.className) := by
  rw [write, build_eq_error _ _ _ (by rw [List.all_cons, Pending.isWritable, h]; rfl)]
  rfl

mutual

theorem Node.isWritable_of_valid : (node : Node) → node.Valid → node.isWritable = true
  | .leaf _, _ => rfl
  | .container _ children, h => Node.areWritable_of_allValid children h
  | .bare, h => h.elim

theorem Node.areWritable_of_allValid :
    (nodes : List Node) → Node.AllValid nodes → Node.areWritable nodes = true
  | [], _ => rfl
  | node :: rest, h => by
    rw [Node.areWritable, Node.isWritable_of_valid node h.1, Node.areWritable_of_allValid rest h.2]
    rfl

end

namespace Text

theorem isXml_escaped {s : Text} (h : s.isXml = true) : s.escaped.isXml = true := by
  induction s with
  | nil => rfl
  | cons c s ih =>
    rw [isXml, List.all_cons, Bool.and_eq_true] at h
    have hc : isXml (escapeChar c) = true := by
      by_cases hreferred : c ∈ referredTo
      · have hall : ∀ d ∈ referredTo, isXml (escapeChar d) = true := by decide
        exact hall c hreferred
      · rw [escapeChar_of_not_mem hreferred]
        simpa [isXml] using h.1
    rw [escaped_cons, isXml_append, hc, ih h.2, Bool.and_self]

end Text

theorem isXml_tabs (depth : ℕ) : (tabs depth).isXml = true := by
  apply List.all_eq_true.mpr
  intro c hc
  rw [List.eq_of_mem_replicate hc]
  decide

/-- The tags that leaves have. -/
def leafTags : List Text :=
  [text "true", text "false", text "integer", text "real", text "string", text "key", text "data",
    text "date"]

theorem Leaf.tag_mem_leafTags (leaf : Leaf) : leaf.tag ∈ leafTags := by
  cases leaf with
  | boolean value => cases value <;> decide
  | _ => rw [Leaf.tag]; decide

theorem Leaf.isWord_tag (leaf : Leaf) : leaf.tag.IsWord := by
  have hall : ∀ tag ∈ leafTags, tag.IsWord := by decide
  exact hall _ leaf.tag_mem_leafTags

theorem ContainerKind.isWord_tag (kind : ContainerKind) : kind.tag.IsWord := by
  cases kind <;> decide

theorem isXml_openTag {tag : Text} (h : tag.IsGraphic) : (openTag tag).isXml = true :=
  Text.IsGraphic.isXml <| .cons (by decide) <| h.append (by decide)

theorem isXml_closeTag {tag : Text} (h : tag.IsGraphic) : (closeTag tag).isXml = true :=
  Text.IsGraphic.isXml <| .cons (by decide) <| .cons (by decide) <| h.append (by decide)

theorem isXml_emptyTag {tag : Text} (h : tag.IsGraphic) : (emptyTag tag).isXml = true :=
  Text.IsGraphic.isXml <| .cons (by decide) <| h.append (by decide)

theorem Leaf.isXml_element {leaf : Leaf} (h : leaf.Valid) (depth columns : ℕ) :
    (leaf.element depth columns).isXml = true := by
  have htag := leaf.isWord_tag.isGraphic
  unfold Leaf.element
  split
  · exact isXml_emptyTag htag
  · rename_i content hcontent
    rw [Text.isXml_append, Text.isXml_append, isXml_openTag htag, isXml_closeTag htag,
      Text.isXml_escaped (Leaf.isXml_of_content? h hcontent)]
    rfl

mutual

/-- A valid tree is laid out in characters that may stand in a document. -/
theorem Node.isXml_layout (columns depth : ℕ) :
    (node : Node) → node.Valid → (node.layout columns depth).isXml = true
  | .leaf l, h => by
    rw [Node.layout, Text.isXml_append, Text.isXml_append, isXml_tabs, Leaf.isXml_element h]
    decide
  | .container kind children, h => by
    have htag := kind.isWord_tag.isGraphic
    have hbreak : (text "\n").isXml = true := by decide
    simp only [Node.layout, Text.isXml_append, isXml_tabs, isXml_openTag htag,
      isXml_closeTag htag, hbreak, Node.isXml_layoutAll columns (depth + 1) children h, Bool.and_self]
  | .bare, h => h.elim

theorem Node.isXml_layoutAll (columns depth : ℕ) :
    (nodes : List Node) → Node.AllValid nodes → (Node.layoutAll columns depth nodes).isXml = true
  | [], _ => rfl
  | node :: rest, h => by
    rw [Node.layoutAll, Text.isXml_append, Node.isXml_layout columns depth node h.1,
      Node.isXml_layoutAll columns depth rest h.2]
    rfl

end

end PropertyList
