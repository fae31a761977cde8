import PropertyList.Proofs.Document.Recursion
import PropertyList.Proofs.Leaf.Kind

/-! Readers are local. If two documents are the same but for the text of one leaf, then what a lenient
reader finds in them is the same but for that leaf, which is of the same kind in both. -/
namespace PropertyList
open Markup

/-- Contents that are the same but for one element that is no container, wherever it lies: `s` is all
text inside it in the one, and `s'` in the other. What lies inside a leaf or inside an unknown element
belongs to that element, and so do the differences there. -/
inductive Markup.SameBut (tag s s' : Text) : List Item → List Item → Prop
  | element (before after : List Item) (attributes : List Attribute) {content content' : List Item} :
      innerTextOf content = s → innerTextOf content' = s' →
        SameBut tag s s' (before ++ .element tag attributes content :: after)
          (before ++ .element tag attributes content' :: after)
  | container (before after : List Item) (attributes : List Attribute) {name : Text}
      {kind : ContainerKind} {content content' : List Item} : containerOfTag? name = some kind →
        SameBut tag s s' content content' →
          SameBut tag s s' (before ++ .element name attributes content :: after)
            (before ++ .element name attributes content' :: after)

namespace Node

/-- The node that is reached by going from child to child. -/
def descendant? (node : Node) : List Nat → Option Node
  | [] => some node
  | i :: path => node.children[i]?.bind fun child => child.descendant? path

/-- Two trees of the same shape and with nodes of the same kinds, which are equal everywhere but at
the end of a path, where the one has the leaf `own` and the other the leaf `own'`. -/
structure DifferAt (path : List Nat) (own own' : Leaf) (node node' : Node) : Prop where
  left : node.descendant? path = some (.leaf own)
  right : node'.descendant? path = some (.leaf own')
  kind_eq : ∀ other, (node'.descendant? other).map kind? = (node.descendant? other).map kind?
  leaf_eq : ∀ other, other ≠ path → ∀ leaf,
    node'.descendant? other = some (.leaf leaf) ↔ node.descendant? other = some (.leaf leaf)

/-- Nodes one of which is exchanged: a leaf, or a container inside which a leaf is. -/
inductive Exchanged (own own' : Leaf) : List Nat → List Node → List Node → Prop
  | leaf (before after : List Node) :
      Exchanged own own' [before.length] (before ++ .leaf own :: after)
        (before ++ .leaf own' :: after)
  | container (before after : List Node) (kind : ContainerKind) {path : List Nat}
      {children children' : List Node} : Exchanged own own' path children children' →
        Exchanged own own' (before.length :: path) (before ++ .container kind children :: after)
          (before ++ .container kind children' :: after)

variable {own own' : Leaf} {path : List Nat}

theorem Exchanged.append {nodes nodes' : List Node} (h : Exchanged own own' path nodes nodes')
    (more : List Node) : Exchanged own own' path (nodes ++ more) (nodes' ++ more) := by
  cases h with
  | leaf before after =>
    simp only [List.append_assoc, List.cons_append]
    exact .leaf before (after ++ more)
  | container before after kind h =>
    simp only [List.append_assoc, List.cons_append]
    exact .container before (after ++ more) kind h

theorem Exchanged.prepend {nodes nodes' : List Node} (h : Exchanged own own' path nodes nodes')
    (more : List Node) : ∃ place, Exchanged own own' place (more ++ nodes) (more ++ nodes') := by
  cases h with
  | leaf before after =>
    simp only [← List.append_assoc]
    exact ⟨_, .leaf (more ++ before) after⟩
  | container before after kind h =>
    simp only [← List.append_assoc]
    exact ⟨_, .container (more ++ before) after kind h⟩

theorem getElem?_exchanged {α : Type} (before after : List α) (a b : α) {i : ℕ}
    (h : i ≠ before.length) : (before ++ b :: after)[i]? = (before ++ a :: after)[i]? := by
  rw [List.getElem?_append, List.getElem?_append]
  split
  · rfl
  · rw [List.getElem?_cons, List.getElem?_cons, if_neg (by omega), if_neg (by omega)]

theorem getElem?_length_append {α : Type} (before after : List α) (a : α) :
    (before ++ a :: after)[before.length]? = some a := by
  simp

theorem differAt_leaf (h : own'.kind = own.kind) : DifferAt [] own own' (.leaf own) (.leaf own') where
  left := rfl
  right := rfl
  kind_eq := by
    intro other
    cases other with
    | nil => simp [descendant?, kind?, h]
    | cons i other => rfl
  leaf_eq := by
    intro other hother leaf
    cases other with
    | nil => exact absurd rfl hother
    | cons i other => rfl

/-- A difference inside one child is the only one of its parent. -/
theorem DifferAt.child {node node' : Node} (h : DifferAt path own own' node node')
    (kind : ContainerKind) (before after : List Node) :
    DifferAt (before.length :: path) own own' (.container kind (before ++ node :: after))
      (.container kind (before ++ node' :: after)) where
  left := by
    rw [descendant?, children, getElem?_length_append]
    exact h.left
  right := by
    rw [descendant?, children, getElem?_length_append]
    exact h.right
  kind_eq := by
    intro other
    cases other with
    | nil => rfl
    | cons i other =>
      rw [descendant?, descendant?, children, children]
      by_cases hi : i = before.length
      · rw [hi, getElem?_length_append, getElem?_length_append]
        exact h.kind_eq other
      · rw [getElem?_exchanged before after node node' hi]
  leaf_eq := by
    intro other hother leaf
    cases other with
    | nil => simp [descendant?]
    | cons i other =>
      rw [descendant?, descendant?, children, children]
      by_cases hi : i = before.length
      · subst hi
        rw [getElem?_length_append, getElem?_length_append]
        apply h.leaf_eq other
        rintro rfl
        exact hother rfl
      · rw [getElem?_exchanged before after node node' hi]

/-- A container differs from another one where their children do. -/
theorem Exchanged.differAt (hkind : own'.kind = own.kind) {children children' : List Node}
    (h : Exchanged own own' path children children') (kind : ContainerKind) :
    DifferAt path own own' (.container kind children) (.container kind children') := by
  induction h generalizing kind with
  | leaf before after => exact (differAt_leaf hkind).child kind before after
  | container before after inner _ ih => exact (ih inner).child kind before after

end Node

namespace Markup

variable {strict : Bool} {tag s s' : Text}

theorem nodesOf_around_leaf (h : containerOfTag? tag = none) (before after : List Item)
    (attributes : List Attribute) (content : List Item) {nodes : List Node} :
    (nodesOf strict (before ++ .element tag attributes content :: after)).outcome = .ok nodes ↔
      ∃ first found others, (nodesOf strict before).outcome = .ok first ∧
        (readElement strict tag (innerTextOf content)).outcome = .ok found ∧
        (nodesOf strict after).outcome = .ok others ∧
        first ++ (found.toList ++ others) = nodes := by
  simp only [nodesOf_append, nodesOf_leaf h, Run.outcome_bind_eq_ok, Run.outcome_pure,
    Except.ok.injEq]
  constructor
  · rintro ⟨first, hfirst, _, ⟨found, hfound, others, hothers, rfl⟩, rfl⟩
    exact ⟨first, found, others, hfirst, hfound, hothers, rfl⟩
  · rintro ⟨first, found, others, hfirst, hfound, hothers, rfl⟩
    exact ⟨first, hfirst, _, ⟨found, hfound, others, hothers, rfl⟩, rfl⟩

theorem nodesOf_around_container {kind : ContainerKind} (h : containerOfTag? tag = some kind)
    (before after : List Item) (attributes : List Attribute) (content : List Item)
    {nodes : List Node} :
    (nodesOf strict (before ++ .element tag attributes content :: after)).outcome = .ok nodes ↔
      ∃ first children others, (nodesOf strict before).outcome = .ok first ∧
        (nodesOf strict content).outcome = .ok children ∧
        (nodesOf strict after).outcome = .ok others ∧
        first ++ .container kind children :: others = nodes := by
  simp only [nodesOf_append, nodesOf_container h, Run.outcome_bind_eq_ok, Run.outcome_pure,
    Except.ok.injEq]
  constructor
  · rintro ⟨first, hfirst, _, ⟨children, hchildren, others, hothers, rfl⟩, rfl⟩
    exact ⟨first, children, others, hfirst, hchildren, hothers, rfl⟩
  · rintro ⟨first, children, others, hfirst, hchildren, hothers, rfl⟩
    exact ⟨first, hfirst, _, ⟨children, hchildren, others, hothers, rfl⟩, rfl⟩

/-- The texts in which two contents differ may stand in a document if the contents may. -/
theorem SameBut.isXml {items items' : List Item} (h : SameBut tag s s' items items')
    (hxml : areXml items = true) (hxml' : areXml items' = true) :
    s.isXml = true ∧ s'.isXml = true := by
  induction h with
  | element before after attributes hs hs' =>
    simp only [areXml_eq_all, List.all_append, List.all_cons, Item.isXml, Bool.and_eq_true]
      at hxml hxml'
    rw [← hs, ← hs']
    simp only [← areXml_eq_all] at hxml hxml'
    exact ⟨isXml_innerTextOf _ hxml.2.1, isXml_innerTextOf _ hxml'.2.1⟩
  | container before after attributes _ _ ih =>
    simp only [areXml_eq_all, List.all_append, List.all_cons, Item.isXml, Bool.and_eq_true]
      at hxml hxml'
    simp only [← areXml_eq_all] at hxml hxml'
    exact ih hxml.2.1 hxml'.2.1

/-- A lenient reader finds the same nodes in contents that are the same but for one element, except
for the leaf that this element becomes, if it becomes one. -/
theorem SameBut.nodesOf {items items' : List Item} (h : SameBut tag s s' items items')
    (htag : containerOfTag? tag = none) (hs : s.isXml = true) (hs' : s'.isXml = true)
    {nodes nodes' : List Node} (hnodes : (nodesOf false items).outcome = .ok nodes)
    (hnodes' : (Markup.nodesOf false items').outcome = .ok nodes') :
    nodes' = nodes ∨ ∃ own own' path, (Leaf.decode false tag s).outcome = .ok (some own) ∧
      (Leaf.decode false tag s').outcome = .ok (some own') ∧ own'.kind = own.kind ∧
        Node.Exchanged own own' path nodes nodes' := by
  induction h generalizing nodes nodes' with
  | element before after attributes hcontent hcontent' =>
    obtain ⟨first, found, others, hfirst, hfound, hothers, rfl⟩ :=
      (nodesOf_around_leaf htag before after attributes _).mp hnodes
    obtain ⟨first', found', others', hfirst', hfound', hothers', rfl⟩ :=
      (nodesOf_around_leaf htag before after attributes _).mp hnodes'
    -- what stands on both sides is read in the same way
    cases hfirst.symm.trans hfirst'
    cases hothers.symm.trans hothers'
    rw [hcontent] at hfound
    rw [hcontent'] at hfound'
    cases hkind : kindOfTag? tag with
    | none =>
      left
      rw [readElement, hkind] at hfound hfound'
      cases hfound
      cases hfound'
      rfl
    | some kind =>
      right
      obtain ⟨own, hown, rfl, rfl⟩ := exists_leaf_of_readElement hs hkind htag hfound
      obtain ⟨own', hown', rfl, hsame⟩ := exists_leaf_of_readElement hs' hkind htag hfound'
      exact ⟨own, own', _, hown, hown', hsame, .leaf first others⟩
  | container before after attributes hname _ ih =>
    obtain ⟨first, children, others, hfirst, hchildren, hothers, rfl⟩ :=
      (nodesOf_around_container hname before after attributes _).mp hnodes
    obtain ⟨first', children', others', hfirst', hchildren', hothers', rfl⟩ :=
      (nodesOf_around_container hname before after attributes _).mp hnodes'
    cases hfirst.symm.trans hfirst'
    cases hothers.symm.trans hothers'
    rcases ih hchildren hchildren' with rfl | ⟨own, own', path, hown, hown', hsame, hexchanged⟩
    · exact .inl rfl
    · exact .inr ⟨own, own', _, hown, hown', hsame, .container first others _ hexchanged⟩

end Markup

/-- A lenient reader puts all top-level nodes together. -/
theorem outcome_gathered_lenient (tag : Text) (root : Node) (others : List Node) :
    (gathered false tag (root :: others)).outcome = .ok (some (root.appendAll others)) := by
  cases others with
  | nil => simp [gathered, Node.appendAll_nil]
  | cons second others =>
    rw [gathered, if_neg Bool.false_ne_true]
    split_ifs with hroot
    · rfl
    · rw [Node.appendAll_of_not_isContainer hroot]

namespace Node

variable {own own' : Leaf} {path : List Nat}

/-- A root takes the nodes behind it in as they are, or leaves all of them out. -/
theorem Exchanged.appendAll (hkind : own'.kind = own.kind) {more more' : List Node}
    (h : Exchanged own own' path more more') (root : Node) :
    root.appendAll more' = root.appendAll more ∨
      ∃ place, DifferAt place own own' (root.appendAll more) (root.appendAll more') := by
  cases root with
  | leaf l => exact .inl rfl
  | container kind children =>
    obtain ⟨place, hplace⟩ := h.prepend children
    exact .inr ⟨place, hplace.differAt hkind kind⟩
  | bare => exact .inl rfl

/-- The trees that top-level nodes come to if one of them is exchanged: that one may be the root
itself, or stand behind it. -/
theorem Exchanged.exists_root (hkind : own'.kind = own.kind) {nodes nodes' : List Node}
    (h : Exchanged own own' path nodes nodes') :
    ∃ root others root' others', nodes = root :: others ∧ nodes' = root' :: others' ∧
      (root'.appendAll others' = root.appendAll others ∨
        ∃ place, DifferAt place own own' (root.appendAll others) (root'.appendAll others')) := by
  cases h with
  | leaf before after =>
    cases before with
    | nil => exact ⟨_, after, _, after, rfl, rfl, .inr ⟨[], differAt_leaf hkind⟩⟩
    | cons root before =>
      exact ⟨root, _, root, _, rfl, rfl, appendAll hkind (.leaf before after) root⟩
  | container before after kind h =>
    cases before with
    | nil => exact ⟨_, after, _, after, rfl, rfl, .inr ⟨_, (h.append after).differAt hkind kind⟩⟩
    | cons root before =>
      exact ⟨root, _, root, _, rfl, rfl, appendAll hkind (.container before after kind h) root⟩

end Node

theorem Markup.Document.tree_sameBut {document document' : Markup.Document} {tag s s' : Text}
    (htag : containerOfTag? tag = none)
    (hsame : SameBut tag s s' document.content document'.content)
    (hxml : areXml document.content = true) (hxml' : areXml document'.content = true)
    {found found' : Option Node} (hfound : (document.tree false).outcome = .ok found)
    (hfound' : (document'.tree false).outcome = .ok found') :
    found' = found ∨ ∃ tree tree' place own own', found = some tree ∧ found' = some tree' ∧
      (Leaf.decode false tag s).outcome = .ok (some own) ∧
      (Leaf.decode false tag s').outcome = .ok (some own') ∧ own'.kind = own.kind ∧
      Node.DifferAt place own own' tree tree' := by
  obtain ⟨hs, hs'⟩ := hsame.isXml hxml hxml'
  simp only [tree_eq, Bool.false_and, Bool.false_eq_true, if_false] at hfound hfound'
  obtain ⟨nodes, hnodes, hgathered⟩ := Run.outcome_bind_eq_ok.mp hfound
  obtain ⟨nodes', hnodes', hgathered'⟩ := Run.outcome_bind_eq_ok.mp hfound'
  rcases hsame.nodesOf htag hs hs' hnodes hnodes' with
    rfl | ⟨own, own', path, hown, hown', hkind, hexchanged⟩
  · left
    cases nodes' with
    | nil =>
      cases hgathered
      cases hgathered'
      rfl
    | cons root others =>
      rw [outcome_gathered_lenient] at hgathered hgathered'
      exact (Except.ok.inj (hgathered.symm.trans hgathered')).symm
  · obtain ⟨root, others, root', others', rfl, rfl, hroot⟩ := hexchanged.exists_root hkind
    rw [outcome_gathered_lenient] at hgathered hgathered'
    cases hgathered
    cases hgathered'
    rcases hroot with heq | ⟨place, hdiffer⟩
    · exact .inl (congrArg some heq)
    · exact .inr ⟨_, _, place, own, own', rfl, rfl, hown, hown', hkind, hdiffer⟩

/-- What a lenient reader finds in two documents that are the same but for the text of one leaf is
the same, or two trees that differ in this leaf alone: its text says what it is, its kind is the same
in both, and no other node is changed, moved or lost. -/
theorem fromDocument_sameBut {input input' : Given Input} {length length' : Option ℤ}
    {bytes bytes' : Bytes} {document document' : Markup.Document} {tag s s' : Text}
    {columns columns' : Nat} {found found' : Option Node}
    (hcut : input.cut length = .ok bytes) (hdocument : Document.ofBytes bytes = .ok document)
    (hcut' : input'.cut length' = .ok bytes') (hdocument' : Document.ofBytes bytes' = .ok document')
    (htag : containerOfTag? tag = none)
    (hsame : SameBut tag s s' document.content document'.content)
    (hfound : (fromDocument input length (.wanted ⟨false, columns⟩)).outcome = .ok found)
    (hfound' : (fromDocument input' length' (.wanted ⟨false, columns'⟩)).outcome = .ok found') :
    found' = found ∨ ∃ tree tree' place own own', found = some tree ∧ found' = some tree' ∧
      (Leaf.decode false tag s).outcome = .ok (some own) ∧
      (Leaf.decode false tag s').outcome = .ok (some own') ∧ own'.kind = own.kind ∧
      Node.DifferAt place own own' tree tree' := by
  rw [fromDocument_eq_tree hcut hdocument] at hfound
  rw [fromDocument_eq_tree hcut' hdocument'] at hfound'
  exact Document.tree_sameBut htag hsame (Document.isXml_of_ofBytes hdocument)
    (Document.isXml_of_ofBytes hdocument') hfound hfound'

/-- An integer that is none, and one that is, in front of another value of a list. -/
theorem fromDocument_sameBut_array :
    ∃ place, Node.DifferAt place (.integer 0) (.integer 7)
      (.array [.leaf (.integer 0), .leaf (.boolean true)])
      (.array [.leaf (.integer 7), .leaf (.boolean true)]) := by
  have hdocument : Document.ofBytes (Text.utf8
      (text "<plist><array><integer>x</integer><true/></array></plist>")) =
        .ok ⟨documentTag, [], [.text [], .element (text "array") [] [.text [],
          .element (text "integer") [] [.text (text "x")], .text [],
          .element (text "true") [] [], .text []], .text []]⟩ := rfl
  have hdocument' : Document.ofBytes (Text.utf8
      (text "<plist><array><integer>7</integer><true/></array></plist>")) =
        .ok ⟨documentTag, [], [.text [], .element (text "array") [] [.text [],
          .element (text "integer") [] [.text (text "7")], .text [],
          .element (text "true") [] [], .text []], .text []]⟩ := rfl
  have hcut (bytes : Bytes) : (Given.wanted (Input.ofBytes bytes)).cut none = .ok bytes := rfl
  have hread : (fromDocument (.wanted (.ofBytes (Text.utf8
      (text "<plist><array><integer>x</integer><true/></array></plist>")))) none
      (.wanted ⟨false, 60⟩)).outcome =
        .ok (some (.array [.leaf (.integer 0), .leaf (.boolean true)])) := by
    rw [fromDocument_eq_tree (hcut _) hdocument, Document.tree_eq]
    rfl
  have hread' : (fromDocument (.wanted (.ofBytes (Text.utf8
      (text "<plist><array><integer>7</integer><true/></array></plist>")))) none
      (.wanted ⟨false, 60⟩)).outcome =
        .ok (some (.array [.leaf (.integer 7), .leaf (.boolean true)])) := by
    rw [fromDocument_eq_tree (hcut _) hdocument', Document.tree_eq]
    rfl
  have hinside : SameBut (text "integer") (text "x") (text "7")
      [.text [], .element (text "integer") [] [.text (text "x")], .text [],
        .element (text "true") [] [], .text []]
      [.text [], .element (text "integer") [] [.text (text "7")], .text [],
        .element (text "true") [] [], .text []] :=
    .element [.text []] [.text [], .element (text "true") [] [], .text []] [] rfl rfl
  have harray : containerOfTag? (text "array") = some .array := by decide
  have hsame := SameBut.container [.text []] [.text []] [] harray hinside
  rcases fromDocument_sameBut (hcut _) hdocument (hcut _) hdocument' (by decide) hsame hread hread'
    with heq | ⟨tree, tree', place, own, own', htree, htree', hown, hown', -, hdiffer⟩
  · simp at heq
  · cases htree
    cases htree'
    cases hown
    cases hown'
    exact ⟨place, hdiffer⟩

end PropertyList
