import Mathlib.Tactic.SplitIfs
import PropertyList.Proofs.Document.Recursion
import PropertyList.Proofs.Leaf.Kind

/-! The leaves of what is read. Each was decoded from the tag and the text of an element that is no
container; nothing else makes a leaf. -/
namespace PropertyList
open Markup

variable {strict : Bool}

namespace Node

mutual

/-- The leaves of a tree, in document order. -/
def leaves : Node → List Leaf
  | .leaf l => [l]
  | .container _ children => leavesAll children
  | .bare => []

def leavesAll : List Node → List Leaf
  | [] => []
  | node :: rest => node.leaves ++ leavesAll rest

end

theorem leavesAll_append (nodes more : List Node) :
    leavesAll (nodes ++ more) = leavesAll nodes ++ leavesAll more := by
  induction nodes with
  | nil => rfl
  | cons node nodes ih => rw [List.cons_append, leavesAll, leavesAll, ih, List.append_assoc]

theorem leavesAll_toList_map (found : Option Leaf) :
    leavesAll (found.map Node.leaf).toList = found.toList := by
  cases found <;> rfl

theorem leaves_appendAll_subset (root : Node) (more : List Node) :
    (root.appendAll more).leaves ⊆ leavesAll (root :: more) := by
  cases root with
  | leaf l => exact List.subset_append_left _ _
  | container kind children =>
    rw [appendAll, leaves, leavesAll_append, leavesAll, leaves]
    exact List.Subset.refl _
  | bare => exact List.nil_subset _

end Node

/-- A leaf that was decoded from one of the entries. -/
def Leaf.IsDecoded (strict : Bool) (entries : List (Text × Text)) (leaf : Leaf) : Prop :=
  ∃ entry ∈ entries, (Leaf.decode strict entry.1 entry.2).outcome = .ok (some leaf)

theorem isDecoded_of_readElement {tag s : Text} {found : Option Node}
    (h : (readElement strict tag s).outcome = .ok found) :
    ∀ leaf ∈ Node.leavesAll found.toList, leaf.IsDecoded strict [(tag, s)] := by
  unfold readElement at h
  split at h
  · obtain ⟨decoded, hdecoded, hfound⟩ := Run.outcome_bind_eq_ok.mp h
    cases hfound
    rw [Node.leavesAll_toList_map]
    intro leaf hleaf
    rw [Option.mem_toList] at hleaf
    rw [hleaf] at hdecoded
    exact ⟨(tag, s), List.mem_singleton_self _, hdecoded⟩
  · split_ifs at h
    · cases h
    · cases h
      intro leaf hleaf
      cases hleaf

namespace Markup

mutual

theorem Item.isDecoded_of_nodes : (item : Item) → (nodes : List Node) →
    (item.nodes strict).outcome = .ok nodes →
    ∀ leaf ∈ Node.leavesAll nodes, leaf.IsDecoded strict item.leaves
  | .text _, _, h, _, hleaf => by
    cases h
    cases hleaf
  | .element tag _ content, nodes, h, leaf, hleaf => by
    rw [Item.nodes] at h
    rw [Item.leaves]
    cases htag : containerOfTag? tag with
    | some kind =>
      rw [htag] at h
      obtain ⟨children, hchildren, hnodes⟩ := Run.outcome_bind_eq_ok.mp h
      cases hnodes
      rw [Node.leavesAll, Node.leavesAll, List.append_nil] at hleaf
      exact isDecoded_of_nodesOf content children hchildren leaf hleaf
    | none =>
      rw [htag] at h
      obtain ⟨found, hfound, hnodes⟩ := Run.outcome_bind_eq_ok.mp h
      cases hnodes
      exact isDecoded_of_readElement hfound leaf hleaf

/-- Every leaf that is found in a content was decoded from one of its elements. -/
theorem isDecoded_of_nodesOf : (items : List Item) → (nodes : List Node) →
    (nodesOf strict items).outcome = .ok nodes →
    ∀ leaf ∈ Node.leavesAll nodes, leaf.IsDecoded strict (leavesOf items)
  | [], _, h, _, hleaf => by
    cases h
    cases hleaf
  | item :: rest, _, h, leaf, hleaf => by
    rw [nodesOf] at h
    obtain ⟨first, hfirst, hmore⟩ := Run.outcome_bind_eq_ok.mp h
    obtain ⟨others, hothers, hnodes⟩ := Run.outcome_bind_eq_ok.mp hmore
    cases hnodes
    rw [Node.leavesAll_append, List.mem_append] at hleaf
    rcases hleaf with hleaf | hleaf
    · obtain ⟨entry, hentry, hdecoded⟩ := Item.isDecoded_of_nodes item first hfirst leaf hleaf
      exact ⟨entry, List.mem_append_left _ hentry, hdecoded⟩
    · obtain ⟨entry, hentry, hdecoded⟩ := isDecoded_of_nodesOf rest others hothers leaf hleaf
      exact ⟨entry, List.mem_append_right _ hentry, hdecoded⟩

end

end Markup

theorem leaves_subset_of_gathered {tag : Text} {nodes : List Node} {tree : Node}
    (h : (gathered strict tag nodes).outcome = .ok (some tree)) :
    tree.leaves ⊆ Node.leavesAll nodes := by
  unfold gathered at h
  split at h
  · cases h
  · cases h
    exact List.subset_append_left _ _
  · split_ifs at h
    · cases h
    · cases h
      exact Node.leaves_appendAll_subset _ _
    · cases h
      exact List.subset_append_left _ _

/-- Every leaf of a tree was decoded from an element of the document. -/
theorem Markup.Document.isDecoded_of_tree {document : Markup.Document} {tree : Node}
    (h : (document.tree strict).outcome = .ok (some tree)) :
    ∀ leaf ∈ tree.leaves, leaf.IsDecoded strict (leavesOf document.content) := by
  rw [tree_eq] at h
  split_ifs at h
  · cases h
  · obtain ⟨nodes, hnodes, hgathered⟩ := Run.outcome_bind_eq_ok.mp h
    intro leaf hleaf
    exact isDecoded_of_nodesOf document.content nodes hnodes leaf
      (leaves_subset_of_gathered hgathered hleaf)

namespace Leaf

/-- The text of a string or a key. -/
def text? : Leaf → Option Text
  | .string value => some value
  | .key value => some value
  | _ => none

theorem text?_of_kind {leaf : Leaf} (h : leaf.kind ≠ .string ∧ leaf.kind ≠ .key) :
    leaf.text? = none := by
  cases leaf with
  | string value => exact absurd rfl h.1
  | key value => exact absurd rfl h.2
  | _ => rfl

/-- A string or a key keeps the text of its element. -/
theorem eq_of_text? {tag s value : Text} (hxml : s.isXml = true) {leaf : Leaf}
    (h : (decode strict tag s).outcome = .ok (some leaf)) (hvalue : leaf.text? = some value) :
    value = s := by
  cases htag : kindOfTag? tag with
  | none =>
    rw [decode, htag] at h
    cases h
  | some kind =>
    have hkind (hplain : kind ≠ .array ∧ kind ≠ .dict) : leaf.kind = kind := by
      obtain ⟨_, hsame, hkind⟩ :=
        exists_of_decode hxml htag ((containerOfTag?_eq_none_iff htag).mpr hplain) h
      cases hsame
      exact hkind
    cases kind with
    | string =>
      rw [decode, htag] at h
      simp only [decodeString_of_isXml strict tag hxml, pure_bind, ofString_of_isXml hxml] at h
      cases h
      cases hvalue
      rfl
    | key =>
      rw [decode, htag] at h
      simp only [decodeString_of_isXml strict tag hxml, pure_bind, ofKey_of_isXml hxml] at h
      cases h
      cases hvalue
      rfl
    | array =>
      rw [decode, htag] at h
      cases h
    | dict =>
      rw [decode, htag] at h
      cases h
    | _ =>
      have hnone : leaf.text? = none := by
        apply text?_of_kind
        rw [hkind (by decide)]
        decide
      rw [hnone] at hvalue
      cases hvalue

end Leaf

end PropertyList
