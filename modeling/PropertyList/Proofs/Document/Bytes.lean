import PropertyList.Document.Exchange
import PropertyList.Proofs.Document.Writer
import PropertyList.Proofs.Markup.Prolog

/-! The bytes of documents. A tree is written just if none of its nodes is bare, and then as its
layout. -/
namespace PropertyList

namespace Node

mutual

/-- All nodes of a tree in document order, the tree itself first. -/
def subtrees : Node → List Node
  | .leaf l => [.leaf l]
  | .container kind children => .container kind children :: subtreesAll children
  | .bare => [.bare]

def subtreesAll : List Node → List Node
  | [] => []
  | node :: rest => node.subtrees ++ subtreesAll rest

end

mutual

theorem isWritable_iff : (node : Node) →
    (node.isWritable = true ↔ ∀ n ∈ node.subtrees, n.kind? ≠ none)
  | .leaf l => by simp [isWritable, subtrees, kind?]
  | .container kind children => by
    rw [isWritable, areWritable_iff children, subtrees, List.forall_mem_cons, iff_and_self]
    intro _ h
    cases h
  | .bare => by simp [isWritable, subtrees, kind?]

theorem areWritable_iff : (nodes : List Node) →
    (areWritable nodes = true ↔ ∀ n ∈ subtreesAll nodes, n.kind? ≠ none)
  | [] => by simp [areWritable, subtreesAll]
  | node :: rest => by
    rw [areWritable, Bool.and_eq_true, isWritable_iff node, areWritable_iff rest, subtreesAll,
      List.forall_mem_append]

end

mutual

/-- Every node of a valid tree is of some kind, and every leaf has a payload of its kind. -/
theorem valid_iff : (node : Node) →
    (node.Valid ↔ node.isWritable = true ∧ ∀ leaf, .leaf leaf ∈ node.subtrees → leaf.Valid)
  | .leaf l => by simp [Valid, isWritable, subtrees]
  | .container kind children => by
    rw [Valid, isWritable, allValid_iff children]
    simp [subtrees]
  | .bare => by simp [Valid, isWritable]

theorem allValid_iff : (nodes : List Node) →
    (AllValid nodes ↔
      areWritable nodes = true ∧ ∀ leaf, .leaf leaf ∈ subtreesAll nodes → leaf.Valid)
  | [] => by simp [AllValid, areWritable, subtreesAll]
  | node :: rest => by
    rw [AllValid, valid_iff node, allValid_iff rest, areWritable, Bool.and_eq_true, subtreesAll,
      and_and_and_comm]
    simp only [List.mem_append, or_imp, forall_and]

end

end Node

/-- The bytes of a valid tree encode its layout between head and foot. -/
theorem documentBytes_of_valid (config : Config) {tree : Node} (h : tree.Valid) :
    documentBytes (some (.wanted tree)) (.wanted config) =
      .ok ((documentHead ++ tree.layout config.columns 0 ++ documentFoot).utf8,
        (documentHead ++ tree.layout config.columns 0 ++ documentFoot).utf8.length) := by
  have hwrite : toDocument (some (.wanted tree)) (.wanted config) = _ :=
    write_eq_ok config (Node.isWritable_of_valid tree h)
  have hfoot : documentFoot.isXml = true := by decide
  have hxml : Text.isXml (documentHead ++ tree.layout config.columns 0 ++ documentFoot) = true := by
    rw [Text.isXml_append, Text.isXml_append, Markup.isXml_documentHead,
      Node.isXml_layout config.columns 0 tree h, hfoot]
    rfl
  have hbytes : (Input.ofText (documentHead ++ tree.layout config.columns 0 ++ documentFoot)).bytes =
      .ok (Text.utf8 (documentHead ++ tree.layout config.columns 0 ++ documentFoot)) := by
    rw [Input.bytes, Text.utf8?_of_isXml hxml]
  simp only [documentBytes, hwrite, hbytes, bind, Except.bind, pure, Except.pure]

/-- A tree is written as the bytes of its layout between head and foot, with their number, unless
some node of it is of no kind; then the writer fails for the type of that node. -/
theorem documentBytes_eq (config : Config) {tree : Node}
    (hleaves : ∀ leaf, .leaf leaf ∈ tree.subtrees → leaf.Valid) :
    documentBytes (some (.wanted tree)) (.wanted config) =
      if ∃ node ∈ tree.subtrees, node.kind? = none then
        .error (.wrongType .leaf Node.bare.className)
      else
        .ok ((documentHead ++ tree.layout config.columns 0 ++ documentFoot).utf8,
          (documentHead ++ tree.layout config.columns 0 ++ documentFoot).utf8.length) := by
  split_ifs with hbare
  · have hwritable : tree.isWritable = false := by
      rw [← Bool.not_eq_true, Node.isWritable_iff]
      push Not
      exact hbare
    have hwrite : toDocument (some (.wanted tree)) (.wanted config) = _ :=
      write_eq_error config hwritable
    rw [documentBytes, hwrite]
    rfl
  · push Not at hbare
    exact documentBytes_of_valid config
      ((Node.valid_iff tree).mpr ⟨(Node.isWritable_iff tree).mpr hbare, hleaves⟩)

/-- A dictionary that holds a list of a truth value and an empty text. -/
theorem documentBytes_eq_dict :
    (∀ leaf, .leaf leaf ∈ Node.subtrees (.dict [.leaf (.key (text "a<b")),
        .array [.leaf (.boolean true), .leaf (.string [])]]) → leaf.Valid) ∧
      documentBytes (some (.wanted (.dict [.leaf (.key (text "a<b")),
          .array [.leaf (.boolean true), .leaf (.string [])]]))) (.wanted .default) =
        .ok (Text.utf8 (documentHead ++
            text "<dict>\n\t<key>a&lt;b</key>\n\t<array>\n\t\t<true/>\n\t\t<string></string>\n" ++
            text "\t</array>\n</dict>\n" ++ documentFoot), 265) := by
  have hleaves : ∀ leaf, .leaf leaf ∈ Node.subtrees (.dict [.leaf (.key (text "a<b")),
      .array [.leaf (.boolean true), .leaf (.string [])]]) → leaf.Valid := by
    intro leaf h
    simp only [Node.subtrees, Node.subtreesAll, List.cons_append, List.nil_append, List.mem_cons,
      List.not_mem_nil, or_false, Node.leaf.injEq, reduceCtorEq, false_or] at h
    rcases h with rfl | rfl | rfl <;> decide
  refine ⟨hleaves, (documentBytes_eq .default hleaves).trans ?_⟩
  rw [if_neg (by decide)]
  decide +kernel

end PropertyList
