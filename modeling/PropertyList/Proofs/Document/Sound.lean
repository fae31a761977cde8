import PropertyList.Proofs.Document.Bytes
import PropertyList.Proofs.Document.Recursion
import PropertyList.Proofs.Leaf.Valid
import PropertyList.Proofs.Value.OfNode
import PropertyList.Proofs.Value.Regular

/-! Whatever is read is valid: every leaf, and so every node that recursion puts together of them. A
valid tree has a document and a value. -/
namespace PropertyList
open Markup

variable {strict : Bool}

namespace Node

theorem Valid.appendAll {root : Node} (hroot : root.Valid) {more : List Node}
    (hmore : AllValid more) : (root.appendAll more).Valid := by
  cases root with
  | leaf l => exact hroot
  | container kind children => exact allValid_append (show AllValid children from hroot) hmore
  | bare => exact hroot

end Node

theorem valid_of_readElement {tag s : Text} {node : Node}
    (h : (readElement strict tag s).outcome = .ok (some node)) : node.Valid := by
  unfold readElement at h
  split at h
  · obtain ⟨leaf, hleaf, hnode⟩ := Run.outcome_bind_eq_ok.mp h
    obtain ⟨found, rfl, rfl⟩ := Option.map_eq_some_iff.mp (Except.ok.inj hnode)
    exact Leaf.valid_of_decode hleaf
  · split_ifs at h
    · cases h
    · cases h

namespace Markup

mutual

theorem Item.allValid_nodes : (item : Item) → (nodes : List Node) →
    (item.nodes strict).outcome = .ok nodes → Node.AllValid nodes
  | .text _, _, h => by
    cases h
    trivial
  | .element tag _ content, nodes, h => by
    rw [Item.nodes] at h
    cases htag : containerOfTag? tag with
    | some kind =>
      rw [htag] at h
      obtain ⟨children, hchildren, hnodes⟩ := Run.outcome_bind_eq_ok.mp h
      cases hnodes
      exact ⟨allValid_nodesOf content children hchildren, trivial⟩
    | none =>
      rw [htag] at h
      obtain ⟨found, hfound, hnodes⟩ := Run.outcome_bind_eq_ok.mp h
      cases hnodes
      cases found with
      | none => trivial
      | some node => exact ⟨valid_of_readElement hfound, trivial⟩

/-- The nodes of a content are valid. -/
theorem allValid_nodesOf : (items : List Item) → (nodes : List Node) →
    (nodesOf strict items).outcome = .ok nodes → Node.AllValid nodes
  | [], _, h => by
    cases h
    trivial
  | item :: rest, _, h => by
    rw [nodesOf] at h
    obtain ⟨first, hfirst, hmore⟩ := Run.outcome_bind_eq_ok.mp h
    obtain ⟨others, hothers, hnodes⟩ := Run.outcome_bind_eq_ok.mp hmore
    cases hnodes
    exact Node.allValid_append (Item.allValid_nodes item first hfirst)
      (allValid_nodesOf rest others hothers)

end

end Markup

theorem valid_of_gathered {tag : Text} {nodes : List Node} {tree : Node}
    (hnodes : Node.AllValid nodes)
    (h : (gathered strict tag nodes).outcome = .ok (some tree)) : tree.Valid := by
  unfold gathered at h
  split at h
  · cases h
  · cases h
    exact hnodes.1
  · split_ifs at h
    · cases h
    · cases h
      exact hnodes.1.appendAll hnodes.2
    · cases h
      exact hnodes.1

theorem Markup.Document.valid_of_tree {document : Markup.Document} {tree : Node}
    (h : (document.tree strict).outcome = .ok (some tree)) : tree.Valid := by
  rw [tree_eq] at h
  split_ifs at h
  · cases h
  · obtain ⟨nodes, hnodes, hgathered⟩ := Run.outcome_bind_eq_ok.mp h
    exact valid_of_gathered (allValid_nodesOf document.content nodes hnodes) hgathered

theorem valid_of_readTree {config : Config} {input : Bytes} {tree : Node}
    (h : (readTree config input).outcome = .ok (some tree)) : tree.Valid := by
  obtain ⟨document, -, hread⟩ := exists_document_of_readTree config h
  exact document.valid_of_tree hread

/-- Every tree that is read is valid. It can be written under any configuration, and it has a value,
whose moments exist. -/
theorem valid_of_fromDocument {input : Given Input} {length : Option ℤ} {config : Given Config}
    {tree : Node} (h : (fromDocument input length config).outcome = .ok (some tree)) :
    tree.Valid ∧
      (∀ writing : Config, ∃ bytes,
        documentBytes (some (.wanted tree)) (.wanted writing) = .ok bytes) ∧
      ∃ value, (valueOfNode (.wanted tree)).outcome = .ok value ∧ value.Regular false := by
  obtain ⟨bytes, -, hread⟩ := Run.outcome_bind_eq_ok.mp h
  obtain ⟨reading, -, hread⟩ := Run.outcome_bind_eq_ok.mp hread
  obtain ⟨cut, -, hread⟩ := Run.outcome_bind_eq_ok.mp hread
  have hvalid : tree.Valid := valid_of_readTree hread
  refine ⟨hvalid, ?_, tree.value, ?_, tree.regular_value hvalid⟩
  · intro writing
    exact ⟨_, documentBytes_of_valid writing hvalid⟩
  · rw [valueOfNode, Value.ofNode_eq (Node.isWritable_of_valid tree hvalid)]

/-- A list of an integer that counts down from 2 to the 64th. -/
theorem valid_of_fromDocument_array :
    (fromDocument (.wanted (.ofBytes (Text.utf8
        (text "<plist><array><integer>-1</integer></array></plist>")))) none
        (.wanted .default)).outcome = .ok (some (.array [.leaf (.integer maxInteger)])) ∧
      Node.Valid (.array [.leaf (.integer maxInteger)]) := by
  have hdocument : Document.ofBytes (Text.utf8
      (text "<plist><array><integer>-1</integer></array></plist>")) =
        .ok ⟨documentTag, [], [.text [], .element (text "array") []
          [.text [], .element (text "integer") [] [.text (text "-1")], .text []], .text []]⟩ := rfl
  have hread : (fromDocument (.wanted (.ofBytes (Text.utf8
      (text "<plist><array><integer>-1</integer></array></plist>")))) none
      (.wanted .default)).outcome = .ok (some (.array [.leaf (.integer maxInteger)])) := by
    have hcut : (Given.wanted (Input.ofBytes _)).cut none = .ok (Text.utf8
      (text "<plist><array><integer>-1</integer></array></plist>")) := rfl
    rw [fromDocument_eq_bind, hcut, Run.ofExcept_ok, pure_bind, readTree_document _ hdocument,
      Document.tree_eq]
    rfl
  exact ⟨hread, (valid_of_fromDocument hread).1⟩

end PropertyList
