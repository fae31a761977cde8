import PropertyList.Proofs.Document.Recursion
import PropertyList.Proofs.Leaf.Kind

/-! Elements and nodes. A strict reader makes a node of every element, in document order, and stops at
an element that it does not know. What lies inside a leaf is part of its text: elements there are no
nodes, whether they are known or not. -/
namespace PropertyList
open Markup

namespace Markup

mutual

/-- The tags of the elements in an item, at every depth, in document order. -/
def Item.tags : Item → List Text
  | .text _ => []
  | .element tag _ content => tag :: tagsOf content

def tagsOf : List Item → List Text
  | [] => []
  | item :: rest => item.tags ++ tagsOf rest

end

theorem tagsOf_append (items more : List Item) :
    tagsOf (items ++ more) = tagsOf items ++ tagsOf more := by
  induction items with
  | nil => rfl
  | cons item items ih => rw [List.cons_append, tagsOf, tagsOf, ih, List.append_assoc]

theorem tagsOf_stripped_container {tag : Text} {kind : ContainerKind}
    (h : containerOfTag? tag = some kind) (attributes : List Attribute) (content : List Item) :
    tagsOf (Item.stripped (.element tag attributes content)) = tag :: tagsOf (strippedOf content) := by
  simp [Item.stripped, h, tagsOf, Item.tags]

theorem tagsOf_stripped_leaf {tag : Text} (h : containerOfTag? tag = none)
    (attributes : List Attribute) (content : List Item) :
    tagsOf (Item.stripped (.element tag attributes content)) = [tag] := by
  simp [Item.stripped, h, tagsOf, Item.tags]

end Markup

namespace Node

mutual

/-- The kinds of the nodes in a tree, in document order, its own kind first. -/
def kinds : Node → List (Option Kind)
  | .leaf l => [some l.kind]
  | .container kind children => some kind.kind :: kindsAll children
  | .bare => [none]

def kindsAll : List Node → List (Option Kind)
  | [] => []
  | node :: rest => node.kinds ++ kindsAll rest

end

mutual

theorem length_kinds : (node : Node) → node.kinds.length = node.count
  | .leaf _ => rfl
  | .container _ children => by rw [kinds, List.length_cons, length_kindsAll children, count]
  | .bare => rfl

theorem length_kindsAll : (nodes : List Node) → (kindsAll nodes).length = countAll nodes
  | [] => rfl
  | node :: rest => by
    rw [kindsAll, List.length_append, length_kinds node, length_kindsAll rest, countAll]

end

theorem kindsAll_append (nodes more : List Node) :
    kindsAll (nodes ++ more) = kindsAll nodes ++ kindsAll more := by
  induction nodes with
  | nil => rfl
  | cons node nodes ih => rw [List.cons_append, kindsAll, kindsAll, ih, List.append_assoc]

theorem kindsAll_singleton (node : Node) : kindsAll [node] = node.kinds := by
  rw [kindsAll, kindsAll, List.append_nil]

/-- Nodes that elements come to: one for each tag, of the kind that the tag stands for. -/
structure AreOf (nodes : List Node) (tags : List Text) : Prop where
  kinds_eq : kindsAll nodes = tags.map kindOfTag?
  known : ∀ tag ∈ tags, (kindOfTag? tag).isSome = true

theorem areOf_nil : AreOf [] [] := ⟨rfl, by simp⟩

theorem AreOf.append {nodes more : List Node} {tags others : List Text} (h : AreOf nodes tags)
    (hmore : AreOf more others) : AreOf (nodes ++ more) (tags ++ others) where
  kinds_eq := by rw [kindsAll_append, h.kinds_eq, hmore.kinds_eq, List.map_append]
  known := by
    intro tag htag
    rcases List.mem_append.mp htag with hfirst | hother
    · exact h.known tag hfirst
    · exact hmore.known tag hother

theorem areOf_leaf {tag : Text} {leaf : Leaf} (h : kindOfTag? tag = some leaf.kind) :
    AreOf [.leaf leaf] [tag] where
  kinds_eq := by simp [kindsAll, kinds, h]
  known := by simp [h]

theorem kindOfTag?_of_container {tag : Text} {kind : ContainerKind}
    (h : containerOfTag? tag = some kind) : kindOfTag? tag = some kind.kind := by
  unfold containerOfTag? at h
  split at h
  · cases h
    assumption
  · cases h
    assumption
  · cases h

theorem AreOf.container {tag : Text} {kind : ContainerKind} {children : List Node}
    {tags : List Text} (h : AreOf children tags) (htag : containerOfTag? tag = some kind) :
    AreOf [.container kind children] (tag :: tags) where
  kinds_eq := by simp [kindsAll, kinds, h.kinds_eq, kindOfTag?_of_container htag]
  known := by
    rw [List.forall_mem_cons, kindOfTag?_of_container htag]
    exact ⟨rfl, h.known⟩

end Node

/-- A strict reader passes over no element. -/
theorem areOf_of_readElement {tag s : Text} (hxml : s.isXml = true)
    (hleaf : containerOfTag? tag = none) {found : Option Node}
    (h : (readElement true tag s).outcome = .ok found) : Node.AreOf found.toList [tag] := by
  cases hkind : kindOfTag? tag with
  | none =>
    rw [readElement, hkind] at h
    cases h
  | some kind =>
    obtain ⟨leaf, -, rfl, rfl⟩ := exists_leaf_of_readElement hxml hkind hleaf h
    exact Node.areOf_leaf hkind

namespace Markup

mutual

theorem Item.areOf_nodes : (item : Item) → item.isXml = true → (nodes : List Node) →
    (item.nodes true).outcome = .ok nodes → Node.AreOf nodes (tagsOf item.stripped)
  | .text _, _, _, h => by
    cases h
    exact Node.areOf_nil
  | .element tag attributes content, hxml, nodes, h => by
    rw [Item.nodes] at h
    cases htag : containerOfTag? tag with
    | some kind =>
      rw [htag] at h
      obtain ⟨children, hchildren, hnodes⟩ := Run.outcome_bind_eq_ok.mp h
      cases hnodes
      rw [tagsOf_stripped_container htag]
      exact (areOf_nodesOf content hxml children hchildren).container htag
    | none =>
      rw [htag] at h
      obtain ⟨found, hfound, hnodes⟩ := Run.outcome_bind_eq_ok.mp h
      cases hnodes
      rw [tagsOf_stripped_leaf htag]
      exact areOf_of_readElement (isXml_innerTextOf content hxml) htag hfound

/-- The nodes that a strict reader finds are the elements that lie inside no leaf. -/
theorem areOf_nodesOf : (items : List Item) → areXml items = true → (nodes : List Node) →
    (nodesOf true items).outcome = .ok nodes → Node.AreOf nodes (tagsOf (strippedOf items))
  | [], _, _, h => by
    cases h
    exact Node.areOf_nil
  | item :: rest, hxml, _, h => by
    rw [areXml, Bool.and_eq_true] at hxml
    rw [nodesOf] at h
    obtain ⟨first, hfirst, hmore⟩ := Run.outcome_bind_eq_ok.mp h
    obtain ⟨others, hothers, hnodes⟩ := Run.outcome_bind_eq_ok.mp hmore
    cases hnodes
    rw [strippedOf, tagsOf_append]
    exact (Item.areOf_nodes item hxml.1 first hfirst).append
      (areOf_nodesOf rest hxml.2 others hothers)

end

end Markup

theorem gathered_strict_eq_ok {tag : Text} {nodes : List Node} {found : Option Node} :
    (gathered true tag nodes).outcome = .ok found ↔ nodes = found.toList := by
  match nodes with
  | [] => cases found <;> simp [gathered]
  | [root] => cases found <;> simp [gathered]
  | _ :: _ :: _ => cases found <;> simp [gathered]

theorem Markup.Document.areOf_tree {document : Markup.Document}
    (hxml : areXml document.content = true) {found : Option Node}
    (h : (document.tree true).outcome = .ok found) :
    Node.AreOf found.toList (tagsOf (strippedOf document.content)) := by
  rw [tree_eq] at h
  split_ifs at h
  · cases h
  · obtain ⟨nodes, hnodes, hgathered⟩ := Run.outcome_bind_eq_ok.mp h
    rw [← gathered_strict_eq_ok.mp hgathered]
    exact areOf_nodesOf document.content hxml nodes hnodes

/-- A strict reader fails at an unknown element, and with a fault unless a leaf breaks it first. -/
theorem Markup.Document.tree_of_unknown {document : Markup.Document}
    (hxml : areXml document.content = true) {tag : Text}
    (htag : tag ∈ tagsOf (strippedOf document.content)) (hunknown : kindOfTag? tag = none) :
    ∃ failure, (document.tree true).outcome = .error failure ∧
      (¬ document.Breaks true → ∃ fault, failure = .undecodable fault) := by
  cases houtcome : (document.tree true).outcome with
  | ok found =>
    have hknown := (areOf_tree hxml houtcome).known tag htag
    rw [hunknown] at hknown
    cases hknown
  | error failure =>
    refine ⟨failure, rfl, ?_⟩
    intro hwhole
    rw [← tree_escapes_iff hxml] at hwhole
    have hdetail := (tree_details true document).failure failure houtcome
    have hannounced : failure.IsAnnounced true := by
      by_contra hescapes
      exact hwhole ⟨failure, houtcome, hescapes⟩
    cases failure with
    | undecodable fault => exact ⟨fault, rfl⟩
    | unparsable refusal input => exact hdetail.elim
    | _ => exact hannounced.elim

/-- The tree that a strict reader finds has one node for each element that lies inside no leaf, in
document order and of the kind of the element, all of which are known. An unknown element that lies
inside no leaf makes it fail, with a fault unless a leaf breaks the reader first. -/
theorem fromDocument_areOf {input : Given Input} {length : Option ℤ} {bytes : Bytes}
    {document : Markup.Document} (hcut : input.cut length = .ok bytes)
    (hdocument : Document.ofBytes bytes = .ok document) (columns : Nat) :
    (∀ tree, (fromDocument input length (.wanted ⟨true, columns⟩)).outcome = .ok (some tree) →
      tree.count = (tagsOf (strippedOf document.content)).length ∧
      tree.kinds = (tagsOf (strippedOf document.content)).map kindOfTag? ∧
      ∀ tag ∈ tagsOf (strippedOf document.content), (kindOfTag? tag).isSome = true) ∧
    ((fromDocument input length (.wanted ⟨true, columns⟩)).outcome = .ok none →
      tagsOf (strippedOf document.content) = []) ∧
    ∀ tag ∈ tagsOf (strippedOf document.content), kindOfTag? tag = none →
      ∃ failure, (fromDocument input length (.wanted ⟨true, columns⟩)).outcome = .error failure ∧
        (¬ document.Breaks true → ∃ fault, failure = .undecodable fault) := by
  have hxml := Document.isXml_of_ofBytes hdocument
  rw [fromDocument_eq_tree hcut hdocument]
  refine ⟨?_, ?_, ?_⟩
  · intro tree htree
    have hare := Document.areOf_tree hxml htree
    have hkinds : tree.kinds = (tagsOf (strippedOf document.content)).map kindOfTag? := by
      rw [← Node.kindsAll_singleton]
      exact hare.kinds_eq
    refine ⟨?_, hkinds, hare.known⟩
    rw [← Node.length_kinds, hkinds, List.length_map]
  · intro hnone
    have hkinds := (Document.areOf_tree hxml hnone).kinds_eq
    exact List.map_eq_nil_iff.mp hkinds.symm
  · intro tag htag hunknown
    exact Document.tree_of_unknown hxml htag hunknown

/-- A list of a text with an unknown element in it, and of a truth value. -/
theorem fromDocument_areOf_array :
    (fromDocument (.wanted (.ofBytes (Text.utf8
        (text "<plist><array><string>a<b>c</b></string><true/></array></plist>")))) none
        (.wanted ⟨true, 60⟩)).outcome =
      .ok (some (.array [.leaf (.string (text "ac")), .leaf (.boolean true)])) ∧
    Node.kinds (.array [.leaf (.string (text "ac")), .leaf (.boolean true)]) =
      [text "array", text "string", text "true"].map kindOfTag? := by
  have hdocument : Document.ofBytes (Text.utf8
      (text "<plist><array><string>a<b>c</b></string><true/></array></plist>")) =
        .ok ⟨documentTag, [], [.text [], .element (text "array") []
          [.text [], .element (text "string") [] [.text (text "a"),
            .element (text "b") [] [.text (text "c")], .text []],
          .text [], .element (text "true") [] [], .text []], .text []]⟩ := rfl
  have hcut : (Given.wanted (Input.ofBytes _)).cut none = .ok (Text.utf8
      (text "<plist><array><string>a<b>c</b></string><true/></array></plist>")) := rfl
  have hread : (fromDocument (.wanted (.ofBytes (Text.utf8
      (text "<plist><array><string>a<b>c</b></string><true/></array></plist>")))) none
      (.wanted ⟨true, 60⟩)).outcome =
        .ok (some (.array [.leaf (.string (text "ac")), .leaf (.boolean true)])) := by
    rw [fromDocument_eq_tree hcut hdocument, Document.tree_eq]
    rfl
  exact ⟨hread, ((fromDocument_areOf hcut hdocument 60).1 _ hread).2.1⟩

/-- Not every element of a document that a strict reader accepts is a node, nor is every one known:
those inside a leaf are neither. -/
theorem not_forall_count_eq_length_tagsOf :
    ¬ ∀ (bytes : Bytes) (columns : Nat) (document : Markup.Document) (tree : Node),
      Document.ofBytes bytes = .ok document →
      (fromDocument (.wanted (.ofBytes bytes)) none (.wanted ⟨true, columns⟩)).outcome =
        .ok (some tree) →
      tree.count = (tagsOf document.content).length ∧
        ∀ tag ∈ tagsOf document.content, (kindOfTag? tag).isSome = true := by
  intro hall
  have hdocument : Document.ofBytes (Text.utf8
      (text "<plist><string>a<b>b</b>c</string></plist>")) =
        .ok ⟨documentTag, [], [.text [], .element (text "string") [] [.text (text "a"),
          .element (text "b") [] [.text (text "b")], .text (text "c")], .text []]⟩ := rfl
  have hcut : (Given.wanted (Input.ofBytes _)).cut none = .ok (Text.utf8
      (text "<plist><string>a<b>b</b>c</string></plist>")) := rfl
  have hread : (fromDocument (.wanted (.ofBytes (Text.utf8
      (text "<plist><string>a<b>b</b>c</string></plist>")))) none (.wanted ⟨true, 60⟩)).outcome =
        .ok (some (.leaf (.string (text "abc")))) := by
    rw [fromDocument_eq_tree hcut hdocument, Document.tree_eq]
    rfl
  have hknown := (hall _ 60 _ _ hdocument hread).2 (text "b") (by decide)
  revert hknown
  decide

end PropertyList
