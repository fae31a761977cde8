import PropertyList.Document.Exchange
import PropertyList.Proofs.Document.Reader
import PropertyList.Proofs.Leaf.Strict
import PropertyList.Proofs.Markup.Characters

/-! Strict and lenient readers of documents. A lenient reader finds what a strict one finds; where a
strict reader cannot parse a document, a lenient one leaves a notice of the same refusal, and it
leaves such a notice nowhere else. -/
namespace PropertyList
open Markup

theorem readElement_refines (tag : Text) {s : Text} (h : s.isXml = true) :
    (readElement true tag s).Refines (readElement false tag s) := by
  unfold readElement
  split
  · exact (Leaf.decode_refines tag h).bind fun leaf => .of_pure _
  · exact .of_error rfl _

theorem readElement_details (strict : Bool) (tag s : Text) :
    (readElement strict tag s).Details := by
  unfold readElement
  split
  · exact (Leaf.decode_details strict tag s).bind fun leaf => .of_pure _
  · exact fault_or_noting_details strict _ (by trivial) none

namespace Markup

mutual

theorem Item.nodes_refines :
    (item : Item) → item.isXml = true → (item.nodes true).Refines (item.nodes false)
  | .text _, _ => .of_pure []
  | .element tag _ content, h => by
    rw [Item.nodes, Item.nodes]
    cases containerOfTag? tag with
    | some kind => exact (nodesOf_refines content h).bind fun children => .of_pure _
    | none =>
      exact (readElement_refines tag (isXml_innerTextOf content h)).bind fun node => .of_pure _

theorem nodesOf_refines :
    (items : List Item) → areXml items = true → (nodesOf true items).Refines (nodesOf false items)
  | [], _ => .of_pure []
  | item :: rest, h => by
    rw [areXml, Bool.and_eq_true] at h
    rw [nodesOf, nodesOf]
    exact (Item.nodes_refines item h.1).bind fun nodes =>
      (nodesOf_refines rest h.2).bind fun others => .of_pure _

end

mutual

theorem Item.nodes_details (strict : Bool) : (item : Item) → (item.nodes strict).Details
  | .text _ => .of_pure []
  | .element tag _ content => by
    rw [Item.nodes]
    cases containerOfTag? tag with
    | some kind => exact (nodesOf_details strict content).bind fun children => .of_pure _
    | none => exact (readElement_details strict tag _).bind fun node => .of_pure _

theorem nodesOf_details (strict : Bool) : (items : List Item) → (nodesOf strict items).Details
  | [] => .of_pure []
  | item :: rest => by
    rw [nodesOf]
    exact (Item.nodes_details strict item).bind fun nodes =>
      (nodesOf_details strict rest).bind fun others => .of_pure _

end

end Markup

/-- A strict reader admits one node at most, and a lenient one has nothing to add to it. -/
theorem gather_refines (tag : Text) (nodes : List Node) :
    (gather true tag nodes).Refines (gather false tag nodes) := by
  match nodes with
  | [] => exact .of_pure none
  | [root] =>
    rw [gather_singleton, gather_singleton]
    exact .of_pure _
  | _ :: _ :: _ => exact .of_error rfl _

theorem gather_details (strict : Bool) (tag : Text) (nodes : List Node) :
    (gather strict tag nodes).Details := by
  rw [gather_eq]
  unfold gathered
  split
  · exact .of_pure none
  · exact .of_pure _
  · split_ifs
    · exact .of_fail trivial
    · exact .of_pure _
    · constructor
      · intro notice hnotice
        obtain ⟨node, -, rfl⟩ := List.mem_map.mp hnotice
        trivial
      · intro failure hfailure
        cases hfailure

theorem Markup.Document.tree_refines {document : Markup.Document}
    (h : areXml document.content = true) : (document.tree true).Refines (document.tree false) := by
  unfold tree
  simp only [walk_eq_nodesOf]
  split
  · exact .of_error rfl _
  · exact (nodesOf_refines document.content h).bind fun nodes => gather_refines document.name nodes

theorem Markup.Document.tree_details (strict : Bool) (document : Markup.Document) :
    (document.tree strict).Details := by
  unfold tree
  simp only [walk_eq_nodesOf]
  split
  · exact .of_fail trivial
  · exact (nodesOf_details strict document.content).bind fun nodes =>
      gather_details strict document.name nodes

/-- Whether a document is refused for the encoding that it names. -/
def Markup.Refusal.isEncoding : Refusal → Bool
  | .malformed => false
  | .entityDeclared _ _ _ => false
  | _ => true

section ReadTree

variable {input : Bytes} {refusal : Refusal} (config : Config)

theorem readTree_document {document : Markup.Document}
    (h : Document.ofBytes input = .ok document) :
    readTree config input = document.tree config.strict := by
  rw [readTree, h]

theorem readTree_encoding (h : Document.ofBytes input = .error refusal)
    (hencoding : refusal.isEncoding = true) :
    readTree config input = Run.fail (.encoding refusal) := by
  rw [readTree, h]
  cases refusal <;> first | rfl | cases hencoding

theorem readTree_unparsable (h : Document.ofBytes input = .error refusal)
    (hencoding : refusal.isEncoding = false) :
    readTree config input =
      if config.strict then Run.fail (.unparsable refusal input)
      else Run.noting (.unparsable refusal) none := by
  rw [readTree, h]
  cases refusal <;> first | rfl | cases hencoding

/-- A tree was read from a document that could be parsed. -/
theorem exists_document_of_readTree {tree : Node}
    (h : (readTree config input).outcome = .ok (some tree)) :
    ∃ document, Document.ofBytes input = .ok document ∧
      (document.tree config.strict).outcome = .ok (some tree) := by
  cases hdocument : Document.ofBytes input with
  | ok document =>
    rw [readTree_document config hdocument] at h
    exact ⟨document, rfl, h⟩
  | error refusal =>
    cases hencoding : refusal.isEncoding with
    | true =>
      rw [readTree_encoding config hdocument hencoding] at h
      cases h
    | false =>
      rw [readTree_unparsable config hdocument hencoding] at h
      split at h
      · cases h
      · cases h

end ReadTree

theorem readTree_refines (columns : Nat) (input : Bytes) :
    (readTree ⟨true, columns⟩ input).Refines (readTree ⟨false, columns⟩ input) := by
  cases h : Document.ofBytes input with
  | ok document =>
    rw [readTree_document _ h, readTree_document _ h]
    exact Markup.Document.tree_refines (Document.isXml_of_ofBytes h)
  | error refusal =>
    cases hencoding : refusal.isEncoding with
    | true =>
      rw [readTree_encoding _ h hencoding]
      exact .of_error rfl _
    | false =>
      rw [readTree_unparsable _ h hencoding]
      exact .of_error rfl _

/-- Readers differ on a document as a whole if they refuse it, and else on its parts alone. -/
theorem readTree_cases (input : Bytes) :
    (∃ refusal, ∀ config, readTree config input =
        if config.strict then Run.fail (.unparsable refusal input)
        else Run.noting (.unparsable refusal) none) ∨
      ∀ config, (readTree config input).Details := by
  cases h : Document.ofBytes input with
  | ok document =>
    right
    intro config
    rw [readTree_document config h]
    exact Markup.Document.tree_details config.strict document
  | error refusal =>
    cases hencoding : refusal.isEncoding with
    | true =>
      right
      intro config
      rw [readTree_encoding config h hencoding]
      exact .of_fail trivial
    | false => exact .inl ⟨refusal, fun config => readTree_unparsable config h hencoding⟩

theorem readTree_strict_eq_error {columns : Nat} {input raw : Bytes} {refusal : Refusal} :
    (readTree ⟨true, columns⟩ input).outcome = .error (.unparsable refusal raw) ↔
      input = raw ∧ (readTree ⟨false, columns⟩ input).outcome = .ok none ∧
        .unparsable refusal ∈ (readTree ⟨false, columns⟩ input).notices := by
  rcases readTree_cases input with ⟨found, hrefused⟩ | hdetails
  · have hstrict : readTree ⟨true, columns⟩ input = Run.fail (.unparsable found input) :=
      hrefused ⟨true, columns⟩
    have hlenient : readTree ⟨false, columns⟩ input = Run.noting (.unparsable found) none :=
      hrefused ⟨false, columns⟩
    rw [hstrict, hlenient]
    constructor
    · intro hfail
      cases hfail
      exact ⟨rfl, rfl, List.mem_singleton_self _⟩
    · rintro ⟨rfl, -, hnotice⟩
      cases List.mem_singleton.mp hnotice
      rfl
  · constructor
    · intro hfail
      exact ((hdetails ⟨true, columns⟩).failure _ hfail).elim
    · rintro ⟨-, -, hnotice⟩
      exact ((hdetails ⟨false, columns⟩).notice _ hnotice).elim

/-- The bytes of what is given that are read. -/
def Given.cut (input : Given Input) (length : Option Int) : Except Failure Bytes := do
  cutInput (← (← input.get .document).bytes) length

theorem fromDocument_eq_bind (input : Given Input) (length : Option Int) (config : Config) :
    fromDocument input length (.wanted config) =
      Run.ofExcept (input.cut length) >>= readTree config := by
  simp only [fromDocument, Given.cut, Run.ofExcept_bind, bind_assoc]
  rfl

/-- A document that can be parsed is read as its tree. -/
theorem fromDocument_eq_tree {input : Given Input} {length : Option Int} {bytes : Bytes}
    {document : Markup.Document} (hcut : input.cut length = .ok bytes)
    (hdocument : Document.ofBytes bytes = .ok document) (config : Config) :
    fromDocument input length (.wanted config) = document.tree config.strict := by
  rw [fromDocument_eq_bind, hcut, Run.ofExcept_ok, pure_bind, readTree_document config hdocument]

theorem cutInput_details (bytes : Bytes) (length : Option Int) :
    (Run.ofExcept (cutInput bytes length)).Details := by
  unfold cutInput
  split
  · exact .of_pure _
  · split
    · exact .of_fail trivial
    · exact .of_pure _

/-- What is given is refused before it is looked into. -/
theorem Given.cut_details (input : Given Input) (length : Option Int) :
    (Run.ofExcept (input.cut length)).Details := by
  rcases input with (bytes | s) | className
  · exact cutInput_details bytes length
  · rw [Given.cut, Given.get]
    change (Run.ofExcept ((Input.ofText s).bytes >>= fun bytes => cutInput bytes length)).Details
    rw [Run.ofExcept_bind, Input.bytes]
    apply Run.Within.bind
    · cases s.utf8? with
      | ok bytes => exact .of_pure bytes
      | error run => exact .of_fail trivial
    · intro bytes
      exact cutInput_details bytes length
  · exact .of_fail trivial

/-- A lenient reader has the result of a strict one, without any notice. A strict reader cannot
parse the bytes in front of it just if a lenient one finds nothing and leaves a notice of the same
refusal. -/
theorem fromDocument_strict (input : Given Input) (length : Option Int) (columns : Nat) :
    (fromDocument input length (.wanted ⟨true, columns⟩)).Refines
        (fromDocument input length (.wanted ⟨false, columns⟩)) ∧
      ∀ refusal raw,
        (fromDocument input length (.wanted ⟨true, columns⟩)).outcome =
            .error (.unparsable refusal raw) ↔
          input.cut length = .ok raw ∧
            (fromDocument input length (.wanted ⟨false, columns⟩)).outcome = .ok none ∧
            .unparsable refusal ∈
              (fromDocument input length (.wanted ⟨false, columns⟩)).notices := by
  simp only [fromDocument_eq_bind]
  have hcut := Given.cut_details input length
  constructor
  · exact (Run.Refines.of_ofExcept _).bind (readTree_refines columns)
  · intro refusal raw
    cases h : input.cut length with
    | ok bytes =>
      rw [Run.ofExcept_ok, pure_bind, pure_bind, readTree_strict_eq_error, Except.ok.injEq]
    | error failure =>
      rw [h] at hcut
      rw [Run.ofExcept_error, Run.fail_bind]
      constructor
      · intro hfail
        have hsame : failure = .unparsable refusal raw := Except.error.inj hfail
        have hdetail := hcut.failure failure rfl
        rw [hsame] at hdetail
        exact hdetail.elim
      · rintro ⟨hraw, -⟩
        cases hraw

end PropertyList
