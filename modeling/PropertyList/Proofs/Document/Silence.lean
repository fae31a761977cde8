import PropertyList.Proofs.Document.Recursion
import PropertyList.Proofs.Leaf.Silence

/-! What a lenient reader says of a document that a strict one refuses. The notices of a document are
those of its leaves, one after another, and there are none in front of the first leaf that a strict
reader refuses. -/
namespace PropertyList
open Markup

variable {strict : Bool}

/-- Whether a fault lies in an element, and not in the name of the document or in the number of its
values. -/
def DecodeFault.IsOfElement : DecodeFault → Prop
  | .otherDocument _ => False
  | .secondValue _ => False
  | _ => True

/-- Whether a strict reader fails at markup, at the text of a leaf or at an element. -/
def Failure.IsOfContent : Failure → Prop
  | .unparsable _ _ => True
  | .undecodable fault => fault.IsOfElement
  | _ => False

namespace Run

variable {α β : Type}

theorem discard_eq (run : Run α) : discard run = run >>= fun _ => pure () := rfl

theorem discard_bind (run : Run α) (next : α → Run β) :
    discard (run >>= next) = run >>= fun a => discard (next a) := by
  simp only [discard_eq, bind_assoc]

/-- The notices of a first step stand in front. -/
theorem exists_notices_bind (run : Run α) (next : α → Run β) :
    ∃ more, (run >>= next).notices = run.notices ++ more := by
  rcases run with ⟨notices, failure | a⟩
  · exact ⟨[], by simp [bind_error]⟩
  · exact ⟨(next a).notices, by simp [bind_ok]⟩

theorem notices_discard (run : Run α) : (discard run).notices = run.notices := by
  rcases run with ⟨notices, failure | a⟩
  · rfl
  · simp [discard_eq, bind_ok, pure_def]

end Run

/-- Reads leaves in a row. -/
def readLeaves (strict : Bool) (leaves : List (Text × Text)) : Run Unit :=
  leaves.forM fun leaf => discard (readElement strict leaf.1 leaf.2)

@[simp] theorem readLeaves_nil : readLeaves strict [] = pure () := rfl

theorem readLeaves_cons (leaf : Text × Text) (rest : List (Text × Text)) :
    readLeaves strict (leaf :: rest) = (do
      discard (readElement strict leaf.1 leaf.2)
      readLeaves strict rest) := by
  simp [readLeaves]

theorem readLeaves_append (leaves more : List (Text × Text)) :
    readLeaves strict (leaves ++ more) = (do
      readLeaves strict leaves
      readLeaves strict more) := by
  simp [readLeaves]

/-- A lenient reader has nothing to say of leaves that a strict one reads. -/
theorem readLeaves_lenient {leaves : List (Text × Text)}
    (hxml : ∀ leaf ∈ leaves, leaf.2.isXml = true)
    (hread : ∀ leaf ∈ leaves, ∃ node, (readElement true leaf.1 leaf.2).outcome = .ok node) :
    readLeaves false leaves = pure () := by
  induction leaves with
  | nil => rfl
  | cons leaf rest ih =>
    obtain ⟨node, hnode⟩ := hread leaf (by simp)
    have hlenient := readElement_refines leaf.1 (hxml leaf (by simp)) node hnode
    rw [readLeaves_cons, hlenient, ih (fun l hl => hxml l (by simp [hl]))
      (fun l hl => hread l (by simp [hl]))]
    rfl

namespace Markup

mutual

theorem Item.discard_nodes :
    (item : Item) → discard (item.nodes strict) = readLeaves strict item.leaves
  | .text _ => rfl
  | .element tag _ content => by
    rw [Item.nodes, Item.leaves]
    cases containerOfTag? tag with
    | some kind =>
      rw [← discard_nodesOf content, Run.discard_bind]
      rfl
    | none =>
      rw [Run.discard_bind, readLeaves_cons, readLeaves_nil, Run.discard_eq, bind_assoc]
      rfl

/-- Reading a content is reading its leaves, but for the nodes. -/
theorem discard_nodesOf :
    (items : List Item) → discard (nodesOf strict items) = readLeaves strict (leavesOf items)
  | [] => rfl
  | item :: rest => by
    rw [nodesOf, leavesOf, readLeaves_append, ← Item.discard_nodes item, ← discard_nodesOf rest]
    simp only [Run.discard_eq, bind_assoc, pure_bind]

end

/-- The first leaf that a strict reader refuses is the first one of which a lenient reader may say
something. -/
theorem exists_notices_nodesOf {items : List Item} (hxml : areXml items = true)
    {before after : List (Text × Text)} {tag s : Text}
    (hleaves : leavesOf items = before ++ (tag, s) :: after)
    (hbefore : ∀ leaf ∈ before, ∃ node, (readElement true leaf.1 leaf.2).outcome = .ok node) :
    ∃ more, (nodesOf false items).notices = (readElement false tag s).notices ++ more := by
  have hxmlLeaves := isXml_of_mem_leavesOf items hxml
  rw [hleaves] at hxmlLeaves
  have hquiet : readLeaves false before = pure () :=
    readLeaves_lenient (fun leaf hleaf => hxmlLeaves leaf (by simp [hleaf])) hbefore
  obtain ⟨more, hmore⟩ := Run.exists_notices_bind (discard (readElement false tag s))
    (fun _ => readLeaves false after)
  use more
  rw [← Run.notices_discard, discard_nodesOf, hleaves, readLeaves_append, hquiet, pure_bind,
    readLeaves_cons, hmore, Run.notices_discard]

end Markup

theorem cutInput_eq_error {bytes : Bytes} {length : Option ℤ} {failure : Failure}
    (h : cutInput bytes length = .error failure) : ∃ n, failure = .negativeLength n := by
  unfold cutInput at h
  split at h
  · cases h
  · split at h
    · cases h
      exact ⟨_, rfl⟩
    · cases h

/-- What is given is refused before anything in it is. -/
theorem not_isOfContent_of_cut {input : Given Input} {length : Option ℤ} {failure : Failure}
    (h : input.cut length = .error failure) : ¬ failure.IsOfContent := by
  rcases input with (bytes | s) | className
  · obtain ⟨n, rfl⟩ := cutInput_eq_error h
    exact id
  · change ((Input.ofText s).bytes >>= fun bytes => cutInput bytes length) = .error failure at h
    rw [Input.bytes] at h
    cases hutf8 : s.utf8? with
    | ok bytes =>
      rw [hutf8] at h
      obtain ⟨n, rfl⟩ := cutInput_eq_error h
      exact id
    | error run =>
      rw [hutf8] at h
      cases h
      exact id
  · cases h
    exact id

/-- The first leaf that a strict reader refuses: where it stands among the leaves of a document, and
what a lenient reader says of it. -/
theorem Markup.Document.exists_leaf_of_tree_eq_error {document : Markup.Document}
    (hxml : areXml document.content = true) {failure : Failure}
    (h : (document.tree true).outcome = .error failure) (hcontent : failure.IsOfContent) :
    ∃ before tag s after more, leavesOf document.content = before ++ (tag, s) :: after ∧
      (∀ leaf ∈ before, ∃ node, (readElement true leaf.1 leaf.2).outcome = .ok node) ∧
      (readElement true tag s).outcome = .error failure ∧
      (document.tree false).notices = (readElement false tag s).notices ++ more := by
  rcases tree_eq_error_iff.mp h with
    ⟨-, rfl⟩ | ⟨-, before, tag, s, after, hleaves, hbefore, hfailure⟩ | ⟨-, nodes, -, -, rfl⟩
  · exact hcontent.elim
  · obtain ⟨own, hown⟩ := exists_notices_nodesOf hxml hleaves hbefore
    obtain ⟨more, hmore⟩ :=
      Run.exists_notices_bind (nodesOf false document.content) (gathered false document.name)
    refine ⟨before, tag, s, after, own ++ more, hleaves, hbefore, hfailure, ?_⟩
    rw [tree_eq, Bool.false_and, if_neg Bool.false_ne_true, hmore, hown, List.append_assoc]
  · exact hcontent.elim

/-- A document that can be parsed is refused for a fault. -/
theorem Markup.Document.exists_fault_of_tree_eq_error {document : Markup.Document}
    {failure : Failure} (h : (document.tree true).outcome = .error failure)
    (hcontent : failure.IsOfContent) : ∃ fault, failure = .undecodable fault := by
  have hdetail := (document.tree_details true).failure failure h
  cases failure with
  | undecodable fault => exact ⟨fault, rfl⟩
  | unparsable refusal raw => exact hdetail.elim
  | _ => exact hcontent.elim

/-- A lenient reader leaves one notice of markup that a strict one refuses. Where a strict reader
fails at an element, what a lenient one says first is said of this element, and there is something
said of it unless its text is hidden in one of three ways. -/
theorem fromDocument_notices_of_refused {input : Given Input} {length : Option ℤ}
    {columns : Nat} {failure : Failure}
    (hrefused : (fromDocument input length (.wanted ⟨true, columns⟩)).outcome = .error failure)
    (hcontent : failure.IsOfContent) (columns' : Nat) :
    (∃ refusal raw, failure = .unparsable refusal raw ∧
      fromDocument input length (.wanted ⟨false, columns'⟩) =
        Run.noting (.unparsable refusal) none) ∨
    ∃ fault bytes document before tag s after more, failure = .undecodable fault ∧
      input.cut length = .ok bytes ∧ Document.ofBytes bytes = .ok document ∧
      leavesOf document.content = before ++ (tag, s) :: after ∧
      (∀ leaf ∈ before, ∃ node, (readElement true leaf.1 leaf.2).outcome = .ok node) ∧
      (readElement true tag s).outcome = .error failure ∧
      (fromDocument input length (.wanted ⟨false, columns'⟩)).notices =
        (readElement false tag s).notices ++ more ∧
      ((readElement false tag s).notices = [] ↔ Leaf.Hidden tag s) := by
  cases hcut : input.cut length with
  | error other =>
    rw [fromDocument_eq_bind, hcut] at hrefused
    cases hrefused
    exact absurd hcontent (not_isOfContent_of_cut hcut)
  | ok bytes =>
    cases hdocument : Document.ofBytes bytes with
    | error refusal =>
      simp only [fromDocument_eq_bind, hcut, Run.ofExcept_ok, pure_bind] at hrefused ⊢
      cases hencoding : refusal.isEncoding with
      | true =>
        rw [readTree_encoding _ hdocument hencoding] at hrefused
        cases hrefused
        exact hcontent.elim
      | false =>
        rw [readTree_unparsable _ hdocument hencoding] at hrefused
        cases hrefused
        exact .inl ⟨refusal, bytes, rfl, readTree_unparsable _ hdocument hencoding⟩
    | ok document =>
      right
      rw [fromDocument_eq_tree hcut hdocument] at hrefused
      obtain ⟨fault, rfl⟩ := document.exists_fault_of_tree_eq_error hrefused hcontent
      obtain ⟨before, tag, s, after, more, hleaves, hbefore, hfailure, hnotices⟩ :=
        document.exists_leaf_of_tree_eq_error (Document.isXml_of_ofBytes hdocument) hrefused hcontent
      refine ⟨fault, bytes, document, before, tag, s, after, more, rfl, rfl, hdocument, hleaves,
        hbefore, hfailure, ?_, ?_⟩
      · rw [fromDocument_eq_tree hcut hdocument]
        exact hnotices
      · rw [← readElement_hides_iff]
        constructor
        · exact fun hquiet => ⟨⟨fault, hfailure⟩, hquiet⟩
        · exact fun hhides => hhides.2

/-- An integer with letters behind it: nothing is said of the letters. -/
theorem fromDocument_notices_of_refused_integer :
    Leaf.Hidden (text "integer") (text "12abc") ∧
      fromDocument (.wanted (.ofBytes (Text.utf8
          (text "<plist><integer>12abc</integer></plist>")))) none (.wanted ⟨false, 60⟩) =
        pure (some (.leaf (.integer 12))) := by
  have hdocument : Document.ofBytes (Text.utf8
      (text "<plist><integer>12abc</integer></plist>")) =
        .ok ⟨documentTag, [], [.text [], .element (text "integer") [] [.text (text "12abc")],
          .text []]⟩ := rfl
  have hread (config : Config) : fromDocument (.wanted (.ofBytes (Text.utf8
      (text "<plist><integer>12abc</integer></plist>")))) none (.wanted config) =
        Document.tree config.strict ⟨documentTag, [], [.text [],
          .element (text "integer") [] [.text (text "12abc")], .text []]⟩ :=
    fromDocument_eq_tree rfl hdocument config
  have hrefused : (fromDocument (.wanted (.ofBytes (Text.utf8
      (text "<plist><integer>12abc</integer></plist>")))) none (.wanted ⟨true, 60⟩)).outcome =
        .error (.undecodable (.notUnsigned (text "12abc"))) := by
    rw [hread, Document.tree_eq]
    rfl
  have hlenient : fromDocument (.wanted (.ofBytes (Text.utf8
      (text "<plist><integer>12abc</integer></plist>")))) none (.wanted ⟨false, 60⟩) =
        pure (some (.leaf (.integer 12))) := by
    rw [hread, Document.tree_eq]
    rfl
  refine ⟨?_, hlenient⟩
  rcases fromDocument_notices_of_refused hrefused trivial 60 with
    ⟨refusal, raw, hunparsable, -⟩ |
      ⟨fault, bytes, document, before, tag, s, after, more, -, hcut, hfound, hleaves, -, -,
        hnotices, hhidden⟩
  · cases hunparsable
  · cases hcut
    cases hdocument.symm.trans hfound
    -- the document has one leaf, and so this is the one that is refused
    have hone : before ++ (tag, s) :: after = [(text "integer", text "12abc")] := hleaves.symm
    rcases List.append_eq_singleton_iff.mp hone with ⟨rfl, hleaf⟩ | ⟨-, hnone⟩
    · cases hleaf
      apply hhidden.mp
      rw [hlenient] at hnotices
      exact (List.append_eq_nil_iff.mp hnotices.symm).1
    · cases hnone

end PropertyList
