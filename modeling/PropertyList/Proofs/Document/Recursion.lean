import PropertyList.Proofs.Document.Failure

/-! Readers as recursions. A document comes to the nodes that recursion gives for its content, put
together. Text between elements does not count, nor do attributes and what elements lie inside a
leaf. -/
namespace PropertyList
open Markup

variable {strict : Bool}

namespace Markup

mutual

/-- An item without what does not count: a text is left out, a container has the elements in it
alone, and any other element has all text inside it. -/
def Item.stripped : Item → List Item
  | .text _ => []
  | .element tag _ content =>
    match containerOfTag? tag with
    | some _ => [.element tag [] (strippedOf content)]
    | none => [.element tag [] [.text (innerTextOf content)]]

def strippedOf : List Item → List Item
  | [] => []
  | item :: rest => item.stripped ++ strippedOf rest

end

mutual

theorem nodesOf_stripped : (item : Item) → nodesOf strict item.stripped = item.nodes strict
  | .text _ => by rw [Item.stripped, nodesOf, Item.nodes]
  | .element tag attributes content => by
    rw [Item.stripped, Item.nodes]
    cases h : containerOfTag? tag with
    | some kind =>
      simp only [nodesOf_container h, nodesOf_strippedOf content, nodesOf_nil, pure_bind]
    | none =>
      have htext : innerTextOf [.text (innerTextOf content)] = innerTextOf content := by
        rw [innerTextOf, innerTextOf, Item.innerText, List.append_nil]
      simp only [nodesOf_leaf h, htext, nodesOf_nil, pure_bind, List.append_nil]

/-- What does not count changes nothing. -/
theorem nodesOf_strippedOf : (items : List Item) →
    nodesOf strict (strippedOf items) = nodesOf strict items
  | [] => by rw [strippedOf]
  | item :: rest => by
    rw [strippedOf, nodesOf_append, nodesOf_stripped item, nodesOf_strippedOf rest, nodesOf]

end

end Markup

theorem Markup.Document.tree_eq (document : Markup.Document) :
    document.tree strict =
      if strict && document.name != documentTag then Run.fault (.otherDocument document.name)
      else nodesOf strict document.content >>= gathered strict document.name := by
  simp only [tree, walk_eq_nodesOf, gather_eq]

theorem Markup.Document.tree_congr {document other : Markup.Document}
    (hname : other.name = document.name)
    (hcontent : strippedOf other.content = strippedOf document.content) :
    other.tree strict = document.tree strict := by
  rw [tree_eq, tree_eq, hname, ← nodesOf_strippedOf other.content, hcontent, nodesOf_strippedOf]

/-- A strict reader admits one node at most. -/
theorem gathered_eq_error_iff {tag : Text} {nodes : List Node} {failure : Failure} :
    (gathered true tag nodes).outcome = .error failure ↔
      1 < nodes.length ∧ failure = .undecodable (.secondValue tag) := by
  match nodes with
  | [] => simp [gathered]
  | [_] => simp [gathered]
  | _ :: _ :: _ => simp [gathered, eq_comm]

theorem Markup.Document.tree_eq_error_iff {document : Markup.Document} {failure : Failure} :
    (document.tree true).outcome = .error failure ↔
      (document.name ≠ documentTag ∧
        failure = .undecodable (.otherDocument document.name)) ∨
      (document.name = documentTag ∧
        ∃ before tag s after, leavesOf document.content = before ++ (tag, s) :: after ∧
          (∀ leaf ∈ before, ∃ node, (readElement true leaf.1 leaf.2).outcome = .ok node) ∧
          (readElement true tag s).outcome = .error failure) ∨
      (document.name = documentTag ∧
        ∃ nodes, (nodesOf true document.content).outcome = .ok nodes ∧ 1 < nodes.length ∧
          failure = .undecodable (.secondValue document.name)) := by
  rw [tree_eq, ← nodesOf_eq_error_iff]
  by_cases hname : document.name = documentTag
  · rw [if_neg (by simp [hname]), Run.outcome_bind_eq_error]
    simp only [gathered_eq_error_iff, hname, ne_eq, not_true_eq_false, false_and, true_and,
      false_or]
  · rw [if_pos (by simp [hname])]
    simp [hname, eq_comm]

/-- A document is read as the recursion over its content says. A strict reader fails at a document
of another name, else at the first leaf that fails, and else at a second node. Whatever document has
the same elements is read in the same way. -/
theorem fromDocument_eq_gathered {input : Given Input} {length : Option ℤ} {bytes : Bytes}
    {document : Markup.Document} (hcut : input.cut length = .ok bytes)
    (hdocument : Document.ofBytes bytes = .ok document) :
    (∀ config : Config, fromDocument input length (.wanted config) =
      if config.strict && document.name != documentTag then
        Run.fault (.otherDocument document.name)
      else nodesOf config.strict document.content >>= gathered config.strict document.name) ∧
    (∀ columns failure,
      (fromDocument input length (.wanted ⟨true, columns⟩)).outcome = .error failure ↔
        (document.name ≠ documentTag ∧
          failure = .undecodable (.otherDocument document.name)) ∨
        (document.name = documentTag ∧
          ∃ before tag s after, leavesOf document.content = before ++ (tag, s) :: after ∧
            (∀ leaf ∈ before, ∃ node, (readElement true leaf.1 leaf.2).outcome = .ok node) ∧
            (readElement true tag s).outcome = .error failure) ∨
        (document.name = documentTag ∧
          ∃ nodes, (nodesOf true document.content).outcome = .ok nodes ∧ 1 < nodes.length ∧
            failure = .undecodable (.secondValue document.name))) ∧
    ∀ (input' : Given Input) (length' : Option ℤ) (bytes' : Bytes) (other : Markup.Document),
      input'.cut length' = .ok bytes' → Document.ofBytes bytes' = .ok other →
        other.name = document.name → strippedOf other.content = strippedOf document.content →
          ∀ config : Config, fromDocument input' length' (.wanted config) =
            fromDocument input length (.wanted config) := by
  have htree (input : Given Input) (length : Option ℤ) (bytes : Bytes) (document : Markup.Document)
      (hcut : input.cut length = .ok bytes) (hdocument : Document.ofBytes bytes = .ok document)
      (config : Config) :
      fromDocument input length (.wanted config) = document.tree config.strict := by
    rw [fromDocument_eq_bind, hcut, Run.ofExcept_ok, pure_bind, readTree_document config hdocument]
  refine ⟨?_, ?_, ?_⟩
  · intro config
    rw [htree input length bytes document hcut hdocument, Document.tree_eq]
  · intro columns failure
    rw [htree input length bytes document hcut hdocument, Document.tree_eq_error_iff]
  · intro input' length' bytes' other hcut' hother hname hcontent config
    rw [htree input' length' bytes' other hcut' hother, Document.tree_congr hname hcontent,
      htree input length bytes document hcut hdocument]

/-- A list with a further value behind it, with and without attributes and text that do not count. -/
theorem fromDocument_eq_gathered_array :
    fromDocument (.wanted (.ofBytes (Text.utf8
        (text "<plist a='b'>x<array c='d'>y<true/></array><false/></plist>")))) none
        (.wanted ⟨false, 60⟩) =
      pure (some (.array [.leaf (.boolean true), .leaf (.boolean false)])) ∧
    (fromDocument (.wanted (.ofBytes (Text.utf8
        (text "<plist a='b'>x<array c='d'>y<true/></array><false/></plist>")))) none
        (.wanted ⟨true, 60⟩)).outcome = .error (.undecodable (.secondValue (text "plist"))) ∧
    ∀ config : Config, fromDocument (.wanted (.ofBytes (Text.utf8
        (text "<plist><array><true/></array><false/></plist>")))) none (.wanted config) =
      fromDocument (.wanted (.ofBytes (Text.utf8
        (text "<plist a='b'>x<array c='d'>y<true/></array><false/></plist>")))) none
        (.wanted config) := by
  have hdocument : Document.ofBytes (Text.utf8
      (text "<plist a='b'>x<array c='d'>y<true/></array><false/></plist>")) =
      .ok ⟨documentTag, [⟨text "a", text "b"⟩], [.text (text "x"),
        .element (text "array") [⟨text "c", text "d"⟩]
          [.text (text "y"), .element (text "true") [] [], .text []],
        .text [], .element (text "false") [] [], .text []]⟩ := rfl
  have hother : Document.ofBytes (Text.utf8
      (text "<plist><array><true/></array><false/></plist>")) =
      .ok ⟨documentTag, [], [.text [],
        .element (text "array") [] [.text [], .element (text "true") [] [], .text []],
        .text [], .element (text "false") [] [], .text []]⟩ := rfl
  have hcut : (Given.wanted (Input.ofBytes _)).cut none = .ok (Text.utf8
      (text "<plist a='b'>x<array c='d'>y<true/></array><false/></plist>")) := rfl
  obtain ⟨hread, hfail, hsame⟩ := fromDocument_eq_gathered hcut hdocument
  refine ⟨hread _, (hfail _ _).mpr (.inr (.inr ⟨rfl, _, rfl, ?_, rfl⟩)), ?_⟩
  · decide
  · exact hsame _ none _ _ rfl hother rfl rfl

end PropertyList
