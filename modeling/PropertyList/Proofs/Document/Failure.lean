import PropertyList.Proofs.Document.Strict
import PropertyList.Proofs.Leaf.Failure

/-! Documents that no reader is prepared for. Apart from the failures that are announced, a reader
fails if the encoding that a document names cannot be used, and at the first leaf that breaks it. -/
namespace PropertyList
open Markup

variable {strict : Bool}

theorem readElement_escapes_iff {tag s : Text} (hxml : s.isXml = true) :
    (readElement strict tag s).Escapes strict ↔ Leaf.Breaks strict tag s := by
  unfold readElement
  split
  · rw [Run.escapes_bind_pure_iff, Leaf.decode_escapes_iff hxml]
  · rename_i hkind
    constructor
    · intro hescapes
      exact absurd hescapes (Run.not_escapes_fault_or_noting _ _ _)
    · intro hbreaks
      rcases hbreaks.kindOfTag? with h | h
      · simp [h] at hkind
      · simp [h] at hkind

namespace Markup

mutual

/-- The tags and texts of the elements in an item that are no containers, in order. -/
def Item.leaves : Item → List (Text × Text)
  | .text _ => []
  | .element tag _ content =>
    match containerOfTag? tag with
    | some _ => leavesOf content
    | none => [(tag, innerTextOf content)]

def leavesOf : List Item → List (Text × Text)
  | [] => []
  | item :: rest => item.leaves ++ leavesOf rest

end

mutual

theorem Item.isXml_of_mem_leaves : (item : Item) → item.isXml = true →
    ∀ leaf ∈ item.leaves, leaf.2.isXml = true
  | .text _, _, _, hleaf => by cases hleaf
  | .element tag _ content, h, leaf, hleaf => by
    rw [Item.leaves] at hleaf
    cases htag : containerOfTag? tag with
    | some kind =>
      rw [htag] at hleaf
      exact isXml_of_mem_leavesOf content h leaf hleaf
    | none =>
      rw [htag] at hleaf
      rw [List.mem_singleton.mp hleaf]
      exact isXml_innerTextOf content h

theorem isXml_of_mem_leavesOf : (items : List Item) → areXml items = true →
    ∀ leaf ∈ leavesOf items, leaf.2.isXml = true
  | [], _, _, hleaf => by cases hleaf
  | item :: rest, h, leaf, hleaf => by
    rw [areXml, Bool.and_eq_true] at h
    rcases List.mem_append.mp hleaf with hfirst | hmore
    · exact Item.isXml_of_mem_leaves item h.1 leaf hfirst
    · exact isXml_of_mem_leavesOf rest h.2 leaf hmore

end

mutual

theorem Item.failure?_nodes : (item : Item) → (item.nodes strict).failure? =
    item.leaves.findSome? fun leaf => (readElement strict leaf.1 leaf.2).failure?
  | .text _ => rfl
  | .element tag _ content => by
    rw [Item.nodes, Item.leaves]
    cases containerOfTag? tag with
    | some kind => exact (Run.failure?_bind_pure _ _).trans (failure?_nodesOf content)
    | none =>
      rw [Run.failure?_bind_pure, List.findSome?_singleton]

/-- The first leaf that fails decides how a content fails. -/
theorem failure?_nodesOf : (items : List Item) → (nodesOf strict items).failure? =
    (leavesOf items).findSome? fun leaf => (readElement strict leaf.1 leaf.2).failure?
  | [] => rfl
  | item :: rest => by
    rw [nodesOf, leavesOf, List.findSome?_append, ← Item.failure?_nodes item,
      ← failure?_nodesOf rest]
    exact Run.failure?_bind_of_forall fun nodes => Run.failure?_bind_pure _ _

end

/-- A content fails as the first leaf that fails, every leaf in front of which is read. -/
theorem nodesOf_eq_error_iff {items : List Item} {failure : Failure} :
    (nodesOf strict items).outcome = .error failure ↔
      ∃ before tag s after, leavesOf items = before ++ (tag, s) :: after ∧
        (∀ leaf ∈ before, ∃ node, (readElement strict leaf.1 leaf.2).outcome = .ok node) ∧
        (readElement strict tag s).outcome = .error failure := by
  simp only [← Run.failure?_eq_some, ← Run.failure?_eq_none, failure?_nodesOf,
    List.findSome?_eq_some_iff]
  constructor
  · rintro ⟨before, ⟨tag, s⟩, after, hleaves, hfailure, hbefore⟩
    exact ⟨before, tag, s, after, hleaves, hbefore, hfailure⟩
  · rintro ⟨before, tag, s, after, hleaves, hbefore, hfailure⟩
    exact ⟨before, (tag, s), after, hleaves, hfailure, hbefore⟩

theorem nodesOf_escapes_iff {items : List Item} (h : areXml items = true) :
    (nodesOf strict items).Escapes strict ↔
      ∃ before tag s after, leavesOf items = before ++ (tag, s) :: after ∧
        (∀ leaf ∈ before, ∃ node, (readElement strict leaf.1 leaf.2).outcome = .ok node) ∧
        Leaf.Breaks strict tag s := by
  have hxml := isXml_of_mem_leavesOf items h
  simp only [Run.Escapes, nodesOf_eq_error_iff]
  constructor
  · rintro ⟨failure, ⟨before, tag, s, after, hleaves, hbefore, hfailure⟩, hescapes⟩
    rw [hleaves] at hxml
    refine ⟨before, tag, s, after, hleaves, hbefore, ?_⟩
    rw [← readElement_escapes_iff (hxml (tag, s) (by simp))]
    exact ⟨failure, hfailure, hescapes⟩
  · rintro ⟨before, tag, s, after, hleaves, hbefore, hbreaks⟩
    rw [hleaves] at hxml
    rw [← readElement_escapes_iff (hxml (tag, s) (by simp))] at hbreaks
    obtain ⟨failure, hfailure, hescapes⟩ := hbreaks
    exact ⟨failure, ⟨before, tag, s, after, hleaves, hbefore, hfailure⟩, hescapes⟩

end Markup

theorem not_escapes_gather (tag : Text) (nodes : List Node) :
    ¬ (gather strict tag nodes).Escapes strict := by
  rw [gather_eq]
  unfold gathered
  split
  · exact Run.not_escapes_of_ok rfl
  · exact Run.not_escapes_of_ok rfl
  · split_ifs with hstrict
    · rw [hstrict]
      exact Run.not_escapes_fault _
    · exact Run.not_escapes_of_ok rfl
    · exact Run.not_escapes_of_ok rfl

/-- Whether a leaf of a document breaks a reader who comes to it: every leaf in front of it is read,
and a strict reader goes into no other document than a property list. -/
def Markup.Document.Breaks (strict : Bool) (document : Markup.Document) : Prop :=
  (strict = true → document.name = documentTag) ∧
    ∃ before tag s after, leavesOf document.content = before ++ (tag, s) :: after ∧
      (∀ leaf ∈ before, ∃ node, (readElement strict leaf.1 leaf.2).outcome = .ok node) ∧
      Leaf.Breaks strict tag s

theorem Markup.Document.tree_escapes_iff {document : Markup.Document}
    (h : areXml document.content = true) :
    (document.tree strict).Escapes strict ↔ document.Breaks strict := by
  rw [Breaks, ← nodesOf_escapes_iff h, tree]
  by_cases hother : (strict && document.name != documentTag) = true
  · rw [if_pos hother]
    simp only [Bool.and_eq_true, bne_iff_ne] at hother
    obtain ⟨rfl, hname⟩ := hother
    constructor
    · intro hescapes
      exact absurd hescapes (Run.not_escapes_fault _)
    · rintro ⟨hplist, -⟩
      exact absurd (hplist rfl) hname
  · rw [if_neg hother, walk_eq_nodesOf, Run.escapes_bind_iff]
    have hplist : strict = true → document.name = documentTag := by
      intro hstrict
      simpa [hstrict] using hother
    constructor
    · rintro (hescapes | ⟨nodes, -, hescapes⟩)
      · exact ⟨hplist, hescapes⟩
      · exact absurd hescapes (not_escapes_gather document.name nodes)
    · rintro ⟨-, hescapes⟩
      exact .inl hescapes

theorem readTree_escapes_iff {config : Config} {input : Bytes} :
    (readTree config input).Escapes config.strict ↔
      (∃ refusal, Document.ofBytes input = .error refusal ∧ refusal.isEncoding = true) ∨
        ∃ document, Document.ofBytes input = .ok document ∧ document.Breaks config.strict := by
  cases h : Document.ofBytes input with
  | ok document =>
    rw [readTree_document config h, Document.tree_escapes_iff (Document.isXml_of_ofBytes h)]
    simp
  | error refusal =>
    cases hencoding : refusal.isEncoding with
    | true =>
      rw [readTree_encoding config h hencoding]
      simpa [hencoding] using Run.escapes_fail_iff.mpr id
    | false =>
      rw [readTree_unparsable config h hencoding]
      constructor
      · intro hescapes
        split at hescapes
        · rename_i hstrict
          rw [hstrict] at hescapes
          exact absurd rfl (Run.escapes_fail_iff.mp hescapes)
        · exact absurd hescapes (Run.not_escapes_of_ok rfl)
      · rintro (⟨found, hfound, hfoundencoding⟩ | ⟨document, hdocument, -⟩)
        · cases hfound
          rw [hencoding] at hfoundencoding
          cases hfoundencoding
        · cases hdocument

/-- Lenient readers fail, and strict readers fail otherwise than they announce, for two reasons and
no other: the encoding that a document names cannot be used, or a leaf of the document breaks the
reader. -/
theorem fromDocument_escapes_iff (bytes : Bytes) (length : Option Nat) (config : Config) :
    (fromDocument (.wanted (.ofBytes bytes)) (length.map Int.ofNat) (.wanted config)).Escapes
        config.strict ↔
      (∃ refusal, Document.ofBytes (length.elim bytes (bytes.take ·)) = .error refusal ∧
        refusal.isEncoding = true) ∨
        ∃ document, Document.ofBytes (length.elim bytes (bytes.take ·)) = .ok document ∧
          document.Breaks config.strict := by
  have hcut : (Given.wanted (Input.ofBytes bytes)).cut (length.map Int.ofNat) =
      .ok (length.elim bytes (bytes.take ·)) := by
    cases length with
    | none => rfl
    | some n => exact cutInput_natCast bytes n
  rw [fromDocument_eq_bind, hcut, Run.ofExcept_ok, pure_bind, readTree_escapes_iff]

set_option maxRecDepth 4000 in
/-- The small letter i without a dot. -/
example : (fromDocument
    (.wanted (.ofBytes (Text.utf8 (text "<plist><real>" ++ 0x131 :: text "nf</real></plist>"))))
    none (.wanted .default)).failure? = some (.unreadableReal (0x131 :: text "nf")) := by
  decide +kernel

end PropertyList
