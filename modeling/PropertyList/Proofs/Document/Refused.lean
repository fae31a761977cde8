import PropertyList.Proofs.Document.Strict

/-! Refused documents. Once a document is decoded, its encoding is no reason any more to refuse it,
so that a reader takes every further refusal for a document that it cannot parse. -/
namespace PropertyList
open Markup

namespace Markup

/-- Whether a step refuses a document for what is in it and not for its encoding. -/
def RefusesContent {α : Type} (found : Except Refusal α) : Prop :=
  ∀ refusal, found = .error refusal → refusal.isEncoding = false

namespace RefusesContent

variable {α β : Type}

theorem of_ok (a : α) : RefusesContent (.ok a) := by
  intro refusal hrefusal
  cases hrefusal

theorem of_error {refusal : Refusal} (h : refusal.isEncoding = false) :
    RefusesContent (.error refusal : Except Refusal α) := by
  intro other hother
  cases hother
  exact h

theorem malformed : RefusesContent (.error .malformed : Except Refusal α) := of_error rfl

/-- A check that fails makes a document malformed. -/
theorem of_check (passes : Bool) (a : α) :
    RefusesContent (if passes then .ok a else .error .malformed : Except Refusal α) := by
  cases passes
  · exact malformed
  · exact of_ok a

theorem bind {found : Except Refusal α} {next : α → Except Refusal β} (h : RefusesContent found)
    (hnext : ∀ a, RefusesContent (next a)) : RefusesContent (found >>= next) := by
  cases found with
  | error refusal => exact of_error (h refusal rfl)
  | ok a => exact hnext a

end RefusesContent

open RefusesContent

theorem EntityDeclaration.isEncoding_refusal? {latin : Bool} {declaration : EntityDeclaration}
    {refusal : Refusal} (h : declaration.refusal? latin = some refusal) :
    refusal.isEncoding = false := by
  unfold refusal? at h
  split at h
  · split at h
    · split at h
      · cases h
        rfl
      · cases h
    · cases h
  · cases h
    rfl

namespace Declared

variable (context : DocumentContext) (declared : Declared)

theorem refusesContent_entity (closed : Bool) (tokens : List PrologToken) :
    RefusesContent (entity context declared closed tokens) := by
  unfold entity
  split
  · split
    · exact malformed
    · exact of_ok ()
  · split
    · split
      · rename_i refusal hrefusal
        exact of_error (EntityDeclaration.isEncoding_refusal? hrefusal)
      · exact of_ok ()
    · exact of_ok ()

theorem refusesContent_attributeList (tokens : List PrologToken) :
    RefusesContent (attributeList context declared tokens) := by
  unfold attributeList
  split
  · split
    · exact malformed
    · split
      · exact malformed
      · split
        · exact of_ok declared
        · split
          · exact malformed
          · exact of_ok _
  · exact malformed

theorem refusesContent_declare (keyword : Text) (tokens : List PrologToken) :
    RefusesContent (declare context declared keyword tokens) := by
  unfold declare
  split
  · intro refusal hrefusal
    cases hentity : entity context declared true tokens with
    | ok found =>
      rw [hentity] at hrefusal
      cases hrefusal
    | error other =>
      rw [hentity] at hrefusal
      cases hrefusal
      exact refusesContent_entity context declared true tokens _ hentity
  · split
    · exact refusesContent_attributeList context declared tokens
    · exact of_check _ declared

theorem refusesContent_read (opened : Option (Text × List PrologToken))
    (tokens : List PrologToken) : RefusesContent (read context declared opened tokens) := by
  fun_induction read context declared opened tokens with
  | case1 => exact malformed
  | case2 _ _ ih => exact ih
  | case3 _ _ ih => exact ih
  | case4 _ _ _ ih => exact ih
  | case5 => exact of_ok _
  | case6 => exact malformed
  | case7 declared keyword tokens rest refusal hdeclare =>
    exact of_error (refusesContent_declare context declared keyword tokens.reverse refusal hdeclare)
  | case8 _ _ _ _ _ _ ih => exact ih
  | case9 => exact malformed
  | case10 declared keyword tokens rest _ _ refusal hentity =>
    exact of_error (refusesContent_entity context declared false _ refusal hentity)
  | case11 _ _ _ _ _ _ _ _ ih => exact ih
  | case12 _ _ _ _ _ _ _ ih => exact ih

end Declared

namespace AttributePolicy

variable (context : DocumentContext)

theorem refusesContent_ofSubset (external : Bool) (tokens : List PrologToken) :
    RefusesContent (ofSubset context external tokens) := by
  unfold ofSubset
  dsimp only
  split
  · exact of_check _ _
  · apply RefusesContent.bind (Declared.refusesContent_read context _ _ _)
    rintro ⟨declared, rest⟩
    dsimp only
    split
    · exact of_check _ _
    · exact malformed
  · exact malformed

theorem refusesContent_ofDocumentType (tokens : List PrologToken) :
    RefusesContent (ofDocumentType context tokens) := by
  unfold ofDocumentType
  split
  · split
    · exact malformed
    · split
      · split
        · exact refusesContent_ofSubset context true _
        · split
          · split
            · exact refusesContent_ofSubset context true _
            · exact malformed
          · exact malformed
      · exact refusesContent_ofSubset context false _
  · exact malformed

theorem refusesContent_ofProlog (tokens : List PrologToken) :
    RefusesContent (ofProlog context tokens) := by
  unfold ofProlog
  split
  · exact of_ok _
  · split
    · exact refusesContent_ofDocumentType context _
    · exact malformed
  · exact malformed

end AttributePolicy

theorem Source.refusesContent_document (source : Source) : RefusesContent source.document := by
  rw [Source.document_eq]
  split
  · rename_i refusal hrefusal
    exact of_error (AttributePolicy.refusesContent_ofProlog _ _ refusal hrefusal)
  · split
    · exact of_ok _
    · exact malformed

end Markup

/-- The run of a reader who has decoded an input. -/
def Markup.Source.tree (source : Source) (config : Config) (input : Bytes) : Run (Option Node) :=
  match source.document with
  | .ok document => document.tree config.strict
  | .error refusal =>
    if config.strict then Run.fail (.unparsable refusal input)
    else Run.noting (.unparsable refusal) none

/-- A reader who has decoded a document fails for no encoding. -/
theorem readTree_eq_tree {input : Bytes} {source : Source} (h : Source.ofBytes input = .ok source)
    (config : Config) : readTree config input = source.tree config input := by
  have hbytes : Document.ofBytes input = source.document := by
    rw [Document.ofBytes, h]
    rfl
  cases hdocument : source.document with
  | ok document =>
    rw [Source.tree, hdocument]
    exact readTree_document config (hbytes.trans hdocument)
  | error refusal =>
    rw [Source.tree, hdocument]
    exact readTree_unparsable config (hbytes.trans hdocument)
      (source.refusesContent_document refusal hdocument)

end PropertyList
