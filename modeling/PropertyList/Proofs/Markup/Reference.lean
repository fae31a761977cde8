import PropertyList.Document.Writer
import PropertyList.Markup.Reference
import PropertyList.Proofs.Text.Classes

/-! Escaped texts read back. Every character is written as itself or as one reference to itself, and
what is written holds no bracket, so that no markup begins or ends in it. -/
namespace PropertyList

/-- The characters that are written as references. -/
def referredTo : List CodePoint := [ch '&', ch '>', ch '<', ch '\'', ch '"', ch '\r']

theorem escapeChar_of_not_mem {c : CodePoint} (h : c ∉ referredTo) : escapeChar c = [c] := by
  simp only [referredTo, List.mem_cons, List.not_mem_nil, or_false, not_or] at h
  simp [escapeChar, h]

/-- Of the characters that are written as references, only the ampersand is written at all. -/
theorem not_mem_escapeChar {d : CodePoint} (hd : d ∈ referredTo) (hamp : d ≠ ch '&')
    (c : CodePoint) : d ∉ escapeChar c := by
  by_cases h : c ∈ referredTo
  · have hall : ∀ c ∈ referredTo, ∀ d ∈ referredTo, d ≠ ch '&' → d ∉ escapeChar c := by decide
    exact hall c h d hd hamp
  · rw [escapeChar_of_not_mem h, List.mem_singleton]
    rintro rfl
    exact h hd

theorem Text.escaped_cons (c : CodePoint) (s : Text) :
    escaped (c :: s) = escapeChar c ++ s.escaped :=
  List.flatMap_cons

theorem Text.not_mem_escaped {d : CodePoint} (hd : d ∈ referredTo) (hamp : d ≠ ch '&') (s : Text) :
    d ∉ s.escaped := by
  intro h
  obtain ⟨c, -, hc⟩ := List.mem_flatMap.mp h
  exact not_mem_escapeChar hd hamp c hc

/-- Line breaks and tabs, which stand between the elements of a layout. -/
def Text.IsIndent (s : Text) : Prop := ∀ c ∈ s, c = ch '\n' ∨ c = ch '\t'

instance (s : Text) : Decidable s.IsIndent := by unfold Text.IsIndent; infer_instance

theorem Text.isIndent_nil : IsIndent [] := by
  intro c hc
  cases hc

theorem Text.isIndent_tabs (depth : Nat) : (tabs depth).IsIndent :=
  fun _ hc => .inr (List.eq_of_mem_replicate hc)

theorem Text.IsIndent.append {s t : Text} (hs : s.IsIndent) (ht : t.IsIndent) :
    IsIndent (s ++ t) := by
  intro c hc
  rcases List.mem_append.mp hc with h | h
  · exact hs c h
  · exact ht c h

theorem Text.IsIndent.reverse {s : Text} (h : s.IsIndent) : IsIndent s.reverse :=
  fun c hc => h c (List.mem_reverse.mp hc)

/-- Indentation is written as it is. -/
theorem Text.IsIndent.escaped {s : Text} (h : s.IsIndent) : s.escaped = s := by
  induction s with
  | nil => rfl
  | cons c s ih =>
    have hc : escapeChar c = [c] := by
      rcases h c (List.mem_cons_self ..) with rfl | rfl <;> decide
    rw [Text.escaped_cons, hc, ih fun d hd => h d (List.mem_cons_of_mem _ hd),
      List.singleton_append]

namespace Markup

theorem holdsSectionEnd_eq_false {s : Text} (h : ch '>' ∉ s) : holdsSectionEnd s = false := by
  induction s with
  | nil => rfl
  | cons c s ih =>
    have hs : ch '>' ∉ s := fun hmem => h (List.mem_cons_of_mem _ hmem)
    have hend : (s.take 2 == text "]>") = false := by
      rw [beq_eq_false_iff_ne]
      intro heq
      have hmem : ch '>' ∈ s.take 2 := by
        rw [heq]
        decide
      exact hs (List.mem_of_mem_take hmem)
    rw [holdsSectionEnd, hend, Bool.and_false, Bool.false_or, ih hs]

namespace TextRule

/-- A character is read back from what it is written as, whatever follows. -/
theorem readOnto_escapeChar (latin : Bool) {c : CodePoint} (h : isXmlChar c = true)
    (read rest : Text) :
    readOnto latin characterRule none read (escapeChar c ++ rest) =
      readOnto latin characterRule none (c :: read) rest := by
  by_cases hc : c ∈ referredTo
  · simp only [referredTo, List.mem_cons, List.not_mem_nil, or_false] at hc
    rcases hc with rfl | rfl | rfl | rfl | rfl | rfl <;> rfl
  · have hamp : c ≠ ch '&' := fun heq => hc (heq ▸ by decide)
    have hreturn : c ≠ ch '\r' := fun heq => hc (heq ▸ by decide)
    have hliteral : characterRule.literal c = some c := by
      simp [characterRule, h, hreturn]
    rw [escapeChar_of_not_mem hc, List.singleton_append, readOnto]
    simp [hamp, hreturn, hliteral]

theorem readOnto_escaped (latin : Bool) {s : Text} (h : s.isXml = true) (read : Text) :
    readOnto latin characterRule none read s.escaped = some (read.reverse ++ s) := by
  induction s generalizing read with
  | nil => simp [Text.escaped, readOnto]
  | cons c s ih =>
    rw [Text.isXml, List.all_cons, Bool.and_eq_true] at h
    rw [Text.escaped_cons, readOnto_escapeChar latin h.1, ih h.2]
    simp

end TextRule

/-- An escaped text is read back. -/
theorem characterData_escaped (latin : Bool) {s : Text} (h : s.isXml = true) :
    characterData latin s.escaped = some s := by
  have hclosing : ch '>' ∉ s.escaped := Text.not_mem_escaped (by decide) (by decide) s
  rw [characterData, holdsSectionEnd_eq_false hclosing, if_neg (by simp), TextRule.read,
    TextRule.readOnto_escaped latin h, List.reverse_nil, List.nil_append]

theorem characterData_of_isIndent (latin : Bool) {s : Text} (h : s.IsIndent) :
    characterData latin s = some s := by
  have hxml : s.isXml = true := by
    apply List.all_eq_true.mpr
    intro c hc
    rcases h c hc with rfl | rfl <;> decide
  have hread := characterData_escaped latin hxml
  rwa [h.escaped] at hread

end Markup

end PropertyList
