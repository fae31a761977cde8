import PropertyList.Proofs.Leaf.IntegerFront

/-! What a strict reader of integers accepts: one numeral between blanks, behind a plus sign or none,
that 64 bits can hold. -/
namespace PropertyList

/-- Blanks, a plus sign or none, a numeral that denotes `m`, and blanks. -/
def Text.IsUnsigned (s numeral : Text) (m : ℕ) : Prop :=
  numeral.IsNumeral m ∧ ∃ sign ∈ [[], text "+"], ∃ before after : Text,
    before.IsBlank ∧ after.IsBlank ∧ s = before ++ (sign ++ (numeral ++ after))

theorem isHexDigit_bounds {c : ℕ} (h : isHexDigit c = true) : 0x21 ≤ c ∧ c ≤ 0x7E := by
  simp [isHexDigit, isDigit, CodePoint, ch] at h
  omega

theorem isOctalDigit_bounds {c : ℕ} (h : isOctalDigit c = true) : 0x21 ≤ c ∧ c ≤ 0x7E := by
  simp [isOctalDigit, CodePoint, ch] at h
  omega

theorem Text.IsNumeral.isGraphic {numeral : Text} {m : ℕ} (h : numeral.IsNumeral m) :
    numeral.IsGraphic := by
  cases h with
  | hexadecimal hx _ hall =>
    have hletter : ∀ x : ℕ, x = ch 'x' ∨ x = ch 'X' → 0x21 ≤ x ∧ x ≤ 0x7E := by
      rintro x (rfl | rfl) <;> decide
    exact .cons (by decide) (.cons (hletter _ hx) fun c hc => isHexDigit_bounds (hall c hc))
  | octal hall => exact .cons (by decide) fun c hc => isOctalDigit_bounds (hall c hc)
  | decimal _ hall => exact isGraphic_of_isDigit hall

theorem Text.IsUnsigned.exists_opens {s numeral : Text} {m : ℕ} (h : s.IsUnsigned numeral m) :
    ∃ sign after, s.Opens sign numeral after ∧ after.IsBlank ∧ (sign == text "-") = false := by
  obtain ⟨-, sign, hsign, before, after, hbefore, hafter, hs⟩ := h
  have hplain : sign ∈ signs ∧ (sign == text "-") = false := by
    rcases List.mem_pair.mp hsign with rfl | rfl <;> decide
  exact ⟨sign, after, ⟨hplain.1, before, hbefore, hs⟩, hafter, hplain.2⟩

/-- The numeral that blanks and at most a plus sign surround is the longest one in front. -/
theorem Text.LongestInteger.isUnsigned_iff {s sign numeral rest numeral' : Text} {m n : ℕ}
    (h : s.LongestInteger sign numeral rest m) :
    s.IsUnsigned numeral' n ↔
      (rest.IsBlank ∧ sign ≠ text "-") ∧ numeral' = numeral ∧ n = m := by
  constructor
  · intro hunsigned
    obtain ⟨plus, after, hopens, hafter, hplus⟩ := hunsigned.exists_opens
    have hsplit := h.isNumeral.splitSign h.opens
    rw [hunsigned.1.splitSign hopens, hplus, Prod.mk.injEq] at hsplit
    have hrest := h.longest hopens hunsigned.1
    have hsame : numeral' = numeral ∧ after = rest := by
      rcases List.append_eq_append_iff.mp hsplit.2 with ⟨more, hnumeral, hmore⟩ | ⟨more, -, hmore⟩
      · -- what the longest numeral has on top stands among the blanks
        cases more with
        | nil => simp_all
        | cons c more =>
          have hgraphic := h.isNumeral.isGraphic.isBlank_eq_false c (by simp [hnumeral])
          rw [hafter c (by simp [hmore])] at hgraphic
          cases hgraphic
      · have hnil : more = [] := by
          apply List.eq_nil_of_length_eq_zero
          rw [hmore, List.length_append] at hrest
          omega
        simp_all
    obtain ⟨rfl, rfl⟩ := hsame
    exact ⟨⟨hafter, beq_eq_false_iff_ne.mp hsplit.1.symm⟩, rfl,
      hunsigned.1.eq_of_isNumeral h.isNumeral⟩
  · rintro ⟨⟨hrest, hsign⟩, rfl, rfl⟩
    obtain ⟨hmem, before, hbefore, rfl⟩ := h.opens
    refine ⟨h.isNumeral, sign, ?_, before, rest, hbefore, hrest, rfl⟩
    simpa [signs, hsign] using hmem

namespace IntegerFront

theorem isWhole_iff {front : IntegerFront} :
    front.isWhole = true ↔ front.rest.IsBlank ∧ front.negative = false := by
  simp [isWhole, Text.IsBlank]

theorem not_isUnsigned_of_ofText? {s numeral : Text} {m : ℕ} (h : ofText? s = none) :
    ¬ s.IsUnsigned numeral m := by
  intro hunsigned
  obtain ⟨sign, after, hopens, -⟩ := hunsigned.exists_opens
  obtain ⟨c, digits, rfl, hc⟩ := hunsigned.1.exists_cons
  have hplain := ofText?_eq_none h (hunsigned.1.splitSign hopens)
  rw [hc] at hplain
  cases hplain

end IntegerFront

/-- A strict reader asks first whether the numeral stands alone, then how long it is, and last
whether 64 bits can hold it. -/
theorem decodeInteger_strict_of_front {s : Text} {front : IntegerFront}
    (h : IntegerFront.ofText? s = some front) :
    decodeInteger true s =
      if front.isWhole then
        if front.isTooLong then Run.fail (.hugeNumeral front.digits.length)
        else if front.magnitude ≤ maxInteger then pure front.magnitude
        else Run.fault (.integerRange s)
      else Run.fault (.notUnsigned s) := by
  by_cases hwhole : front.isWhole = true
  · have hplain : front.negative = false := (IntegerFront.isWhole_iff.mp hwhole).2
    simp [decodeInteger, h, hwhole, hplain, wrap]
  · simp [decodeInteger, h, hwhole]

/-- A strict reader gives the number of a numeral that stands alone between blanks, behind a plus
sign or none, if 64 bits can hold it. Every other text is a fault, but for a decimal numeral of too
many digits in such a place. -/
theorem decodeInteger_strict_eq_ok_iff (s : Text) :
    (∀ n, (decodeInteger true s).outcome = .ok n ↔
      ∃ numeral, s.IsUnsigned numeral n ∧ ¬ numeral.IsHugeNumeral ∧ n ≤ 2 ^ 64 - 1) ∧
    ((∃ n, decodeInteger true s = pure n) ∨
      (∃ fault, decodeInteger true s = Run.fault fault ∧ fault.tag = text "integer" ∧
        fault.content? = some s) ∨
      ∃ numeral n, s.IsUnsigned numeral n ∧ numeral.IsHugeNumeral ∧
        decodeInteger true s = Run.fail (.hugeNumeral numeral.length)) := by
  cases hfront : IntegerFront.ofText? s with
  | none =>
    have hnone (numeral : Text) (n : ℕ) : ¬ s.IsUnsigned numeral n :=
      IntegerFront.not_isUnsigned_of_ofText? hfront
    have hread : decodeInteger true s = Run.fault (.notUnsigned s) := by simp [decodeInteger, hfront]
    exact ⟨by simp [hread, hnone], .inr (.inl ⟨_, hread, rfl, rfl⟩)⟩
  | some front =>
    obtain ⟨sign, numeral, hlongest, hsign, hhuge, hdigits⟩ :=
      IntegerFront.exists_longestInteger hfront
    have hwhole : front.isWhole = true ↔ front.rest.IsBlank ∧ sign ≠ text "-" := by
      rw [IntegerFront.isWhole_iff, ← hsign, beq_eq_false_iff_ne]
    have hread := decodeInteger_strict_of_front hfront
    simp only [hlongest.isUnsigned_iff, ← hwhole]
    split_ifs at hread with hpart hlong hfits
    · refine ⟨by simp [hread, ← hhuge, hlong], .inr (.inr ⟨numeral, front.magnitude, ?_⟩)⟩
      exact ⟨⟨hpart, rfl, rfl⟩, hhuge.mp hlong, by rw [hread, hdigits hlong]⟩
    · refine ⟨?_, .inl ⟨_, hread⟩⟩
      intro n
      rw [hread, Run.outcome_pure, Except.ok.injEq]
      constructor
      · rintro rfl
        exact ⟨numeral, ⟨hpart, rfl, rfl⟩, mt hhuge.mpr hlong, hfits⟩
      · rintro ⟨_, ⟨-, -, rfl⟩, -⟩
        rfl
    · refine ⟨?_, .inr (.inl ⟨_, hread, rfl, rfl⟩)⟩
      intro n
      rw [hread]
      refine iff_of_false (by simp) ?_
      rintro ⟨_, ⟨-, -, rfl⟩, -, hsmall⟩
      exact hfits hsmall
    · exact ⟨by simp [hread, hpart], .inr (.inl ⟨_, hread, rfl, rfl⟩)⟩

end PropertyList
