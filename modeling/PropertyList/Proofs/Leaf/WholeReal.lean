import PropertyList.Proofs.Leaf.LongestReal

/-! What a strict reader of reals accepts: a literal that fills the text up to a sign and blanks,
however large a number it stands for. Beyond the range of numbers it is an infinity. -/
namespace PropertyList

namespace Quantity

/-- A quantity behind a sign is rounded to one number. -/
theorem Rounds.eq {negative : Bool} {v : Quantity} {x y : Binary64} (h : v.Rounds negative x)
    (h' : v.Rounds negative y) : x = y := by
  cases h with
  | nan =>
    cases h'
    rfl
  | infinite =>
    cases h'
    rfl
  | rational hround =>
    cases h' with
    | rational hother => exact hround.eq hother

end Quantity

theorem Binary64.IsRounding.eq_infinite_iff {negative : Bool} {a : ℚ} {x : Binary64}
    (h : x.IsRounding negative a) : x = .infinite negative ↔ overflow ≤ a := by
  constructor
  · rintro rfl
    cases h with
    | infinite hbeyond => exact hbeyond
  · intro hbeyond
    exact h.eq (.infinite hbeyond)

namespace Text

/-- A sign or none and a core, with nothing around them but blanks. -/
structure IsSigned (s sign core : Text) : Prop where
  isSign : sign ∈ signs
  eq : s.trim = sign ++ core

theorem IsSigned.opens {s sign core : Text} (h : s.IsSigned sign core) :
    s.trim.Opens sign core [] :=
  ⟨h.isSign, [], by simp [IsBlank], by simp [h.eq]⟩

theorem exists_isSigned (s : Text) :
    ∃ sign, (sign == text "-") = (PropertyList.splitSign s.trim).1 ∧
      s.IsSigned sign (PropertyList.splitSign s.trim).2 := by
  obtain ⟨sign, hsign, hnegative, heq⟩ := exists_sign s.trim
  exact ⟨sign, hnegative, hsign, heq⟩

/-- No literal is misspelt. -/
theorem IsReal.not_misspelt_front {core name rest : Text} {v : Quantity} (h : core.IsReal v)
    (hcore : core = name ++ rest) : ¬ name.IsMisspelt := by
  intro hname
  cases h with
  | name hlookup =>
    obtain ⟨entry, hmem, hentry⟩ := RealFront.exists_entry false hlookup
    have hascii := RealFront.le_of_mem_of_map (RealFront.names_isGraphic false entry hmem) hentry
    obtain ⟨-, c, hc, hforeign⟩ := hname
    exact absurd (hascii c (hcore ▸ List.mem_append_left rest hc)) (Nat.not_le.mpr hforeign)
  | decimal hdecimal =>
    obtain ⟨c, more, hcons, hc⟩ := hdecimal.exists_cons
    obtain ⟨front, hread, -⟩ := RealFront.exists_named?_of_isMisspelt false hname rest
    rw [← hcore, hcons, RealFront.named?_of_decimal false hc] at hread
    cases hread

end Text

namespace RealFront

variable {s sign core : Text} {v : Quantity} {x : Binary64}

/-- A literal that fills the text is read, and nothing else is. -/
theorem exists_ofText?_of_isSigned (hsigned : s.IsSigned sign core) (hreal : core.IsReal v) :
    ∃ x, ofText? s.trim = some ⟨some x, []⟩ ∧ v.Rounds (sign == text "-") x := by
  obtain ⟨⟨value, rest⟩, hfront, hle⟩ := exists_ofText? hsigned.opens hreal
  obtain rfl : rest = [] := List.eq_nil_of_length_eq_zero (Nat.le_zero.mp hle)
  cases value with
  | none =>
    have hnamed := ofText?_eq_none_iff.mp hfront
    rw [hreal.splitSign hsigned.opens] at hnamed
    obtain ⟨name, hcore, hname⟩ := exists_isMisspelt hnamed
    rw [List.append_nil] at hcore
    exact absurd hname (hreal.not_misspelt_front hcore)
  | some x =>
    obtain ⟨sign', core', v', hlongest, hround⟩ := exists_longestReal hfront
    have hwhole : s.trim.LongestReal sign core [] v :=
      ⟨hsigned.opens, hreal, fun _ _ => Nat.zero_le _⟩
    obtain ⟨hsign, rfl⟩ := hwhole.eq hlongest
    exact ⟨x, hfront, hsign ▸ hround⟩

theorem exists_isSigned_of_ofText? (h : ofText? s.trim = some ⟨some x, []⟩) :
    ∃ sign core v, s.IsSigned sign core ∧ core.IsReal v ∧ v.Rounds (sign == text "-") x := by
  obtain ⟨sign, core, v, hlongest, hround⟩ := exists_longestReal h
  have hsplit := hlongest.isReal.splitSign hlongest.opens
  obtain ⟨found, hnegative, hsigned⟩ := Text.exists_isSigned s
  rw [Text.trimLeft_trim, List.append_nil] at hsplit
  rw [hsplit] at hnegative hsigned
  exact ⟨found, core, v, hsigned, hlongest.isReal, hnegative ▸ hround⟩

/-- What fills the text and has the form of a literal, but denotes no number, is a misspelt name. -/
theorem ofText?_trim_eq_none_iff :
    ofText? s.trim = some ⟨none, []⟩ ↔ ∃ sign name, s.IsSigned sign name ∧ name.IsMisspelt := by
  constructor
  · intro h
    obtain ⟨name, hbody, hname⟩ := exists_isMisspelt (ofText?_eq_none_iff.mp h)
    obtain ⟨sign, -, hsigned⟩ := Text.exists_isSigned s
    rw [Text.trimLeft_trim, List.append_nil] at hbody
    exact ⟨sign, name, hbody ▸ hsigned, hname⟩
  · rintro ⟨sign, name, hsigned, hname⟩
    obtain ⟨more, hfront, hmore⟩ := exists_ofText?_of_opens hsigned.opens hname
    rw [hfront, hmore (by simp [Text.IsBlank])]

end RealFront

/-- A strict reader wants what is read to fill the trimmed text, and then asks for its number. -/
theorem decodeReal_strict_cases (s : Text) :
    (∃ x, decodeReal true s = pure x ∧ RealFront.ofText? s.trim = some ⟨some x, []⟩) ∨
      (decodeReal true s = Run.fail (.unreadableReal s.trim) ∧
        RealFront.ofText? s.trim = some ⟨none, []⟩) ∨
      (decodeReal true s = Run.fault (.notReal s) ∧
        ∀ value, RealFront.ofText? s.trim ≠ some ⟨value, []⟩) := by
  rw [decodeReal, if_pos rfl]
  cases hfront : RealFront.ofText? s.trim with
  | none => exact .inr (.inr ⟨rfl, by simp⟩)
  | some front =>
    rcases front with ⟨_ | x, _ | ⟨c, rest⟩⟩
    · exact .inr (.inl ⟨rfl, rfl⟩)
    · exact .inr (.inr ⟨rfl, by simp⟩)
    · exact .inl ⟨x, rfl, rfl⟩
    · exact .inr (.inr ⟨rfl, by simp⟩)

theorem decodeReal_strict_eq_pure_iff {s : Text} {x : Binary64} :
    decodeReal true s = pure x ↔
      ∃ sign core v, s.IsSigned sign core ∧ core.IsReal v ∧ v.Rounds (sign == text "-") x := by
  constructor
  · intro hread
    rcases decodeReal_strict_cases s with ⟨y, hpure, hfront⟩ | ⟨hfail, -⟩ | ⟨hfault, -⟩
    · have hsame : y = x := by
        simpa using congrArg Run.outcome (hpure.symm.trans hread)
      exact RealFront.exists_isSigned_of_ofText? (hsame ▸ hfront)
    · simpa using congrArg Run.outcome (hfail.symm.trans hread)
    · simpa using congrArg Run.outcome (hfault.symm.trans hread)
  · rintro ⟨sign, core, v, hsigned, hreal, hround⟩
    obtain ⟨y, hfront, hrounded⟩ := RealFront.exists_ofText?_of_isSigned hsigned hreal
    rw [decodeReal, if_pos rfl, hfront, hrounded.eq hround]
    rfl

theorem decodeReal_strict_eq_fail_iff {s : Text} :
    decodeReal true s = Run.fail (.unreadableReal s.trim) ↔
      ∃ sign name, s.IsSigned sign name ∧ name.IsMisspelt := by
  rw [← RealFront.ofText?_trim_eq_none_iff]
  constructor
  · intro hread
    rcases decodeReal_strict_cases s with ⟨y, hpure, -⟩ | ⟨-, hfront⟩ | ⟨hfault, -⟩
    · simpa using congrArg Run.outcome (hpure.symm.trans hread)
    · exact hfront
    · simpa [Run.fault] using congrArg Run.outcome (hfault.symm.trans hread)
  · intro hfront
    rw [decodeReal, if_pos rfl, hfront]
    rfl

/-- A strict reader gives what a literal between blanks, behind a sign or none, is rounded to, and
leaves no notice. Among the decimals those are infinite that lie at the bound of overflow or beyond.
Every other text is a fault, but for the misspelt name of an infinity in such a place. -/
theorem decodeReal_strict_eq_ok_iff (s : Text) :
    (∀ x, (decodeReal true s).outcome = .ok x ↔
      ∃ sign core v, s.IsSigned sign core ∧ core.IsReal v ∧ v.Rounds (sign == text "-") x) ∧
    (∀ sign number a, s.IsSigned sign number → number.IsDecimal a →
      (decodeReal true s = pure (.infinite (sign == text "-")) ↔ Binary64.overflow ≤ a)) ∧
    (decodeReal true s = Run.fail (.unreadableReal s.trim) ↔
      ∃ sign name, s.IsSigned sign name ∧ name.IsMisspelt) ∧
    ((∃ x, decodeReal true s = pure x) ∨ decodeReal true s = Run.fail (.unreadableReal s.trim) ∨
      ∃ fault, decodeReal true s = Run.fault fault ∧ fault.tag = text "real" ∧
        fault.content? = some s) := by
  refine ⟨fun x => ?_, ?_, decodeReal_strict_eq_fail_iff, ?_⟩
  · rw [← decodeReal_strict_eq_pure_iff]
    constructor
    · intro houtcome
      rcases decodeReal_strict_cases s with ⟨y, hpure, -⟩ | ⟨hfail, -⟩ | ⟨hfault, -⟩
      · rw [hpure, Run.outcome_pure, Except.ok.injEq] at houtcome
        rw [hpure, houtcome]
      · simp [hfail] at houtcome
      · simp [hfault] at houtcome
    · intro hread
      rw [hread, Run.outcome_pure]
  · intro sign number a hsigned hdecimal
    obtain ⟨x, hfront, hround⟩ := RealFront.exists_ofText?_of_isSigned hsigned (.decimal hdecimal)
    have hread : decodeReal true s = pure x :=
      decodeReal_strict_eq_pure_iff.mpr ⟨sign, number, _, hsigned, .decimal hdecimal, hround⟩
    cases hround with
    | rational hround =>
      rw [← hround.eq_infinite_iff, hread]
      constructor
      · intro hsame
        simpa using congrArg Run.outcome hsame
      · rintro rfl
        rfl
  · rcases decodeReal_strict_cases s with ⟨x, hpure, -⟩ | ⟨hfail, -⟩ | ⟨hfault, -⟩
    · exact .inl ⟨x, hpure⟩
    · exact .inr (.inl hfail)
    · exact .inr (.inr ⟨_, hfault, rfl, rfl⟩)

/-- A decimal beyond every number passes as an infinity. -/
theorem decodeReal_strict_beyond_overflow :
    Text.IsSigned (text " -1e999") (text "-") (text "1e999") ∧
      Text.IsDecimal (text "1e999") (10 ^ 999) ∧ Binary64.overflow ≤ 10 ^ 999 ∧
      decodeReal true (text " -1e999") = pure (.infinite true) := by
  have hsigned : Text.IsSigned (text " -1e999") (text "-") (text "1e999") :=
    ⟨by decide, by decide⟩
  have hdecimal : Text.IsDecimal (text "1e999") (10 ^ 999) := by
    have hwhole : ∀ c ∈ text "1", isDigit c = true := by decide
    have hexponent : Text.IsExponent (text "e999") 999 :=
      .complete (.inl rfl) (show [] ∈ signs by decide) (List.cons_ne_nil _ _)
        (show ∀ c ∈ text "999", isDigit c = true by decide)
    have hparts := Text.IsDecimal.parts hwhole .absent (.inl (List.cons_ne_nil _ _)) hexponent
    have hvalue : numeralValue 10 (text "1") = 1 := by decide
    rw [hvalue] at hparts
    convert hparts using 1
    · decide
    · norm_num [numeralValue, ofDigits]
  have hbeyond : Binary64.overflow ≤ 10 ^ 999 :=
    Binary64.overflow_le_ten_pow.trans (pow_le_pow_right₀ (by norm_num) (by omega))
  have hread := (decodeReal_strict_eq_ok_iff (text " -1e999")).2.1 _ _ _ hsigned hdecimal
  exact ⟨hsigned, hdecimal, hbeyond, hread.mpr hbeyond⟩

end PropertyList
