import Mathlib.Tactic
import PropertyList.Number.Binary64

/-! Rounding. A quotient rounds to within half a unit, a number nearest to a quotient lies within
half a unit in its last place, and so a number written with six places reads back as a number that
is written the same. -/
namespace PropertyList

theorem roundHalfEven_bounds (num : ℕ) {den : ℕ} (hden : 0 < den) :
    2 * (roundHalfEven num den * den) ≤ 2 * num + den ∧
      2 * num ≤ 2 * (roundHalfEven num den * den) + den := by
  have hdiv := Nat.div_add_mod num den
  have hmod := Nat.mod_lt num hden
  have hup : (num / den + 1) * den = den * (num / den) + den := by ring
  have hsame : num / den * den = den * (num / den) := Nat.mul_comm _ _
  unfold roundHalfEven
  rcases Nat.mod_two_eq_zero_or_one (num / den) with hp | hp <;> simp only [hp] <;> split_ifs <;>
    simp only [Nat.add_zero, hup, hsame] <;> omega

/-- Nothing else lies within half a unit of a quotient. -/
theorem roundHalfEven_eq {num den n : ℕ} (hlow : 2 * (n * den) < 2 * num + den)
    (hhigh : 2 * num < 2 * (n * den) + den) : roundHalfEven num den = n := by
  have hden : 0 < den := by omega
  obtain ⟨hl, hh⟩ := roundHalfEven_bounds num hden
  rcases Nat.lt_trichotomy (roundHalfEven num den) n with h | h | h
  · have := Nat.mul_le_mul_right den h
    have heq : (roundHalfEven num den).succ * den = roundHalfEven num den * den + den :=
      Nat.succ_mul _ _
    omega
  · exact h
  · have := Nat.mul_le_mul_right den h
    have heq : n.succ * den = n * den + den := Nat.succ_mul _ _
    omega

theorem roundHalfEven_mul (n : ℕ) {den : ℕ} (hden : 0 < den) : roundHalfEven (n * den) den = n :=
  roundHalfEven_eq (by omega) (by omega)

theorem roundHalfEven_mono {a b den : ℕ} (hden : 0 < den) (h : a ≤ b) :
    roundHalfEven a den ≤ roundHalfEven b den := by
  by_contra hlt
  obtain ⟨hl, -⟩ := roundHalfEven_bounds a hden
  obtain ⟨-, hh⟩ := roundHalfEven_bounds b hden
  have hm := Nat.mul_le_mul_right den (Nat.succ_le_of_lt (Nat.lt_of_not_le hlt))
  rw [Nat.succ_mul] at hm
  have hab : a = b := by omega
  exact hlt (le_of_eq (by rw [hab]))

namespace Binary64

/-- Finite numbers are whole multiples of the inverse of this one. -/
def scale : ℕ := 2 ^ 1074

theorem scale_eq {a b : ℕ} (h : a + b = 1074) : scale = 2 ^ a * 2 ^ b := by
  rw [scale, ← pow_add, h]

theorem scale_pos : 0 < scale := by
  rw [scale_eq (show 1000 + 74 = 1074 by omega)]
  positivity

/-- The rational number that a number is; none if it is infinite or no number. -/
def toRat? : Binary64 → Option ℚ
  | .finite negative m q => some ((if negative then -1 else 1) * ((m * 2 ^ q : ℕ) / (scale : ℚ)))
  | _ => none

theorem toRat?_positive (m q : ℕ) :
    toRat? (.finite false m q) = some ((m * 2 ^ q : ℕ) / (scale : ℚ)) := by
  rw [toRat?, if_neg Bool.false_ne_true, one_mul]

/-- The exponent that `nearest` gives to a number between `whole` and its successor. -/
def exponentFor (whole : ℕ) : ℕ := if whole < 2 ^ 53 then 0 else whole.log2 - 52

theorem le_of_exponentFor {whole : ℕ} (h : 0 < exponentFor whole) :
    2 ^ 52 * 2 ^ exponentFor whole ≤ whole := by
  unfold exponentFor at *
  split_ifs at * with hlt
  · omega
  · have hne : whole ≠ 0 := by omega
    have hlog : 53 ≤ whole.log2 := (Nat.le_log2 hne).mpr (by omega)
    rw [← pow_add]
    exact (Nat.le_log2 hne).mp (by omega)

/-- The significand that a quotient is rounded to, before it is carried. -/
def significandFor (scaled den : ℕ) : ℕ :=
  roundHalfEven scaled (den * 2 ^ exponentFor (scaled / den))

/-- What `nearest` returns is a quotient in units of its last place, with the significand carried if
it has a bit too many. -/
theorem nearest_eq_ite (negative : Bool) (num den : ℕ) :
    nearest negative num den =
      if significandFor (num * scale) den = 2 ^ 53 then
        if 2045 < exponentFor (num * scale / den) + 1 then .infinite negative
        else .finite negative (2 ^ 52) (exponentFor (num * scale / den) + 1)
      else if 2045 < exponentFor (num * scale / den) then .infinite negative
      else .finite negative (significandFor (num * scale) den) (exponentFor (num * scale / den)) := by
  generalize hs : num * scale = scaled
  unfold scale at hs
  simp only [nearest, Nat.pow_eq, hs]
  rw [← exponentFor.eq_def (scaled / den), ← significandFor.eq_def scaled den]
  by_cases h : significandFor scaled den = 2 ^ 53
  · simp only [h, beq_self_eq_true, if_true]
  · simp only [beq_eq_false_iff_ne.mpr h, Bool.false_eq_true, if_false, if_neg h]

/-- What `nearest` returns has the value that the quotient is rounded to, carried or not. -/
theorem nearest_eq (negative : Bool) (num den : ℕ) :
    ∃ m q, m * 2 ^ q = significandFor (num * scale) den * 2 ^ exponentFor (num * scale / den) ∧
      q ≤ exponentFor (num * scale / den) + 1 ∧
      (significandFor (num * scale) den < 2 ^ 53 → q = exponentFor (num * scale / den)) ∧
      nearest negative num den = if 2045 < q then .infinite negative else .finite negative m q := by
  rw [nearest_eq_ite]
  by_cases h : significandFor (num * scale) den = 2 ^ 53
  · refine ⟨2 ^ 52, exponentFor (num * scale / den) + 1, ?_, le_rfl, by omega, by rw [if_pos h]⟩
    rw [h]
    ring
  · refine ⟨significandFor (num * scale) den, exponentFor (num * scale / den), rfl, by omega,
      fun _ => rfl, by rw [if_neg h]⟩

/-- The number of millionths that a finite number is written with. -/
def millionths (m q : ℕ) : ℕ := roundHalfEven (m * 2 ^ q * 10 ^ 6) scale

/-- A multiple of the last place that lies next to a quotient is what the quotient is rounded to. -/
theorem significandFor_eq {scaled den n e : ℕ} (he : exponentFor (scaled / den) = e)
    (hlow : 2 * (n * 2 ^ e * den) < 2 * scaled + den * 2 ^ e)
    (hhigh : 2 * scaled < 2 * (n * 2 ^ e * den) + den * 2 ^ e) : significandFor scaled den = n := by
  have hn : n * (den * 2 ^ e) = n * 2 ^ e * den := by ring
  unfold significandFor
  rw [he]
  exact roundHalfEven_eq (by omega) (by omega)

theorem significandFor_bounds {scaled den e : ℕ} (hden : 0 < den)
    (he : exponentFor (scaled / den) = e) :
    2 * (significandFor scaled den * 2 ^ e * den) ≤ 2 * scaled + den * 2 ^ e ∧
      2 * scaled ≤ 2 * (significandFor scaled den * 2 ^ e * den) + den * 2 ^ e := by
  have hb := roundHalfEven_bounds scaled (Nat.mul_pos hden (Nat.two_pow_pos e))
  have hs : significandFor scaled den = roundHalfEven scaled (den * 2 ^ e) := by
    rw [significandFor, he]
  rw [← hs] at hb
  have hn : significandFor scaled den * (den * 2 ^ e) = significandFor scaled den * 2 ^ e * den := by
    ring
  omega

/-- A number below a power of two beyond its exponent. -/
theorem lt_of_exponentFor (whole : ℕ) : whole < 2 ^ 53 * 2 ^ exponentFor whole := by
  unfold exponentFor
  split_ifs with hsmall
  · rwa [pow_zero, Nat.mul_one]
  · have hne : whole ≠ 0 := by omega
    have hlog : 53 ≤ whole.log2 := (Nat.le_log2 hne).mpr (by omega)
    have hexp : 53 + (whole.log2 - 52) = whole.log2 + 1 := by omega
    rw [← pow_add, hexp]
    exact Nat.lt_log2_self

theorem le_exponentFor {whole e : ℕ} (h : 2 ^ 52 * 2 ^ e ≤ whole) : e ≤ exponentFor whole := by
  have hlt := h.trans_lt (lt_of_exponentFor whole)
  rw [← pow_add, ← pow_add] at hlt
  have hexp := (Nat.pow_lt_pow_iff_right (show 1 < 2 by omega)).mp hlt
  omega

/-- A significand has 53 bits, or is to be carried. -/
theorem significandFor_le (scaled : ℕ) {den : ℕ} (hden : 0 < den) :
    significandFor scaled den ≤ 2 ^ 53 := by
  have hunit : 0 < den * 2 ^ exponentFor (scaled / den) := Nat.mul_pos hden (Nat.two_pow_pos _)
  have hlt := (Nat.div_lt_iff_lt_mul hden).mp (lt_of_exponentFor (scaled / den))
  have hround := roundHalfEven_mono hunit
    (show scaled ≤ 2 ^ 53 * (den * 2 ^ exponentFor (scaled / den)) by
      rw [Nat.mul_comm den, ← Nat.mul_assoc]
      exact hlt.le)
  rwa [roundHalfEven_mul _ hunit] at hround

theorem le_significandFor (scaled : ℕ) {den : ℕ} (hden : 0 < den)
    (h : 0 < exponentFor (scaled / den)) : 2 ^ 52 ≤ significandFor scaled den := by
  have hunit : 0 < den * 2 ^ exponentFor (scaled / den) := Nat.mul_pos hden (Nat.two_pow_pos _)
  have hle := (Nat.le_div_iff_mul_le hden).mp (le_of_exponentFor h)
  have hround := roundHalfEven_mono hunit
    (show 2 ^ 52 * (den * 2 ^ exponentFor (scaled / den)) ≤ scaled by
      rw [Nat.mul_comm den, ← Nat.mul_assoc]
      exact hle)
  rwa [roundHalfEven_mul _ hunit] at hround

/-- What is nearest to a quotient is a floating-point number. -/
theorem isCanonical_nearest (negative : Bool) (num : ℕ) {den : ℕ} (hden : 0 < den) :
    (nearest negative num den).IsCanonical := by
  have hle := significandFor_le (num * scale) hden
  have hge := le_significandFor (num * scale) hden
  rw [nearest_eq_ite]
  generalize exponentFor (num * scale / den) = e at hge ⊢
  generalize significandFor (num * scale) den = m at hle hge ⊢
  split_ifs with hcarried hbeyond hbeyond
  · trivial
  · exact ⟨by decide, by omega, .inr le_rfl⟩
  · trivial
  · exact ⟨Nat.lt_of_le_of_ne hle hcarried, by omega, (Nat.eq_zero_or_pos e).imp_right hge⟩

end Binary64

end PropertyList
