import PropertyList.Proofs.Number.Rounding

/-! Correct rounding. A rational number is rounded to the number next to it; of two that are as near
it is the one with the even significand, and what lies half a unit or more beyond the largest number
becomes infinite. This leaves one number, and the number nearest to a quotient is that. -/
namespace PropertyList

theorem abs_roundHalfEven_sub_le (num : ℕ) {den : ℕ} (hden : 0 < den) :
    |(roundHalfEven num den : ℚ) - num / den| ≤ 1 / 2 := by
  have hpos : (0 : ℚ) < den := Nat.cast_pos.mpr hden
  obtain ⟨hlow, hhigh⟩ := roundHalfEven_bounds num hden
  have hlow' : 2 * ((roundHalfEven num den : ℚ) * den) ≤ 2 * num + den := by exact_mod_cast hlow
  have hhigh' : 2 * (num : ℚ) ≤ 2 * (roundHalfEven num den * den) + den := by exact_mod_cast hhigh
  have hupper : (num : ℚ) / den ≤ roundHalfEven num den + 1 / 2 := by
    rw [div_le_iff₀ hpos]
    linarith
  have hlower : (roundHalfEven num den : ℚ) - 1 / 2 ≤ num / den := by
    rw [le_div_iff₀ hpos]
    linarith
  rw [abs_le]
  constructor <;> linarith

/-- A quotient that lies half a unit from what it is rounded to is rounded to an even number. -/
theorem roundHalfEven_mod_two_of_tie {num den : ℕ} (hden : 0 < den)
    (h : 2 * (roundHalfEven num den * den) = 2 * num + den ∨
      2 * num = 2 * (roundHalfEven num den * den) + den) : roundHalfEven num den % 2 = 0 := by
  have hdiv := Nat.div_add_mod num den
  have hmod := Nat.mod_lt num hden
  have hup : (num / den + 1) * den = den * (num / den) + den := by ring
  have hsame : num / den * den = den * (num / den) := Nat.mul_comm _ _
  unfold roundHalfEven at h ⊢
  rcases Nat.mod_two_eq_zero_or_one (num / den) with hp | hp <;> simp only [hp] at h ⊢ <;>
    split_ifs at h ⊢ <;> simp only [Nat.add_zero, hup, hsame] at h <;> omega

theorem even_roundHalfEven {num den : ℕ} (hden : 0 < den)
    (h : |(roundHalfEven num den : ℚ) - num / den| = 1 / 2) : Even (roundHalfEven num den) := by
  have hne : (den : ℚ) ≠ 0 := Nat.cast_ne_zero.mpr (by omega)
  apply Nat.even_iff.mpr
  apply roundHalfEven_mod_two_of_tie hden
  rcases eq_or_eq_neg_of_abs_eq h with habove | hbelow
  · left
    have hcast : 2 * ((roundHalfEven num den : ℚ) * den) = 2 * num + den := by
      field_simp at habove
      linarith
    exact_mod_cast hcast
  · right
    have hcast : 2 * (num : ℚ) = 2 * (roundHalfEven num den * den) + den := by
      field_simp at hbelow
      linarith
    exact_mod_cast hcast

/-- Whether `x`, with the significand `m`, is what `a` is rounded to rather than `y`: it is nearer, or
as near and its significand is even. -/
def Prevails (a x : ℚ) (m : ℕ) (y : ℚ) : Prop :=
  |x - a| < |y - a| ∨ |x - a| = |y - a| ∧ Even m

theorem Prevails.le {a x y : ℚ} {m : ℕ} (h : Prevails a x m y) : |x - a| ≤ |y - a| := by
  rcases h with hlt | ⟨heq, -⟩
  · exact hlt.le
  · exact heq.le

theorem Prevails.mono {a x y : ℚ} {m n : ℕ} (h : Prevails a x m y) (heven : Even m → Even n) :
    Prevails a x n y :=
  h.imp_right fun htie => ⟨htie.1, heven htie.2⟩

/-- It makes no difference in which units numbers are compared. -/
theorem prevails_mul_iff {a x y c : ℚ} {m : ℕ} (hc : 0 < c) :
    Prevails (a * c) (x * c) m (y * c) ↔ Prevails a x m y := by
  have hscale (z : ℚ) : |z * c - a * c| = |z - a| * c := by
    rw [← sub_mul, abs_mul, abs_of_pos hc]
  unfold Prevails
  rw [hscale, hscale, mul_lt_mul_iff_left₀ hc, mul_left_inj' hc.ne']

theorem roundHalfEven_prevails (num : ℕ) {den n : ℕ} (hden : 0 < den)
    (hn : n ≠ roundHalfEven num den) :
    Prevails (num / den) (roundHalfEven num den) (roundHalfEven num den) n := by
  have hnear := abs_roundHalfEven_sub_le num hden
  have hapart : (1 : ℚ) ≤ |(n : ℚ) - roundHalfEven num den| := by
    have hint : (1 : ℤ) ≤ |(n : ℤ) - roundHalfEven num den| :=
      Int.one_le_abs (sub_ne_zero.mpr (by exact_mod_cast hn))
    exact_mod_cast hint
  have htriangle := abs_sub_le (n : ℚ) (num / den) (roundHalfEven num den)
  rw [abs_sub_comm ((num : ℚ) / den)] at htriangle
  rcases lt_or_eq_of_le (show |(roundHalfEven num den : ℚ) - num / den| ≤ |(n : ℚ) - num / den| by
    linarith) with hlt | heq
  · exact .inl hlt
  · exact .inr ⟨heq, even_roundHalfEven hden (by linarith)⟩

namespace Binary64

/-- The magnitude of a finite number. -/
def magnitude (m q : ℕ) : ℚ := (m * 2 ^ q : ℕ) / (scale : ℚ)

/-- Half a unit in the last place beyond the largest number. -/
def overflow : ℚ := 2 ^ 1024 - 2 ^ 970

/-- What a rational number without its sign is rounded to: a finite number that prevails over all
others, or an infinite one. -/
inductive IsRounding (negative : Bool) (a : ℚ) : Binary64 → Prop
  | finite {m q : ℕ} (hnumber : IsCanonical (.finite negative m q)) (hfits : a < overflow)
      (hprevails : ∀ n r, IsCanonical (.finite negative n r) → magnitude n r ≠ magnitude m q →
        Prevails a (magnitude m q) m (magnitude n r)) :
      IsRounding negative a (.finite negative m q)
  | infinite (hbeyond : overflow ≤ a) : IsRounding negative a (.infinite negative)

section Significand

variable {scaled den e : ℕ} (hden : 0 < den) (he : exponentFor (scaled / den) = e)

include hden he

omit hden in
theorem significandFor_eq_round : significandFor scaled den = roundHalfEven scaled (den * 2 ^ e) := by
  rw [significandFor, he]

theorem lt_mul_unit : scaled < 2 ^ 53 * (den * 2 ^ e) := by
  have hlt := (Nat.div_lt_iff_lt_mul hden).mp (lt_of_exponentFor (scaled / den))
  rw [he] at hlt
  calc scaled < 2 ^ 53 * 2 ^ e * den := hlt
    _ = 2 ^ 53 * (den * 2 ^ e) := by ring

theorem mul_unit_le (h : 0 < e) : 2 ^ 52 * (den * 2 ^ e) ≤ scaled := by
  have hle := (Nat.le_div_iff_mul_le hden).mp (le_of_exponentFor (he ▸ h))
  rw [he] at hle
  calc 2 ^ 52 * (den * 2 ^ e) = 2 ^ 52 * 2 ^ e * den := by ring
    _ ≤ scaled := hle

/-- A significand prevails over all multiples of the unit in its last place. -/
theorem significandFor_prevails_multiple {k : ℕ} (hk : k ≠ significandFor scaled den) :
    Prevails (scaled / den) (significandFor scaled den * 2 ^ e) (significandFor scaled den)
      (k * 2 ^ e) := by
  have hquot : (scaled : ℚ) / (den * 2 ^ e : ℕ) * 2 ^ e = scaled / den := by
    push_cast
    field_simp
  rw [significandFor_eq_round he] at hk ⊢
  have hround := roundHalfEven_prevails scaled (Nat.mul_pos hden (Nat.two_pow_pos e)) hk
  have hmul := (prevails_mul_iff (show (0 : ℚ) < 2 ^ e by positivity)).mpr hround
  rwa [hquot] at hmul

/-- It prevails over all numbers of 53 bits. Those with finer units lie below everything that has
the unit of the quotient. -/
theorem significandFor_prevails {n r : ℕ} (hn : n < 2 ^ 53)
    (hother : n * 2 ^ r ≠ significandFor scaled den * 2 ^ e) :
    Prevails (scaled / den) (significandFor scaled den * 2 ^ e) (significandFor scaled den)
      (n * 2 ^ r) := by
  rcases Nat.lt_or_ge r e with hfine | hcoarse
  · left
    have hbelow : (n : ℚ) * 2 ^ r < 2 ^ 52 * 2 ^ e := by
      have hpow : 2 ^ (r + 1) ≤ 2 ^ e := Nat.pow_le_pow_right (by omega) hfine
      have hmul := Nat.mul_lt_mul_of_pos_right hn (Nat.two_pow_pos r)
      rw [pow_succ] at hpow
      have hnat : n * 2 ^ r < 2 ^ 52 * 2 ^ e := by omega
      exact_mod_cast hnat
    have habove : 2 ^ 52 * 2 ^ e ≤ (scaled : ℚ) / den := by
      rw [le_div_iff₀ (Nat.cast_pos.mpr hden), mul_assoc, mul_comm _ (den : ℚ)]
      exact_mod_cast mul_unit_le hden he (by omega)
    have hnear : |(significandFor scaled den : ℚ) * 2 ^ e - scaled / den| ≤
        |2 ^ 52 * 2 ^ e - (scaled : ℚ) / den| := by
      rcases eq_or_ne (2 ^ 52) (significandFor scaled den) with heq | hne
      · rw [← heq, Nat.cast_pow, Nat.cast_ofNat]
      · have hgrid := (significandFor_prevails_multiple hden he hne).le
        rwa [Nat.cast_pow, Nat.cast_ofNat] at hgrid
    rw [abs_of_nonpos (sub_nonpos.mpr habove)] at hnear
    rw [abs_of_nonpos (sub_nonpos.mpr (hbelow.le.trans habove))]
    linarith
  · have hmul : n * 2 ^ r = n * 2 ^ (r - e) * 2 ^ e := by
      rw [Nat.mul_assoc, ← pow_add, Nat.sub_add_cancel hcoarse]
    have hcast : (n : ℚ) * 2 ^ r = (n * 2 ^ (r - e) : ℕ) * 2 ^ e := by exact_mod_cast hmul
    rw [hcast]
    apply significandFor_prevails_multiple hden he
    intro hk
    exact hother (by rw [hmul, hk])

/-- Half a unit behind the greatest significand the tie goes to its successor, since it is odd. -/
theorem two_pow_le_significandFor_iff :
    2 ^ 53 ≤ significandFor scaled den ↔ 2 ^ 54 * (den * 2 ^ e) ≤ 2 * scaled + den * 2 ^ e := by
  rw [significandFor_eq_round he]
  have hunit : 0 < den * 2 ^ e := Nat.mul_pos hden (Nat.two_pow_pos e)
  generalize den * 2 ^ e = unit at hunit ⊢
  obtain ⟨hlow, hhigh⟩ := roundHalfEven_bounds scaled hunit
  have htie := @roundHalfEven_mod_two_of_tie scaled _ hunit
  generalize roundHalfEven scaled unit = m at hlow hhigh htie ⊢
  constructor
  · intro hm
    have hmul := Nat.mul_le_mul_right unit hm
    omega
  · intro hbeyond
    by_contra hm
    have hmul := Nat.mul_le_mul_right unit (show m + 1 ≤ 2 ^ 53 by omega)
    rw [Nat.add_mul, Nat.one_mul] at hmul
    have hlast : 2 ^ 53 * unit ≤ (m + 1) * unit := by
      rw [Nat.add_mul, Nat.one_mul]
      omega
    have hodd := Nat.le_of_mul_le_mul_right hlast hunit
    have heven := htie (.inr (by omega))
    omega

/-- A quotient is rounded to a number of 54 bits, in any unit, just if it lies half a unit behind the
greatest one of 53 bits. -/
theorem two_pow_mul_le_significandFor_mul_iff (k : ℕ) :
    2 ^ 53 * 2 ^ k ≤ significandFor scaled den * 2 ^ e ↔
      2 ^ 54 * (den * 2 ^ k) ≤ 2 * scaled + den * 2 ^ k := by
  have hdouble {i j : ℕ} (h : i < j) : 2 ^ i * 2 ≤ 2 ^ j ∧ den * 2 ^ i * 2 ≤ den * 2 ^ j := by
    have hpow : 2 ^ i * 2 ≤ 2 ^ j := by
      rw [← pow_succ]
      exact Nat.pow_le_pow_right (by omega) h
    exact ⟨hpow, by rw [Nat.mul_assoc]; exact Nat.mul_le_mul_left den hpow⟩
  rcases Nat.lt_trichotomy e k with hsmall | rfl | hlarge
  · have hm := Nat.mul_le_mul_right (2 ^ e) (significandFor_le scaled hden)
    have hlt := lt_mul_unit hden he
    have hpos := Nat.two_pow_pos e
    obtain ⟨hpow, hunit⟩ := hdouble hsmall
    constructor <;> intro hbeyond <;> omega
  · rw [Nat.mul_le_mul_right_iff (Nat.two_pow_pos _), two_pow_le_significandFor_iff hden he]
  · have hm := Nat.mul_le_mul_right (2 ^ e) (le_significandFor scaled hden (by omega))
    have hle := mul_unit_le hden he (by omega)
    obtain ⟨hpow, hunit⟩ := hdouble hlarge
    constructor <;> intro <;> omega

end Significand

theorem overflow_mul_scale : 2 * (overflow * scale) + 2 ^ 2045 = 2 ^ 54 * 2 ^ 2045 := by
  have hscale : (scale : ℚ) = 2 ^ 1074 := by rw [scale, Nat.cast_pow, Nat.cast_ofNat]
  have hhigh : (2 : ℚ) ^ 1024 * 2 ^ 1074 = 2 ^ 53 * 2 ^ 2045 := by
    rw [← pow_add, ← pow_add]
  have hlow : 2 * ((2 : ℚ) ^ 970 * 2 ^ 1074) = 2 ^ 2045 := by
    rw [← pow_add]
    exact (pow_succ' 2 2044).symm
  rw [overflow, hscale, sub_mul, mul_sub, hhigh, hlow]
  generalize (2 : ℚ) ^ 2045 = unit
  ring

theorem overflow_le_div_iff {num den : ℕ} (hden : 0 < den) :
    overflow ≤ num / den ↔
      2 ^ 54 * (den * 2 ^ 2045) ≤ 2 * (num * scale) + den * 2 ^ 2045 := by
  have hscale : (0 : ℚ) < scale := Nat.cast_pos.mpr scale_pos
  have hunit := overflow_mul_scale
  rw [le_div_iff₀ (Nat.cast_pos.mpr hden), ← mul_le_mul_iff_left₀ hscale]
  generalize 2045 = k at hunit ⊢
  have hleft : (2 : ℚ) ^ 54 * (den * 2 ^ k) = 2 * (overflow * den * scale) + den * 2 ^ k := by
    calc (2 : ℚ) ^ 54 * (den * 2 ^ k) = 2 ^ 54 * 2 ^ k * den := by ring
      _ = 2 * (overflow * den * scale) + den * 2 ^ k := by
        rw [← hunit]
        ring
  have hcast : 2 ^ 54 * (den * 2 ^ k) ≤ 2 * (num * scale) + den * 2 ^ k ↔
      (2 : ℚ) ^ 54 * (den * 2 ^ k) ≤ 2 * (num * scale) + den * 2 ^ k := by
    exact_mod_cast Iff.rfl
  rw [hcast, hleft]
  constructor <;> intro h <;> linarith

/-- A number in units of the least one. -/
theorem magnitude_mul_scale (m q : ℕ) : magnitude m q * scale = m * 2 ^ q := by
  have hscale : (scale : ℚ) ≠ 0 := Nat.cast_ne_zero.mpr scale_pos.ne'
  rw [magnitude, div_mul_cancel₀ _ hscale, Nat.cast_mul, Nat.cast_pow, Nat.cast_ofNat]

/-- A number of 53 bits has more of them in every smaller unit, and in no other. -/
theorem two_pow_mul_le_mul_iff {m q k : ℕ} (hm : m < 2 ^ 53) (hfull : q = 0 ∨ 2 ^ 52 ≤ m) :
    2 ^ 53 * 2 ^ k ≤ m * 2 ^ q ↔ k < q := by
  constructor
  · intro hle
    by_contra hsmall
    have hpow : 2 ^ q ≤ 2 ^ k := Nat.pow_le_pow_right (by omega) (by omega)
    have hlt := Nat.mul_lt_mul_of_lt_of_le hm hpow (Nat.two_pow_pos k)
    omega
  · intro hlarge
    have hpow : 2 ^ (k + 1) ≤ 2 ^ q := Nat.pow_le_pow_right (by omega) hlarge
    calc 2 ^ 53 * 2 ^ k = 2 ^ 52 * 2 ^ (k + 1) := by ring
      _ ≤ m * 2 ^ q := Nat.mul_le_mul (hfull.resolve_left (by omega)) hpow

section Quotient

variable {num den m q : ℕ} (hden : 0 < den)
  (hvalue : m * 2 ^ q = significandFor (num * scale) den * 2 ^ exponentFor (num * scale / den))

include hden hvalue

/-- A number with the value of the significand that a quotient is rounded to prevails over all
others. -/
theorem prevails_of_significandFor (heven : Even (significandFor (num * scale) den) → Even m)
    {n r : ℕ} (hn : n < 2 ^ 53) (hother : magnitude n r ≠ magnitude m q) :
    Prevails (num / den) (magnitude m q) m (magnitude n r) := by
  have hscale : (0 : ℚ) < scale := Nat.cast_pos.mpr scale_pos
  have hne : n * 2 ^ r ≠ significandFor (num * scale) den * 2 ^ exponentFor (num * scale / den) := by
    intro heq
    exact hother (by rw [magnitude, magnitude, heq, hvalue])
  have hcast : (significandFor (num * scale) den : ℚ) * 2 ^ exponentFor (num * scale / den) =
      m * 2 ^ q := by exact_mod_cast hvalue.symm
  have hquot : ((num * scale : ℕ) : ℚ) / den = num / den * scale := by
    rw [Nat.cast_mul, div_mul_eq_mul_div]
  have hunits := significandFor_prevails hden rfl hn hne
  rw [hcast, hquot, ← magnitude_mul_scale, ← magnitude_mul_scale] at hunits
  exact ((prevails_mul_iff hscale).mp hunits).mono heven

theorem isRounding_of_significandFor (negative : Bool)
    (heven : Even (significandFor (num * scale) den) → Even m) (hm : m < 2 ^ 53)
    (hfull : q = 0 ∨ 2 ^ 52 ≤ m) :
    IsRounding negative (num / den)
      (if 2045 < q then .infinite negative else .finite negative m q) := by
  have hbeyond : overflow ≤ num / den ↔ 2045 < q := by
    rw [overflow_le_div_iff hden, ← two_pow_mul_le_significandFor_mul_iff hden rfl, ← hvalue,
      two_pow_mul_le_mul_iff hm hfull]
  split_ifs with hlarge
  · exact .infinite (hbeyond.mpr hlarge)
  · apply IsRounding.finite ⟨hm, by omega, hfull⟩
    · rwa [← not_le, hbeyond]
    · intro n r hnumber hother
      exact prevails_of_significandFor hden hvalue heven hnumber.1 hother

end Quotient

/-- What is nearest to a quotient is what the quotient is rounded to. -/
theorem isRounding_nearest (negative : Bool) (num : ℕ) {den : ℕ} (hden : 0 < den) :
    IsRounding negative (num / den) (nearest negative num den) := by
  rw [nearest_eq_ite]
  by_cases hcarried : significandFor (num * scale) den = 2 ^ 53
  · rw [if_pos hcarried]
    apply isRounding_of_significandFor hden
    · rw [hcarried]
      ring
    · intro
      decide
    · decide
    · exact .inr le_rfl
  · rw [if_neg hcarried]
    apply isRounding_of_significandFor hden rfl negative id
    · exact Nat.lt_of_le_of_ne (significandFor_le _ hden) hcarried
    · exact (Nat.eq_zero_or_pos _).imp_right (le_significandFor _ hden)

section Unique

variable {negative : Bool} {a : ℚ} {m q n r : ℕ}

/-- A finite number has one significand and one exponent. -/
theorem eq_of_mul_pow_eq (h : IsCanonical (.finite negative m q))
    (h' : IsCanonical (.finite negative n r)) (heq : m * 2 ^ q = n * 2 ^ r) : m = n ∧ q = r := by
  have hsame (k : ℕ) : k < q ↔ k < r := by
    rw [← two_pow_mul_le_mul_iff h.1 h.2.2, ← two_pow_mul_le_mul_iff h'.1 h'.2.2, heq]
  have hq := hsame q
  have hr := hsame r
  obtain rfl : q = r := by omega
  exact ⟨Nat.eq_of_mul_eq_mul_right (Nat.two_pow_pos q) heq, rfl⟩

/-- The greatest significand is odd. -/
theorem isCanonical_succ (h : IsCanonical (.finite negative m q)) (heven : Even m) :
    IsCanonical (.finite negative (m + 1) q) := by
  have hlast : m + 1 ≠ 2 ^ 53 := by
    intro heq
    have hsucc : Even (m + 1) := by
      rw [heq]
      decide
    exact Nat.even_add_one.mp hsucc heven
  have hm : m + 1 ≤ 2 ^ 53 := h.1
  exact ⟨Nat.lt_of_le_of_ne hm hlast, h.2.1, h.2.2.imp_right Nat.le_succ_of_le⟩

/-- The next number behind one is a unit in its last place away. -/
theorem succ_mul_pow_le (h : IsCanonical (.finite negative m q))
    (h' : IsCanonical (.finite negative n r)) (hlt : m * 2 ^ q < n * 2 ^ r) :
    (m + 1) * 2 ^ q ≤ n * 2 ^ r := by
  rcases Nat.lt_or_ge r q with hfine | hcoarse
  · have hfull : 2 ^ 52 ≤ m := h.2.2.resolve_left (by omega)
    have hpow : 2 ^ (r + 1) ≤ 2 ^ q := Nat.pow_le_pow_right (by omega) hfine
    have hbelow : n * 2 ^ r < 2 ^ 53 * 2 ^ r := Nat.mul_lt_mul_of_pos_right h'.1 (Nat.two_pow_pos r)
    have habove := Nat.mul_le_mul hfull hpow
    rw [pow_succ] at habove
    omega
  · have hmul : n * 2 ^ r = n * 2 ^ (r - q) * 2 ^ q := by
      rw [Nat.mul_assoc, ← pow_add, Nat.sub_add_cancel hcoarse]
    rw [hmul] at hlt ⊢
    exact Nat.mul_le_mul_right _ (Nat.lt_of_mul_lt_mul_right hlt)

theorem magnitude_lt_iff : magnitude m q < magnitude n r ↔ m * 2 ^ q < n * 2 ^ r := by
  rw [magnitude, magnitude, div_lt_div_iff_of_pos_right (Nat.cast_pos.mpr scale_pos), Nat.cast_lt]

/-- Two numbers do not prevail over each other: as near as both are, the smaller one would be even, and
the next number behind it would be nearer or the other one itself, which is odd. -/
theorem not_lt_of_prevails (h : IsCanonical (.finite negative m q))
    (h' : IsCanonical (.finite negative n r))
    (hfirst : ∀ k e, IsCanonical (.finite negative k e) → magnitude k e ≠ magnitude m q →
      Prevails a (magnitude m q) m (magnitude k e))
    (hsecond : Prevails a (magnitude n r) n (magnitude m q)) : ¬ m * 2 ^ q < n * 2 ^ r := by
  intro hlt
  have hvalues := magnitude_lt_iff.mpr hlt
  have hle := (hfirst n r h' hvalues.ne').le
  rcases hsecond with hnear | ⟨htie, hn⟩
  · exact absurd hnear (not_lt.mpr hle)
  rcases hfirst n r h' hvalues.ne' with hnear | ⟨-, hm⟩
  · exact absurd hnear (not_lt.mpr htie.le)
  have hnext := isCanonical_succ h hm
  rcases (succ_mul_pow_le h h' hlt).eq_or_lt with hsame | hbetween
  · obtain ⟨rfl, -⟩ := eq_of_mul_pow_eq hnext h' hsame
    exact Nat.even_add_one.mp hn hm
  · have hstep : magnitude m q < magnitude (m + 1) q :=
      magnitude_lt_iff.mpr (Nat.mul_lt_mul_of_pos_right (Nat.lt_succ_self m) (Nat.two_pow_pos q))
    have hnearer := (hfirst (m + 1) q hnext hstep.ne').le
    have hbelow := magnitude_lt_iff.mpr hbetween
    rcases abs_eq_abs.mp htie with heq | hmiddle
    · linarith
    · rw [abs_of_neg (show magnitude m q - a < 0 by linarith)] at hnearer
      rcases le_abs.mp hnearer with habove | hunder <;> linarith

/-- There is one number that a rational number is rounded to. -/
theorem IsRounding.eq {x y : Binary64} (h : IsRounding negative a x) (h' : IsRounding negative a y) :
    x = y := by
  cases h with
  | @finite m q hnumber hfits hprevails =>
    cases h' with
    | @finite n r hnumber' hfits' hprevails' =>
      have hequal : m * 2 ^ q = n * 2 ^ r := by
        by_contra hne
        have hvalues : magnitude m q ≠ magnitude n r := by
          intro heq
          have hlow := magnitude_lt_iff.not.mp heq.not_lt
          have hhigh := magnitude_lt_iff.not.mp heq.not_gt
          omega
        rcases Nat.lt_or_gt_of_ne hne with hlt | hgt
        · exact not_lt_of_prevails hnumber hnumber' hprevails
            (hprevails' m q hnumber hvalues) hlt
        · exact not_lt_of_prevails hnumber' hnumber hprevails'
            (hprevails n r hnumber' hvalues.symm) hgt
      obtain ⟨rfl, rfl⟩ := eq_of_mul_pow_eq hnumber hnumber' hequal
      rfl
    | infinite hbeyond => exact absurd hfits (not_lt.mpr hbeyond)
  | infinite hbeyond =>
    cases h' with
    | finite _ hfits => exact absurd hfits (not_lt.mpr hbeyond)
    | infinite => rfl

end Unique

end Binary64

end PropertyList
