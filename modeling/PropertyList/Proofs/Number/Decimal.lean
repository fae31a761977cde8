import PropertyList.Proofs.Number.Nearest
import PropertyList.Proofs.Number.Positional

/-! Decimals of any length and any exponent are rounded correctly. Beyond four hundred places on
either side of the point all of them are infinite or zero, whatever their digits are. -/
namespace PropertyList

namespace Binary64

theorem overflow_le_ten_pow : overflow ≤ 10 ^ 400 := by
  calc overflow ≤ 2 ^ 1024 := sub_le_self _ (by positivity)
    _ ≤ 2 ^ (3 * 400) := pow_le_pow_right₀ (by norm_num) (by omega)
    _ = (2 ^ 3) ^ 400 := pow_mul _ _ _
    _ ≤ 10 ^ 400 := pow_le_pow_left₀ (by norm_num) (by norm_num) _

theorem one_le_overflow : 1 ≤ overflow := by
  rw [overflow, le_sub_iff_add_le]
  calc (1 : ℚ) + 2 ^ 970 ≤ 2 ^ 970 + 2 ^ 970 := by
        exact add_le_add_left (one_le_pow₀ (by norm_num)) _
    _ = 2 ^ (970 + 1) := (mul_two _).symm.trans (pow_succ 2 970).symm
    _ ≤ 2 ^ 1024 := pow_le_pow_right₀ (by norm_num) (by omega)

theorem two_mul_scale_le_ten_pow : (2 * scale : ℚ) ≤ 10 ^ 401 := by
  have hscale : (scale : ℚ) = 2 ^ 1074 := by rw [scale, Nat.cast_pow, Nat.cast_ofNat]
  calc (2 * scale : ℚ) = 2 * 2 ^ 1074 := by rw [hscale]
    _ = 2 ^ (1074 + 1) := (pow_succ' 2 1074).symm
    _ ≤ 2 ^ (3 * 401) := pow_le_pow_right₀ (by norm_num) (by omega)
    _ = (2 ^ 3) ^ 401 := pow_mul _ _ _
    _ ≤ 10 ^ 401 := pow_le_pow_left₀ (by norm_num) (by norm_num) _

theorem mul_scale_lt_one {a : ℚ} (h : a < 10 ^ (-401 : ℤ)) : a * (2 * scale) < 1 := by
  have hinverse : (10 : ℚ) ^ (-401 : ℤ) * 10 ^ 401 = 1 := by
    rw [zpow_neg, zpow_ofNat]
    exact inv_mul_cancel₀ (by positivity)
  calc a * (2 * scale) < 10 ^ (-401 : ℤ) * (2 * scale) :=
        mul_lt_mul_of_pos_right h (mul_pos two_pos (Nat.cast_pos.mpr scale_pos))
    _ ≤ 10 ^ (-401 : ℤ) * 10 ^ 401 :=
        mul_le_mul_of_nonneg_left two_mul_scale_le_ten_pow (by positivity)
    _ = 1 := hinverse

/-- What lies below half the least number is rounded to zero. -/
theorem isRounding_zero (negative : Bool) {a : ℚ} (hpos : 0 ≤ a) (hsmall : a * (2 * scale) < 1) :
    IsRounding negative a (.finite negative 0 0) := by
  have hscale : (1 : ℚ) ≤ scale := Nat.one_le_cast.mpr scale_pos
  have hzero : magnitude 0 0 = 0 := by rw [magnitude, Nat.zero_mul, Nat.cast_zero, zero_div]
  apply IsRounding.finite ⟨by decide, Nat.zero_le _, .inl rfl⟩
  · exact (show a < 1 by nlinarith).trans_le one_le_overflow
  · intro n r _ hother
    left
    have hne : 0 < n * 2 ^ r := by
      apply Nat.pos_of_ne_zero
      intro heq
      exact hother (by rw [magnitude, heq, hzero, Nat.cast_zero, zero_div])
    have hone : 1 ≤ magnitude n r * scale := by
      rw [magnitude_mul_scale]
      exact_mod_cast hne
    have hfar : 2 * a < magnitude n r := by nlinarith
    rw [hzero, zero_sub, abs_neg, abs_of_nonneg hpos, abs_of_nonneg (by linarith)]
    linarith

/-- The first digit that is not zero tells the magnitude of a decimal. -/
theorem ofDigits_mul_zpow_bounds {d : ℕ} {ds : List ℕ} (hd : d ≠ 0) (hds : ∀ n ∈ d :: ds, n < 10)
    (exponent : ℤ) :
    10 ^ (ds.length + exponent) ≤ (ofDigits 10 (d :: ds) : ℚ) * 10 ^ exponent ∧
      (ofDigits 10 (d :: ds) : ℚ) * 10 ^ exponent < 10 ^ (ds.length + 1 + exponent) := by
  have hpos : (0 : ℚ) < 10 ^ exponent := by positivity
  have hlow : 10 ^ ds.length ≤ ofDigits 10 (d :: ds) := pow_le_ofDigits hd ds
  have hhigh : ofDigits 10 (d :: ds) < 10 ^ (ds.length + 1) := by
    rw [ofDigits_eq, ← List.length_cons, ← List.length_reverse]
    exact Nat.ofDigits_lt_base_pow_length (by omega) fun n hn => hds n (List.mem_reverse.mp hn)
  constructor
  · rw [zpow_add₀ (by norm_num), zpow_natCast]
    exact mul_le_mul_of_nonneg_right (by exact_mod_cast hlow) hpos.le
  · rw [zpow_add₀ (by norm_num), ← Nat.cast_succ, zpow_natCast]
    exact mul_lt_mul_of_pos_right (by exact_mod_cast hhigh) hpos

/-- A decimal of any length and any exponent becomes what it is rounded to. -/
theorem isRounding_ofDecimal (negative : Bool) {ds : List ℕ} (hds : ∀ d ∈ ds, d < 10)
    (exponent : ℤ) :
    IsRounding negative (ofDigits 10 ds * 10 ^ exponent) (ofDecimal negative ds exponent) := by
  have hten : (1 : ℚ) ≤ 10 := by norm_num
  rw [← ofDigits_dropWhile_zero]
  unfold ofDecimal
  cases hsignificant : ds.dropWhile (· == 0) with
  | nil =>
    have hzero : (ofDigits 10 [] : ℚ) * 10 ^ exponent = 0 := zero_mul _
    rw [hzero]
    exact isRounding_zero negative le_rfl (by rw [zero_mul]; exact zero_lt_one)
  | cons d rest =>
    have hd : d ≠ 0 := by
      have hhead := List.head?_dropWhile_not (· == 0) ds
      rw [hsignificant] at hhead
      simpa using hhead
    have hdigits : ∀ n ∈ d :: rest, n < 10 := by
      rw [← hsignificant]
      exact fun n hn => hds n ((List.dropWhile_sublist _).subset hn)
    obtain ⟨hlow, hhigh⟩ := ofDigits_mul_zpow_bounds hd hdigits exponent
    simp only [List.isEmpty_cons, Bool.false_or, decide_eq_true_eq, List.length_cons,
      Nat.cast_succ]
    split_ifs with htiny hhuge hwhole
    · apply isRounding_zero negative (by positivity)
      exact mul_scale_lt_one (hhigh.trans_le (zpow_le_zpow_right₀ hten (by omega)))
    · apply IsRounding.infinite
      have hpower : (10 : ℚ) ^ (400 : ℤ) ≤ 10 ^ (rest.length + exponent) :=
        zpow_le_zpow_right₀ hten (by omega)
      rw [zpow_ofNat] at hpower
      exact (overflow_le_ten_pow.trans hpower).trans hlow
    · obtain ⟨k, rfl⟩ := Int.eq_ofNat_of_zero_le hwhole
      have hround := isRounding_nearest negative (ofDigits 10 (d :: rest) * 10 ^ k) zero_lt_one
      rw [Nat.cast_one, div_one, Nat.cast_mul, Nat.cast_pow, Nat.cast_ofNat] at hround
      rwa [zpow_natCast, Int.toNat_natCast, Nat.pow_eq]
    · obtain ⟨k, hk⟩ := Int.eq_ofNat_of_zero_le (show 0 ≤ -exponent by omega)
      obtain rfl : exponent = -k := by omega
      have hround := isRounding_nearest negative (ofDigits 10 (d :: rest))
        (show 0 < 10 ^ k by positivity)
      rw [Nat.cast_pow, Nat.cast_ofNat, div_eq_mul_inv] at hround
      rwa [neg_neg, Int.toNat_natCast, zpow_neg, zpow_natCast, Nat.pow_eq]

end Binary64

end PropertyList
