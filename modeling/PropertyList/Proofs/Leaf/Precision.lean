import PropertyList.Proofs.Leaf.Real

/-! How near a number comes back. A number that is written with six places is read as one within a
millionth of it. From 2 to the 33rd on the last place of a number is coarser than a millionth, and
the number is read as itself. -/
namespace PropertyList

namespace Binary64

/-- The sign bit; zeros have one too. -/
def isNegative : Binary64 → Bool
  | .nan => false
  | .infinite negative => negative
  | .finite negative _ _ => negative

theorem abs_ofSign (negative : Bool) : |(if negative then -1 else 1 : ℚ)| = 1 := by
  cases negative <;> simp

/-- Every word of 64 bits is a floating-point number. -/
theorem isCanonical_ofBits (word : ℕ) : (ofBits word).IsCanonical := by
  have hbiased : word / 2 ^ 52 % 2 ^ 11 < 2 ^ 11 := Nat.mod_lt _ (by omega)
  have hfraction : word % 2 ^ 52 < 2 ^ 52 := Nat.mod_lt _ (by omega)
  simp only [ofBits, Nat.pow_eq, beq_iff_eq]
  split_ifs with hlast hzero hfirst
  · trivial
  · trivial
  · exact ⟨hfraction.trans (by decide), Nat.zero_le _, .inl rfl⟩
  · refine ⟨?_, ?_, .inr (Nat.le_add_right _ _)⟩
    · change 2 ^ 52 + word % 2 ^ 52 < 2 ^ 53
      omega
    · omega

/-- From 2 to the 33rd on, a number is the nearest one to its own six places. -/
theorem nearest_millionths_of_large (negative : Bool) {m q : ℕ} (hm : m < 2 ^ 53)
    (hfull : 2 ^ 52 ≤ m) (hq : 1055 ≤ q) (hmax : q ≤ 2045) :
    nearest negative (millionths m q) (10 ^ 6) = .finite negative m q := by
  generalize hn : millionths m q = n
  generalize hexp : exponentFor (n * scale / 10 ^ 6) = e
  have hge : q ≤ e := by
    have hround := roundHalfEven_mono scale_pos
      (Nat.mul_le_mul_right (10 ^ 6) (Nat.mul_le_mul_right (2 ^ q) hfull))
    rw [power_eq_mul_scale (by omega), roundHalfEven_mul _ scale_pos, ← millionths, hn] at hround
    rw [← hexp]
    apply le_exponentFor
    rw [Nat.le_div_iff_mul_le (by omega), power_eq_mul_scale (by omega)]
    exact Nat.mul_le_mul_right _ hround
  have hle : e ≤ q := by
    have hlow := le_of_exponentFor (show 0 < exponentFor (n * scale / 10 ^ 6) by omega)
    rw [hexp, Nat.le_div_iff_mul_le (by omega)] at hlow
    apply exponent_le_of_near hm le_rfl (scale_lt_last_place hq).le
    exact (Nat.mul_le_mul_left 2 hlow).trans (millionths_bounds hn).1
  obtain rfl : e = q := Nat.le_antisymm hle hge
  have hsig : significandFor (n * scale) (10 ^ 6) = m := by
    rw [significandFor_of_large hn hq le_rfl hexp, Nat.sub_self, pow_zero, Nat.mul_one]
  obtain ⟨r, k, hv, -, hcarry, hnear⟩ := nearest_eq negative n (10 ^ 6)
  rw [hsig, hexp] at hv hcarry
  obtain rfl : k = e := hcarry hm
  obtain rfl : r = m := Nat.eq_of_mul_eq_mul_right (Nat.two_pow_pos k) hv
  rw [hnear, if_neg (by omega)]

/-- Two numbers with the same six places lie within a millionth of each other. -/
theorem abs_sub_le_of_millionths_eq {m q n r : ℕ} (h : millionths n r = millionths m q) :
    |((n * 2 ^ r : ℕ) : ℚ) / scale - ((m * 2 ^ q : ℕ) : ℚ) / scale| ≤ 1 / 10 ^ 6 := by
  have hleft := millionths_bounds h
  have hright := millionths_bounds (rfl : millionths m q = millionths m q)
  generalize millionths m q = places at hleft hright
  generalize n * 2 ^ r = a at hleft ⊢
  generalize m * 2 ^ q = b at hright ⊢
  have hpos := scale_pos
  generalize scale = s at hleft hright hpos ⊢
  have hlow : (b : ℚ) * 10 ^ 6 ≤ a * 10 ^ 6 + s := by
    have hnat : b * 10 ^ 6 ≤ a * 10 ^ 6 + s := by omega
    exact_mod_cast hnat
  have hhigh : (a : ℚ) * 10 ^ 6 ≤ b * 10 ^ 6 + s := by
    have hnat : a * 10 ^ 6 ≤ b * 10 ^ 6 + s := by omega
    exact_mod_cast hnat
  have hs : (0 : ℚ) < s := Nat.cast_pos.mpr hpos
  rw [← sub_div, abs_div, abs_of_pos hs, div_le_div_iff₀ hs (by positivity), one_mul,
    ← abs_of_pos (show (0 : ℚ) < 10 ^ 6 by positivity), ← abs_mul, abs_le]
  constructor <;> linarith

theorem abs_div_scale (n : ℕ) : |(n : ℚ) / scale| = n / scale :=
  abs_of_nonneg (div_nonneg (Nat.cast_nonneg n) (Nat.cast_nonneg scale))

theorem le_div_scale_iff {n : ℕ} : 2 ^ 33 ≤ (n : ℚ) / scale ↔ 2 ^ 33 * scale ≤ n := by
  have hpos := scale_pos
  generalize scale = s at hpos ⊢
  rw [le_div_iff₀ (Nat.cast_pos.mpr hpos)]
  exact_mod_cast Iff.rfl

/-- A number of at least 2 to the 33rd has all its 53 bits, and a coarse last place. -/
theorem full_of_large {m q : ℕ} (hm : m < 2 ^ 53) (hfull : q = 0 ∨ 2 ^ 52 ≤ m)
    (h : 2 ^ 33 * scale ≤ m * 2 ^ q) : 2 ^ 52 ≤ m ∧ 1055 ≤ q := by
  have hq : 1055 ≤ q := by
    by_contra hsmall
    have hpower : 2 ^ q ≤ 2 ^ 1054 := Nat.pow_le_pow_right (by omega) (by omega)
    have hlt : m * 2 ^ q < 2 ^ 53 * 2 ^ 1054 :=
      Nat.mul_lt_mul_of_lt_of_le hm hpower (Nat.two_pow_pos _)
    rw [scale_eq (show 20 + 1054 = 1074 by omega)] at h
    generalize 2 ^ 1054 = P at h hlt
    omega
  exact ⟨hfull.resolve_left (by omega), hq⟩

/-- What is no rational number comes back itself. -/
theorem reread_of_toRat?_eq_none {x : Binary64} (h : x.toRat? = none) : x.reread = x := by
  rcases x with _ | negative | ⟨negative, m, q⟩
  · decide
  · cases negative <;> decide
  · cases h

theorem isCanonical_reread {x : Binary64} (h : x.IsCanonical) : x.reread.IsCanonical := by
  rcases x with _ | negative | ⟨negative, m, q⟩
  · rw [reread_of_toRat?_eq_none rfl]
    exact h
  · rw [reread_of_toRat?_eq_none rfl]
    exact h
  · rw [reread_finite_eq negative h.1 h.2.1]
    generalize millionths m q = n
    split_ifs
    · exact ⟨by decide, Nat.zero_le _, .inl rfl⟩
    · exact isCanonical_nearest negative n (by omega)

theorem reread_of_large (negative : Bool) {m q : ℕ} (hm : m < 2 ^ 53) (hfull : 2 ^ 52 ≤ m)
    (hq : 1055 ≤ q) (hmax : q ≤ 2045) :
    (Binary64.finite negative m q).reread = .finite negative m q := by
  have hnear := nearest_millionths_of_large negative hm hfull hq hmax
  rw [reread_finite_eq negative hm hmax, if_neg, hnear]
  intro hzero
  have hbounds := (millionths_bounds hzero).2
  have hlarge := (scale_lt_last_place hq).trans_le
    (Nat.mul_le_mul_right (2 ^ q) (show 10 ^ 6 ≤ m by omega))
  omega

end Binary64

open Binary64

/-- Whoever reads the six places of a number finds a number again. What is infinite or no number
comes back itself; a rational number comes back with its sign, within a millionth, and from 2 to the
33rd on as the same word. -/
theorem decodeReal_encodeReal_ofBits (strict : Bool) (word : ℕ) :
    ∃ y, decodeReal strict (encodeReal (.ofBits word)) = pure y ∧ y.IsCanonical ∧
      ((ofBits word).toRat? = none → y = .ofBits word) ∧
      ∀ a, (ofBits word).toRat? = some a →
        y.isNegative = (ofBits word).isNegative ∧
        (∃ b, y.toRat? = some b ∧ |b - a| ≤ 1 / 10 ^ 6) ∧
        (2 ^ 33 ≤ |a| → y = .ofBits word) := by
  have hword := isCanonical_ofBits word
  refine ⟨_, decodeReal_encodeReal strict _, isCanonical_reread hword,
    reread_of_toRat?_eq_none, ?_⟩
  intro a ha
  rcases hx : ofBits word with _ | negative | ⟨negative, m, q⟩
  · simp [hx, toRat?] at ha
  · simp [hx, toRat?] at ha
  · rw [hx] at hword ha
    obtain ⟨n, r, hread, hplaces⟩ := exists_reread_finite negative hword.1 hword.2.1
    obtain rfl := Option.some.inj ha
    refine ⟨by rw [hread]; rfl, ⟨_, by rw [hread]; rfl, ?_⟩, ?_⟩
    · rw [← mul_sub, abs_mul, abs_ofSign, one_mul]
      exact abs_sub_le_of_millionths_eq hplaces
    · intro hlarge
      rw [abs_mul, abs_ofSign, one_mul, abs_div_scale] at hlarge
      obtain ⟨hfull, hq⟩ := full_of_large hword.1 hword.2.2 (le_div_scale_iff.mp hlarge)
      exact reread_of_large negative hword.1 hfull hq hword.2.1

/-- What is no number, the negative number nearest to zero, and the first number behind 2 to the
33rd. -/
theorem decodeReal_encodeReal_ofBits_words :
    ((ofBits 0x7FF8000000000000).toRat? = none ∧
      decodeReal true (encodeReal (.ofBits 0x7FF8000000000000)) = pure .nan) ∧
    (∃ a y, (ofBits 0x8000000000000001).toRat? = some a ∧
      decodeReal false (encodeReal (.ofBits 0x8000000000000001)) = pure y ∧ y.isNegative = true ∧
      ∃ b, y.toRat? = some b ∧ |b - a| ≤ 1 / 10 ^ 6) ∧
    ∃ a, (ofBits 0x4200000000000001).toRat? = some a ∧ 2 ^ 33 ≤ |a| ∧
      decodeReal true (encodeReal (.ofBits 0x4200000000000001)) =
        pure (.ofBits 0x4200000000000001) := by
  refine ⟨⟨by decide, ?_⟩, ?_, ?_⟩
  · obtain ⟨y, hread, -, hother, -⟩ := decodeReal_encodeReal_ofBits true 0x7FF8000000000000
    rw [hread, hother (by decide)]
    rfl
  · obtain ⟨y, hread, -, -, hnumber⟩ := decodeReal_encodeReal_ofBits false 0x8000000000000001
    obtain ⟨hsign, hnear, -⟩ := hnumber _ rfl
    exact ⟨_, y, rfl, hread, hsign, hnear⟩
  · have hword : ofBits 0x4200000000000001 = .finite false (2 ^ 52 + 1) 1055 := by decide
    have hvalue := hword ▸ toRat?_positive (2 ^ 52 + 1) 1055
    have hlarge : (2 : ℚ) ^ 33 ≤ |((2 ^ 52 + 1) * 2 ^ 1055 : ℕ) / (scale : ℚ)| := by
      rw [abs_div_scale, le_div_scale_iff, scale_eq (show 19 + 1055 = 1074 by omega),
        ← Nat.mul_assoc]
      exact Nat.mul_le_mul_right _ (by decide)
    obtain ⟨y, hread, -, -, hnumber⟩ := decodeReal_encodeReal_ofBits true 0x4200000000000001
    obtain ⟨-, -, hsame⟩ := hnumber _ hvalue
    exact ⟨_, hvalue, hlarge, by rw [hread, hsame hlarge]⟩

end PropertyList
