import PropertyList.Proofs.Number.Positional
import PropertyList.Proofs.Number.Rounding

/-! Numbers with six places. A number that is written with six places and read back is written the
same again, although it need not be the same number. -/
namespace PropertyList.Binary64

/-- Below 2 to the 1055th, the last place is finer than a millionth. -/
theorem last_place_lt_scale {e : ℕ} (he : e ≤ 1054) : 10 ^ 6 * 2 ^ e < scale := by
  have hE : 2 ^ e ≤ 2 ^ 1054 := Nat.pow_le_pow_right Nat.two_pos he
  have hpos := Nat.two_pow_pos e
  rw [scale_eq (show 20 + 1054 = 1074 by omega)]
  generalize 2 ^ 1054 = P at *
  omega

/-- From 2 to the 1055th on, the last place is coarser than a millionth. -/
theorem scale_lt_last_place {e : ℕ} (he : 1055 ≤ e) : scale < 10 ^ 6 * 2 ^ e := by
  have hE : 2 ^ 1055 ≤ 2 ^ e := Nat.pow_le_pow_right Nat.two_pos he
  have hpos := Nat.two_pow_pos 1055
  rw [scale_eq (show 19 + 1055 = 1074 by omega)]
  generalize 2 ^ 1055 = P at *
  omega

/-- Where the last place is small, the number read lies within half a millionth of the numeral. -/
theorem millionths_of_small {n m q r e : ℕ} (hv : m * 2 ^ q = r * 2 ^ e) (he : e ≤ 1054)
    (hlow : 2 * (r * 2 ^ e * 10 ^ 6) ≤ 2 * (n * scale) + 10 ^ 6 * 2 ^ e)
    (hhigh : 2 * (n * scale) ≤ 2 * (r * 2 ^ e * 10 ^ 6) + 10 ^ 6 * 2 ^ e) :
    millionths m q = n := by
  have hlt := last_place_lt_scale he
  rw [millionths, hv]
  exact roundHalfEven_eq (by omega) (by omega)

theorem millionths_bounds {m q n : ℕ} (hn : millionths m q = n) :
    2 * (n * scale) ≤ 2 * (m * 2 ^ q * 10 ^ 6) + scale ∧
      2 * (m * 2 ^ q * 10 ^ 6) ≤ 2 * (n * scale) + scale :=
  hn ▸ roundHalfEven_bounds (m * 2 ^ q * 10 ^ 6) scale_pos

/-- Where the last place is large, a number is the nearest one to its own numeral. -/
theorem significandFor_of_large {n m q e : ℕ} (hn : millionths m q = n) (he : 1055 ≤ e) (hq : e ≤ q)
    (hexp : exponentFor (n * scale / 10 ^ 6) = e) :
    significandFor (n * scale) (10 ^ 6) = m * 2 ^ (q - e) := by
  have hlt := scale_lt_last_place he
  have hb := millionths_bounds hn
  have hv : m * 2 ^ (q - e) * 2 ^ e = m * 2 ^ q := by
    rw [Nat.mul_assoc, ← pow_add, Nat.sub_add_cancel hq]
  apply significandFor_eq hexp
  · rw [hv]
    omega
  · rw [hv]
    omega

/-- From 1 on, the powers of two are whole numbers. -/
theorem power_eq_mul_scale {e : ℕ} (he : 1022 ≤ e) :
    2 ^ 52 * 2 ^ e * 10 ^ 6 = 2 ^ (e - 1022) * 10 ^ 6 * scale := by
  have hexp : 52 + e = e - 1022 + 1074 := by omega
  rw [scale, ← pow_add, Nat.mul_right_comm, ← pow_add, hexp]

/-- A numeral that is rounded up to the next power of two denotes this power, a whole number. -/
theorem mul_eq_of_carried {n m q e : ℕ} (hm : m < 2 ^ 53) (hn : millionths m q = n) (he : 1055 ≤ e)
    (hq : q < e) (hle : 2 ^ 52 * 2 ^ e * 10 ^ 6 ≤ n * scale) :
    n * scale = 2 ^ 52 * 2 ^ e * 10 ^ 6 := by
  have hwhole := power_eq_mul_scale (show 1022 ≤ e by omega)
  have hbelow : m * 2 ^ q * 10 ^ 6 ≤ 2 ^ (e - 1022) * 10 ^ 6 * scale := by
    rw [← hwhole]
    apply Nat.mul_le_mul_right
    calc m * 2 ^ q ≤ 2 ^ 53 * 2 ^ q := Nat.mul_le_mul_right _ hm.le
      _ = 2 ^ 52 * 2 ^ (q + 1) := by ring
      _ ≤ 2 ^ 52 * 2 ^ e := Nat.mul_le_mul_left _ (Nat.pow_le_pow_right (by omega) hq)
  have hup := roundHalfEven_mono scale_pos hbelow
  rw [roundHalfEven_mul _ scale_pos, ← millionths, hn] at hup
  apply Nat.le_antisymm _ hle
  rw [hwhole]
  exact Nat.mul_le_mul_right _ hup

/-- A number below a power of two stays below it by its last place at least. -/
theorem add_le_of_significand {m q P : ℕ} (hm : m < 2 ^ 53) (hP : 2 ^ q ≤ P) :
    m * 2 ^ q + P ≤ 2 ^ 53 * P := by
  have h1 : m * 2 ^ q ≤ m * P := Nat.mul_le_mul_left _ hP
  have h2 : (m + 1) * P ≤ 2 ^ 53 * P := Nat.mul_le_mul_right _ (Nat.succ_le_of_lt hm)
  rw [Nat.add_mul, Nat.one_mul] at h2
  exact (Nat.add_le_add_right h1 P).trans h2

/-- What lies near a number is not carried beyond its exponent. -/
theorem exponent_le_of_near {m q e k slack : ℕ} (hm : m < 2 ^ 53) (hq : q ≤ k)
    (hslack : slack ≤ 10 ^ 6 * 2 ^ k)
    (hnear : 2 * (2 ^ 52 * 2 ^ e * 10 ^ 6) ≤ 2 * (m * 2 ^ q * 10 ^ 6) + slack) : e ≤ k := by
  by_contra hlt
  have hE : 2 ^ (k + 1) ≤ 2 ^ e := Nat.pow_le_pow_right (by omega) (by omega)
  have hV := add_le_of_significand hm (Nat.pow_le_pow_right (by omega : 0 < 2) hq)
  have hpos : 0 < 2 ^ k := Nat.two_pow_pos k
  rw [pow_succ] at hE
  generalize 2 ^ k = P at *
  generalize 2 ^ e = E at *
  generalize m * 2 ^ q = V at *
  omega

/-- Rounding to six places and reading back does not change the six places. -/
theorem millionths_nearest (negative : Bool) {m q : ℕ} (hm : m < 2 ^ 53) (hq : q ≤ 2045) :
    ∃ r e, nearest negative (millionths m q) (10 ^ 6) = .finite negative r e ∧
      millionths r e = millionths m q := by
  generalize hn : millionths m q = n
  obtain ⟨r, k, hv, hk, hcarry, hnear⟩ := nearest_eq negative n (10 ^ 6)
  generalize hexp : exponentFor (n * scale / 10 ^ 6) = e at hv hk hcarry
  have hfin (hle : k ≤ 2045) : nearest negative n (10 ^ 6) = .finite negative r k := by
    rw [hnear, if_neg (by omega)]
  have hb := significandFor_bounds (by omega) hexp
  rcases Nat.lt_or_ge 1054 e with hlarge | hsmall
  · rcases Nat.lt_or_ge q e with hqe | hqe
    · have hle := le_of_exponentFor (show 0 < exponentFor (n * scale / 10 ^ 6) by omega)
      rw [hexp, Nat.le_div_iff_mul_le (by omega)] at hle
      have heq := mul_eq_of_carried hm hn hlarge hqe hle
      have hpos := Nat.two_pow_pos e
      have hsig : significandFor (n * scale) (10 ^ 6) = 2 ^ 52 :=
        significandFor_eq hexp (by omega) (by omega)
      have hke : k = e := hcarry (by omega)
      have hmax : e ≤ 2045 := by
        apply exponent_le_of_near hm hq (scale_lt_last_place (by omega)).le
        rw [← heq]
        exact (millionths_bounds hn).1
      refine ⟨r, k, hfin (by omega), ?_⟩
      rw [millionths, hv, hsig, ← heq, roundHalfEven_mul _ scale_pos]
    · have hsig := significandFor_of_large hn hlarge hqe hexp
      have hke : k ≤ q := by
        rcases Nat.eq_or_lt_of_le hqe with rfl | hlt
        · rw [Nat.sub_self, pow_zero, Nat.mul_one] at hsig
          exact (hcarry (by omega)).le
        · omega
      refine ⟨r, k, hfin (by omega), ?_⟩
      rw [millionths, hv, hsig, Nat.mul_assoc m, ← pow_add, Nat.sub_add_cancel hqe, ← hn, millionths]
  · exact ⟨r, k, hfin (by omega), millionths_of_small hv (by omega) hb.1 hb.2⟩

theorem millionths_zero (q : ℕ) : millionths 0 q = 0 := by
  have hround := roundHalfEven_mul 0 scale_pos
  rw [Nat.zero_mul] at hround
  rw [millionths, Nat.zero_mul, Nat.zero_mul, hround]

/-- No floating-point number has more than 400 digits in its millionths. -/
theorem millionths_lt {m q : ℕ} (hm : m < 2 ^ 53) (hq : q ≤ 2045) :
    ∃ k ≤ 400, millionths m q < 10 ^ k := by
  -- The power of two that bounds all numbers, as a power of eight.
  obtain ⟨a, ha⟩ : ∃ a, a = 342 := ⟨342, rfl⟩
  have hbound : m * 2 ^ q * 10 ^ 6 ≤ 2 ^ (3 * a) * 10 ^ 6 * scale := by
    have hexp : m * 2 ^ q ≤ 2 ^ (53 + q) := by
      rw [pow_add]
      exact Nat.mul_le_mul_right _ hm.le
    calc m * 2 ^ q * 10 ^ 6 ≤ 2 ^ (53 + q) * 10 ^ 6 := Nat.mul_le_mul_right _ hexp
      _ ≤ 2 ^ (3 * a + 1074) * 10 ^ 6 :=
          Nat.mul_le_mul_right _ (Nat.pow_le_pow_right (by omega) (by omega))
      _ = 2 ^ (3 * a) * 10 ^ 6 * scale := by rw [scale, pow_add, Nat.mul_right_comm]
  have hround := roundHalfEven_mono scale_pos hbound
  rw [roundHalfEven_mul _ scale_pos, ← millionths] at hround
  have hten : 2 ^ (3 * a) ≤ 10 ^ a := by
    rw [pow_mul]
    exact Nat.pow_le_pow_left (by omega) a
  refine ⟨a + 7, by omega, ?_⟩
  calc millionths m q ≤ 10 ^ a * 10 ^ 6 := hround.trans (Nat.mul_le_mul_right _ hten)
    _ = 10 ^ (a + 6) := (pow_add 10 a 6).symm
    _ < 10 ^ (a + 7) := Nat.pow_lt_pow_right (by omega) (by omega)

/-- A numeral of millionths is read as the number nearest to it. -/
theorem ofDecimal_millionths (negative : Bool) {ds : List ℕ} {k : ℕ} (hk : k ≤ 400)
    (h : ofDigits 10 ds < 10 ^ k) :
    ofDecimal negative ds (-6) =
      if ofDigits 10 ds = 0 then .finite negative 0 0
      else nearest negative (ofDigits 10 ds) (10 ^ 6) := by
  rw [← ofDigits_dropWhile_zero] at h ⊢
  unfold ofDecimal
  cases hsig : ds.dropWhile (· == 0) with
  | nil => simp [ofDigits]
  | cons d rest =>
    have hd : d ≠ 0 := by
      have hhead := List.head_dropWhile_not (· == 0) (w := by rw [hsig]; simp)
      simpa [hsig] using hhead
    have hpow : 10 ^ rest.length ≤ ofDigits 10 (d :: rest) := pow_le_ofDigits hd rest
    have hpos : ofDigits 10 (d :: rest) ≠ 0 := by
      have hone : 0 < 10 ^ rest.length := Nat.pow_pos (by omega)
      exact Nat.ne_of_gt (hone.trans_le hpow)
    rw [hsig] at h
    have hlen : rest.length < k :=
      (Nat.pow_lt_pow_iff_right (show 1 < 10 by omega)).mp (hpow.trans_lt h)
    have hsmall : ¬ (((d :: rest).length : ℤ) + -6 < -400) := by
      rw [List.length_cons]
      omega
    have hlarge : ¬ (400 < ((d :: rest).length : ℤ) + -6) := by
      rw [List.length_cons]
      omega
    have hsign : ¬ ((0 : ℤ) ≤ -6) := by omega
    have hplaces : (-(-6 : ℤ)).toNat = 6 := rfl
    simp only [List.isEmpty_cons, Bool.false_or, decide_eq_true_eq, hsmall, hlarge, hsign,
      if_false, hpos, hplaces, Nat.pow_eq]

end PropertyList.Binary64
