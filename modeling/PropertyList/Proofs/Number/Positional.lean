import Mathlib.Data.Nat.Digits.Lemmas
import PropertyList.Number.Positional
import PropertyList.Proofs.Text.Classes

/-! Numerals read back: digits stand for their number, and decimal numerals hold digits only. -/
namespace PropertyList

theorem ofDigits_eq (base : ℕ) (ds : List ℕ) : ofDigits base ds = Nat.ofDigits base ds.reverse := by
  rw [Nat.ofDigits_eq_foldr, List.foldr_reverse]
  simp [ofDigits, Nat.mul_comm base, Nat.add_comm]

theorem ofDigits_append (base : ℕ) (upper lower : List ℕ) :
    ofDigits base (upper ++ lower) =
      ofDigits base upper * base ^ lower.length + ofDigits base lower := by
  rw [ofDigits_eq, ofDigits_eq, ofDigits_eq, List.reverse_append, Nat.ofDigits_append,
    List.length_reverse]
  ring

/-- Leading zeros do not count. -/
theorem ofDigits_dropWhile_zero (base : ℕ) (ds : List ℕ) :
    ofDigits base (ds.dropWhile (· == 0)) = ofDigits base ds := by
  induction ds with
  | nil => rfl
  | cons d ds ih =>
    by_cases hd : d = 0
    · rw [List.dropWhile_cons_of_pos (by simpa using hd), ih, hd]
      simp [ofDigits]
    · rw [List.dropWhile_cons_of_neg (by simpa using hd)]

theorem pow_le_ofDigits {base d : ℕ} (hd : d ≠ 0) (ds : List ℕ) :
    base ^ ds.length ≤ ofDigits base (d :: ds) := by
  have hone : ofDigits base [d] = d := by simp [ofDigits]
  rw [← List.singleton_append, ofDigits_append, hone]
  exact (Nat.le_mul_of_pos_left _ (Nat.pos_of_ne_zero hd)).trans (Nat.le_add_right _ _)

theorem digitsOnto_eq {base : ℕ} (hb : 1 < base) (count n : ℕ) (lower : List ℕ) (hn : 0 < n)
    (hc : n < count) : digitsOnto base count n lower = (Nat.digits base n).reverse ++ lower := by
  induction count generalizing n lower with
  | zero => omega
  | succ count ih =>
    rw [digitsOnto]
    split
    · rw [Nat.digits_of_lt base n (by omega) (by assumption)]
      rfl
    · have hq : n / base < n := Nat.div_lt_self hn hb
      rw [ih (n / base) _ (Nat.div_pos (by omega) (by omega)) (by omega),
        Nat.digits_def' hb hn, List.reverse_cons, List.append_assoc]
      rfl

theorem digits_zero {base : ℕ} (hb : 1 < base) : digits base 0 = [0] := by
  rw [digits, digitsOnto, if_pos (by omega)]

theorem digits_eq {base n : ℕ} (hb : 1 < base) (hn : 0 < n) :
    digits base n = (Nat.digits base n).reverse := by
  rw [digits, digitsOnto_eq hb _ _ _ hn (by omega), List.append_nil]

theorem ofDigits_digits {base : ℕ} (hb : 1 < base) (n : ℕ) :
    ofDigits base (digits base n) = n := by
  rcases Nat.eq_zero_or_pos n with rfl | hn
  · rw [digits_zero hb, ofDigits_eq]
    simp
  · rw [digits_eq hb hn, ofDigits_eq, List.reverse_reverse, Nat.ofDigits_digits]

theorem lt_of_mem_digits {base n d : ℕ} (hb : 1 < base) (h : d ∈ digits base n) : d < base := by
  rcases Nat.eq_zero_or_pos n with rfl | hn
  · rw [digits_zero hb] at h
    simp only [List.mem_singleton] at h
    omega
  · rw [digits_eq hb hn, List.mem_reverse] at h
    exact Nat.digits_lt_base hb h

theorem digits_ne_nil {base : ℕ} (hb : 1 < base) (n : ℕ) : digits base n ≠ [] := by
  rcases Nat.eq_zero_or_pos n with rfl | hn
  · simp [digits_zero hb]
  · simp [digits_eq hb hn, Nat.digits_ne_nil_iff_ne_zero, Nat.ne_of_gt hn]

theorem digits_length_le {base n k : ℕ} (hb : 1 < base) (hk : 0 < k) (h : n < base ^ k) :
    (digits base n).length ≤ k := by
  rcases Nat.eq_zero_or_pos n with rfl | hn
  · rw [digits_zero hb]
    exact hk
  · rw [digits_eq hb hn, List.length_reverse]
    exact (Nat.digits_length_le_iff hb n).mpr h

/-- Only zero has a numeral that opens with a zero. -/
theorem head_digits_ne_zero {base n : ℕ} (hb : 1 < base) (hn : 0 < n) :
    (digits base n).head (digits_ne_nil hb n) ≠ 0 := by
  have hne : Nat.digits base n ≠ [] := Nat.digits_ne_nil_iff_ne_zero.mpr (by omega)
  have heq := digits_eq hb hn
  have hhead : (digits base n).head (digits_ne_nil hb n) = (Nat.digits base n).getLast hne := by
    simp [heq, List.head_reverse]
  rw [hhead]
  exact Nat.getLast_digit_ne_zero base (by omega)

theorem isDigit_add {d : ℕ} (h : d < 10) : isDigit (ch '0' + d) = true := by
  refine isDigit_iff.mpr ?_
  change 48 ≤ 48 + d ∧ 48 + d ≤ 57
  omega

theorem isDigit_of_mem_decimal {n c : ℕ} (h : c ∈ decimal n) : isDigit c = true := by
  obtain ⟨d, hd, rfl⟩ := List.mem_map.mp h
  exact isDigit_add (lt_of_mem_digits (by omega) hd)

theorem decimal_ne_nil (n : ℕ) : decimal n ≠ [] := by
  simp [decimal, digits_ne_nil]

theorem decimal_length_le {n k : ℕ} (hk : 0 < k) (h : n < 10 ^ k) : (decimal n).length ≤ k := by
  rw [decimal, List.length_map]
  exact digits_length_le (by omega) hk h

/-- A positive number opens with a digit from one to nine. -/
theorem decimal_cons {n : ℕ} (hn : 0 < n) :
    ∃ c rest, decimal n = c :: rest ∧ c ≠ ch '0' ∧ isDigit c = true := by
  have hne := digits_ne_nil (show 1 < 10 by omega) n
  have hhead := head_digits_ne_zero (show 1 < 10 by omega) hn
  cases hd : digits 10 n with
  | nil => exact absurd hd hne
  | cons d ds =>
    simp only [hd, List.head_cons] at hhead
    refine ⟨ch '0' + d, ds.map (ch '0' + ·), by simp [decimal, hd], ?_, ?_⟩
    · change 48 + d ≠ 48
      omega
    · apply isDigit_of_mem_decimal (n := n)
      simp [decimal, hd]

theorem map_sub_decimal (n : ℕ) : (decimal n).map (· - ch '0') = digits 10 n := by
  rw [decimal, List.map_map]
  conv_rhs => rw [← List.map_id (digits 10 n)]
  apply List.map_congr_left
  intro d _
  simp

theorem digitValue_of_isDigit {c : ℕ} (h : isDigit c = true) : digitValue c = c - ch '0' := by
  rw [digitValue, if_pos h]

theorem numeralValue_decimal (n : ℕ) : numeralValue 10 (decimal n) = n := by
  have hmap : (decimal n).map digitValue = (decimal n).map (· - ch '0') :=
    List.map_congr_left fun c hc => digitValue_of_isDigit (isDigit_of_mem_decimal hc)
  rw [numeralValue, hmap, map_sub_decimal, ofDigits_digits (by omega)]

theorem isDigit_of_mem_paddedDecimal {width n c : ℕ} (h : c ∈ paddedDecimal width n) :
    isDigit c = true := by
  induction width generalizing n with
  | zero => simp [paddedDecimal] at h
  | succ width ih =>
    rcases List.mem_append.mp h with h | h
    · exact ih h
    · rw [List.mem_singleton.mp h]
      exact isDigit_add (Nat.mod_lt n (by omega))

@[simp] theorem paddedDecimal_length (width n : ℕ) : (paddedDecimal width n).length = width := by
  induction width generalizing n with
  | zero => rfl
  | succ width ih => simp [paddedDecimal, ih]

theorem ofDigits_paddedDecimal (width n : ℕ) :
    ofDigits 10 ((paddedDecimal width n).map (· - ch '0')) = n % 10 ^ width := by
  induction width generalizing n with
  | zero => simp [paddedDecimal, ofDigits, Nat.mod_one]
  | succ width ih =>
    rw [paddedDecimal, List.map_append, ofDigits_append, ih]
    have hlast : ofDigits 10 (([ch '0' + n % 10] : Text).map (· - ch '0')) = n % 10 := by
      simp [ofDigits]
    rw [hlast, List.length_map, List.length_singleton, pow_one, pow_succ, Nat.mul_comm (10 ^ width),
      Nat.mod_mul]
    ring

end PropertyList
