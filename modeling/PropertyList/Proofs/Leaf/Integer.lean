import PropertyList.Leaf.Integer
import PropertyList.Proofs.Leaf.Real

/-! Integers read back. A written integer is a decimal numeral without a sign, and zero, which looks
like an octal numeral, is read as zero all the same. -/
namespace PropertyList

namespace IntegerFront

theorem ofText?_decimal {n : ℕ} (hn : 0 < n) :
    ofText? (decimal n) = some ⟨false, 10, decimal n, []⟩ := by
  have hall : ∀ c ∈ decimal n, isDigit c = true := fun c => isDigit_of_mem_decimal
  have hgraphic := Text.isGraphic_of_isDigit hall
  obtain ⟨c, rest, heq, hzero, hc⟩ := decimal_cons hn
  rw [ofText?, Text.trimLeft_of_not_blank hgraphic.isBlank_eq_false, heq, splitSign_of_isDigit hc]
  rw [heq] at hall
  simp only [if_neg hzero, hc, if_true, takeWhile_of_all hall, dropWhile_of_all hall]

theorem ofText?_decimal_zero : ofText? (decimal 0) = some ⟨false, 8, [], []⟩ := by decide

end IntegerFront

theorem maxInteger_lt : maxInteger < 10 ^ 20 := by decide

/-- Every integer is read back from its numeral, whoever reads it. -/
theorem decodeInteger_decimal (strict : Bool) {n : ℕ} (h : n ≤ maxInteger) :
    decodeInteger strict (decimal n) = pure n := by
  rcases Nat.eq_zero_or_pos n with rfl | hn
  · rw [decodeInteger, IntegerFront.ofText?_decimal_zero]
    cases strict <;> rfl
  · have hlen : (decimal n).length ≤ 20 :=
      decimal_length_le (by omega) (h.trans_lt maxInteger_lt)
    have hshort : ¬ maxDecimalDigits < (decimal n).length := by
      change ¬ 4300 < _
      omega
    simp only [decodeInteger, IntegerFront.ofText?_decimal hn, IntegerFront.isWhole,
      IntegerFront.isTooLong, IntegerFront.magnitude, numeralValue_decimal, if_pos h, wrap]
    simp [hshort]

end PropertyList
