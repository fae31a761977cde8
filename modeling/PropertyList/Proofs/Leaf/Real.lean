import PropertyList.Leaf.Real
import PropertyList.Proofs.Leaf.RealFront
import PropertyList.Proofs.Number.FixedPoint
import PropertyList.Proofs.Number.Positional
import PropertyList.Proofs.Run

/-! Reals read back. Every text of a real is a whole real, so both readers agree on it; the number
they read has the same text, although it need not be the number that was written. -/
namespace PropertyList

/-- The decimal digits of a number of millionths, in front of the point and behind it. -/
def sixPlaces (n : ℕ) : Text :=
  decimal (n / 10 ^ 6) ++ ch '.' :: paddedDecimal 6 (n % 10 ^ 6)

theorem encodeReal_finite (negative : Bool) (m q : ℕ) :
    encodeReal (.finite negative m q) =
      (if negative then text "-" else []) ++ sixPlaces (Binary64.millionths m q) := by
  rw [sixPlaces, ← List.append_assoc, encodeReal, Binary64.fixedPoint, Binary64.millionths,
    Binary64.scale]
  simp only [Nat.pow_eq]

theorem sixPlaces_isGraphic (n : ℕ) : (sixPlaces n).IsGraphic := by
  apply Text.IsGraphic.append
  · exact Text.isGraphic_of_isDigit fun c hc => isDigit_of_mem_decimal hc
  · apply Text.IsGraphic.cons (by decide)
    exact Text.isGraphic_of_isDigit fun c hc => isDigit_of_mem_paddedDecimal hc

theorem sixPlaces_cons (n : ℕ) : ∃ c rest, sixPlaces n = c :: rest ∧ isDigit c = true := by
  rw [sixPlaces]
  generalize n / 10 ^ 6 = whole
  cases hd : decimal whole with
  | nil => exact absurd hd (decimal_ne_nil _)
  | cons c ds => exact ⟨c, _, rfl, isDigit_of_mem_decimal (n := whole) (by simp [hd])⟩

theorem encodeReal_isGraphic (x : Binary64) : (encodeReal x).IsGraphic := by
  rcases x with _ | negative | ⟨negative, m, q⟩
  · decide
  · cases negative <;> decide
  · rw [encodeReal_finite]
    apply Text.IsGraphic.append _ (sixPlaces_isGraphic _)
    cases negative <;> decide

namespace RealFront

/-- The digits that the numeral of a number of millionths is made of. -/
def placesOf (n : ℕ) : List ℕ :=
  (decimal (n / 10 ^ 6) ++ paddedDecimal 6 (n % 10 ^ 6)).map (· - ch '0')

theorem decimal?_sixPlaces (negative : Bool) (n : ℕ) :
    decimal? negative (sixPlaces n) = some ⟨some (.ofDecimal negative (placesOf n) (-6)), []⟩ := by
  have hwhole : ∀ c ∈ decimal (n / 10 ^ 6), isDigit c = true := fun c => isDigit_of_mem_decimal
  have hplaces : ∀ c ∈ paddedDecimal 6 (n % 10 ^ 6), isDigit c = true :=
    fun c => isDigit_of_mem_paddedDecimal
  have hpoint : isDigit (ch '.') = false := by decide
  have hne : (decimal (n / 10 ^ 6)).isEmpty = false := by simp [decimal_ne_nil]
  simp only [decimal?, sixPlaces, takeWhile_run hwhole hpoint, dropWhile_run hwhole hpoint, places,
    if_true, takeWhile_of_all hplaces, dropWhile_of_all hplaces, hne, Bool.false_and,
    Bool.false_eq_true, if_false, exponent, paddedDecimal_length, placesOf]
  rfl

theorem afterWord?_eq_none {letter c : CodePoint} (h : passesAs letter c = false) (word s : Text) :
    afterWord? (letter :: word) (c :: s) = none := by
  simp [afterWord?, h]

/-- A name opens with one of two letters. -/
theorem named?_eq_none (negative : Bool) {c : ℕ} (hi : passesAs (ch 'i') c = false)
    (hn : passesAs (ch 'n') c = false) (rest : Text) : named? negative (c :: rest) = none := by
  have hnames : names negative = [(ch 'i' :: text "nfinity", .infinite negative),
      (ch 'i' :: text "nf", .infinite negative), (ch 'n' :: text "an", .nan)] := by
    cases negative <;> decide
  simp only [named?, hnames, List.findSome?_cons, List.findSome?_nil, afterWord?_eq_none hi,
    afterWord?_eq_none hn, Option.map_none]

theorem ofText?_sixPlaces (negative : Bool) (n : ℕ) :
    ofText? ((if negative then text "-" else []) ++ sixPlaces n) =
      some ⟨some (.ofDecimal negative (placesOf n) (-6)), []⟩ := by
  have hgraphic : Text.IsGraphic ((if negative then text "-" else []) ++ sixPlaces n) := by
    apply Text.IsGraphic.append _ (sixPlaces_isGraphic n)
    cases negative <;> decide
  obtain ⟨c, rest, heq, hc⟩ := sixPlaces_cons n
  have hsign : splitSign ((if negative then text "-" else []) ++ sixPlaces n) =
      (negative, sixPlaces n) := by
    cases negative
    · rw [heq]
      exact splitSign_of_isDigit hc rest
    · rfl
  rw [ofText?, Text.trimLeft_of_not_blank hgraphic.isBlank_eq_false, hsign]
  have hi : passesAs (ch 'i') c = false := passesAs_of_isDigit hc (by decide)
  have hn : passesAs (ch 'n') c = false := passesAs_of_isDigit hc (by decide)
  simp only [heq, named?_eq_none negative hi hn]
  rw [← heq, decimal?_sixPlaces]

end RealFront

/-- Both readers agree on a text without blanks that is a real as a whole. -/
theorem decodeReal_of_front {s : Text} {x : Binary64} (hs : s.IsGraphic)
    (h : RealFront.ofText? s = some ⟨some x, []⟩) (strict : Bool) :
    decodeReal strict s = pure x := by
  have hblank := hs.isBlank_eq_false
  cases strict
  · simp [decodeReal, h, takeWhile_of_none hblank]
  · simp [decodeReal, Text.trim_of_not_blank hblank, h]

/-- The text of a real is a real, whoever reads it. -/
theorem exists_decodeReal_encodeReal (x : Binary64) :
    ∃ y, ∀ strict, decodeReal strict (encodeReal x) = pure y := by
  have hgraphic := encodeReal_isGraphic x
  rcases x with _ | negative | ⟨negative, m, q⟩
  · exact ⟨.nan, decodeReal_of_front hgraphic (by decide)⟩
  · refine ⟨.infinite negative, decodeReal_of_front hgraphic ?_⟩
    cases negative <;> decide
  · have hfront := RealFront.ofText?_sixPlaces negative (Binary64.millionths m q)
    rw [← encodeReal_finite] at hfront
    exact ⟨_, decodeReal_of_front hgraphic hfront⟩

/-- The number that the text of a number denotes. -/
def Binary64.reread (x : Binary64) : Binary64 :=
  match (decodeReal false (encodeReal x)).outcome with
  | .ok y => y
  | .error _ => x

theorem decodeReal_encodeReal (strict : Bool) (x : Binary64) :
    decodeReal strict (encodeReal x) = pure x.reread := by
  obtain ⟨y, hy⟩ := exists_decodeReal_encodeReal x
  have hx : x.reread = y := by
    rw [Binary64.reread, hy]
    rfl
  rw [hy, hx]

theorem RealFront.ofDigits_placesOf (n : ℕ) : ofDigits 10 (placesOf n) = n := by
  rw [placesOf, List.map_append, ofDigits_append, map_sub_decimal, ofDigits_digits (by omega),
    List.length_map, paddedDecimal_length, ofDigits_paddedDecimal, Nat.mod_mod]
  exact Nat.div_add_mod' n (10 ^ 6)

theorem Binary64.reread_finite (negative : Bool) (m q : ℕ) :
    (Binary64.finite negative m q).reread =
      .ofDecimal negative (RealFront.placesOf (millionths m q)) (-6) := by
  have hgraphic := encodeReal_isGraphic (.finite negative m q)
  have hfront := RealFront.ofText?_sixPlaces negative (millionths m q)
  rw [← encodeReal_finite] at hfront
  rw [reread, decodeReal_of_front hgraphic hfront, Run.outcome_pure]

/-- The number read is the one nearest to the millionths that were written. -/
theorem Binary64.reread_finite_eq (negative : Bool) {m q : ℕ} (hm : m < 2 ^ 53) (hq : q ≤ 2045) :
    (Binary64.finite negative m q).reread =
      if millionths m q = 0 then .finite negative 0 0
      else nearest negative (millionths m q) (10 ^ 6) := by
  obtain ⟨k, hk, hlt⟩ := millionths_lt hm hq
  have hvalue := RealFront.ofDigits_placesOf (millionths m q)
  rw [← hvalue] at hlt
  rw [reread_finite, ofDecimal_millionths negative hk hlt, hvalue]

/-- The number read has the same six places, although it need not be the number that was written. -/
theorem Binary64.exists_reread_finite (negative : Bool) {m q : ℕ} (hm : m < 2 ^ 53)
    (hq : q ≤ 2045) :
    ∃ r e, (Binary64.finite negative m q).reread = .finite negative r e ∧
      millionths r e = millionths m q := by
  rw [reread_finite_eq negative hm hq]
  by_cases hzero : millionths m q = 0
  · refine ⟨0, 0, if_pos hzero, ?_⟩
    rw [millionths_zero, hzero]
  · rw [if_neg hzero]
    exact millionths_nearest negative hm hq

/-- A number that was read back is written the same again. -/
theorem encodeReal_reread {x : Binary64} (h : x.IsCanonical) :
    encodeReal x.reread = encodeReal x := by
  rcases x with _ | negative | ⟨negative, m, q⟩
  · decide
  · cases negative <;> decide
  · obtain ⟨r, e, hread, hplaces⟩ := Binary64.exists_reread_finite negative h.1 h.2.1
    rw [hread, encodeReal_finite, encodeReal_finite, hplaces]

end PropertyList
