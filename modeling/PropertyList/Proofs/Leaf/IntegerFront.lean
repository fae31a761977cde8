import PropertyList.Proofs.Leaf.Failure

/-! The integer at the front of a text. A lenient reader takes the longest front that blanks, a sign
and a numeral make up. Numerals begin with `0x` in base 16, with another zero in base 8 and with any
other digit in base 10. -/
namespace PropertyList

/-- The numerals of integers, with the numbers that they denote. -/
inductive Text.IsNumeral : Text → ℕ → Prop
  | hexadecimal {x : CodePoint} {digits : Text} (hx : x = ch 'x' ∨ x = ch 'X')
      (hne : digits ≠ []) (h : ∀ c ∈ digits, isHexDigit c = true) :
      IsNumeral (ch '0' :: x :: digits) (numeralValue 16 digits)
  | octal {digits : Text} (h : ∀ c ∈ digits, isOctalDigit c = true) :
      IsNumeral (ch '0' :: digits) (numeralValue 8 digits)
  | decimal {c : CodePoint} {digits : Text} (hzero : c ≠ ch '0')
      (h : ∀ d ∈ c :: digits, isDigit d = true) :
      IsNumeral (c :: digits) (numeralValue 10 (c :: digits))

/-- Blanks, a sign and a numeral that denotes `m`, with as little behind them as there can be. -/
structure Text.LongestInteger (s sign numeral rest : Text) (m : ℕ) : Prop where
  opens : s.Opens sign numeral rest
  isNumeral : numeral.IsNumeral m
  longest : ∀ {sign' numeral' rest' : Text} {m' : ℕ}, s.Opens sign' numeral' rest' →
    numeral'.IsNumeral m' → rest.length ≤ rest'.length

namespace Text.IsNumeral

variable {numeral : Text} {m : ℕ}

/-- Every numeral begins with a digit. -/
theorem exists_cons (h : numeral.IsNumeral m) :
    ∃ c digits, numeral = c :: digits ∧ isDigit c = true := by
  cases h with
  | hexadecimal => exact ⟨_, _, rfl, by decide⟩
  | octal => exact ⟨_, _, rfl, by decide⟩
  | decimal _ hall => exact ⟨_, _, rfl, hall _ List.mem_cons_self⟩

/-- What stands behind blanks and a sign begins with a numeral. -/
theorem splitSign {s sign rest : Text} (h : numeral.IsNumeral m) (hopens : s.Opens sign numeral rest) :
    PropertyList.splitSign s.trimLeft = (sign == text "-", numeral ++ rest) := by
  obtain ⟨c, digits, rfl, hc⟩ := h.exists_cons
  have hgraphic := isGraphic_of_isDigit (s := [c]) (by simpa using hc)
  exact hopens.splitSign (hgraphic.isBlank_eq_false c (by simp)) (splitSign_of_isDigit hc)

/-- A numeral denotes one number. -/
theorem eq_of_isNumeral {n : ℕ} (h : numeral.IsNumeral m) (h' : numeral.IsNumeral n) : m = n := by
  have hx : ∀ x : CodePoint, x = ch 'x' ∨ x = ch 'X' → isOctalDigit x = false := by
    rintro x (rfl | rfl) <;> decide
  cases h with
  | hexadecimal hletter =>
    cases h' with
    | hexadecimal => rfl
    | octal hall => simp [hx _ hletter] at hall
    | decimal hzero => exact absurd rfl hzero
  | octal hall =>
    cases h' with
    | hexadecimal hletter => simp [hx _ hletter] at hall
    | octal => rfl
    | decimal hzero => exact absurd rfl hzero
  | decimal hzero =>
    cases h' with
    | hexadecimal => exact absurd rfl hzero
    | octal => exact absurd rfl hzero
    | decimal => rfl

end Text.IsNumeral

namespace IntegerFront

variable {negative : Bool}

theorem lowerAscii_eq_x_iff {x : ℕ} : lowerAscii x = ch 'x' ↔ x = ch 'x' ∨ x = ch 'X' :=
  lowerAscii_eq_iff (by decide)

theorem hexadecimal?_eq_some {s : Text} {front : IntegerFront}
    (h : hexadecimal? negative s = some front) :
    ∃ x digits, s = x :: (digits ++ front.rest) ∧ (x = ch 'x' ∨ x = ch 'X') ∧ digits ≠ [] ∧
      (∀ c ∈ digits, isHexDigit c = true) ∧ front = ⟨negative, 16, digits, front.rest⟩ ∧
      front.rest = (digits ++ front.rest).dropWhile isHexDigit := by
  cases s with
  | nil => cases h
  | cons x rest =>
    rw [hexadecimal?] at h
    split at h
    · rename_i hfront
      simp only [Bool.and_eq_true, decide_eq_true_eq, lowerAscii_eq_x_iff] at hfront
      cases h
      refine ⟨x, rest.takeWhile isHexDigit, ?_, hfront.1, ?_, ?_, rfl, ?_⟩
      · rw [List.takeWhile_append_dropWhile]
      · cases rest with
        | nil => cases hfront.2
        | cons c rest =>
          have hc : isHexDigit c = true := hfront.2
          simp [hc]
      · intro c hc
        exact List.mem_takeWhile_imp hc
      · rw [List.takeWhile_append_dropWhile]
    · cases h

theorem ofText?_eq_none {s rest : Text} {c : CodePoint} (h : ofText? s = none)
    (hsplit : splitSign s.trimLeft = (negative, c :: rest)) : isDigit c = false := by
  rw [ofText?, hsplit] at h
  dsimp only at h
  split at h
  · split at h <;> cases h
  · split at h
    · cases h
    · rename_i hc
      simpa using hc

/-- What is read of a text is a numeral behind blanks and a sign. -/
theorem exists_isNumeral_of_ofText? {s : Text} {front : IntegerFront} (h : ofText? s = some front) :
    ∃ numeral, splitSign s.trimLeft = (front.negative, numeral ++ front.rest) ∧
      numeral.IsNumeral front.magnitude ∧
      (front.isTooLong = true ↔ numeral.IsHugeNumeral) ∧
      (front.isTooLong = true → front.digits = numeral) := by
  unfold ofText? at h
  rcases hsplit : splitSign s.trimLeft with ⟨negative, body⟩
  rw [hsplit] at h
  cases body with
  | nil => cases h
  | cons c rest =>
    dsimp only at h
    split at h
    · rename_i hzero
      subst hzero
      split at h
      · rename_i found hfound
        cases h
        obtain ⟨x, digits, rfl, hx, hne, hall, hfront, -⟩ := hexadecimal?_eq_some hfound
        rw [hfront]
        exact ⟨_, rfl, .hexadecimal hx hne hall, by simp [isTooLong, Text.IsHugeNumeral],
          by simp [isTooLong]⟩
      · cases h
        have hall : ∀ d ∈ rest.takeWhile isOctalDigit, isOctalDigit d = true :=
          fun d hd => List.mem_takeWhile_imp hd
        refine ⟨ch '0' :: rest.takeWhile isOctalDigit, ?_, .octal hall,
          by simp [isTooLong, Text.IsHugeNumeral], by simp [isTooLong]⟩
        rw [List.cons_append, List.takeWhile_append_dropWhile]
    · rename_i hzero
      split at h
      · rename_i hdigit
        cases h
        have hnumeral : (c :: rest).takeWhile isDigit = c :: rest.takeWhile isDigit :=
          List.takeWhile_cons_of_pos hdigit
        have hall : ∀ d ∈ c :: rest.takeWhile isDigit, isDigit d = true := by
          rw [← hnumeral]
          exact fun d hd => List.mem_takeWhile_imp hd
        have hhead : (c :: rest.takeWhile isDigit).head? ≠ some (ch '0') := by simpa using hzero
        refine ⟨(c :: rest).takeWhile isDigit, ?_, ?_, ?_, fun _ => rfl⟩
        · rw [List.takeWhile_append_dropWhile]
        · simp only [magnitude, hnumeral]
          exact .decimal hzero hall
        · simp only [isTooLong, hnumeral, beq_self_eq_true, Bool.true_and, decide_eq_true_eq]
          exact ⟨fun hlong => ⟨hall, hhead, hlong⟩, fun hhuge => hhuge.2.2⟩
      · cases h

/-- Whatever numeral a text begins with, something as long is read. -/
theorem length_rest_le {s sign numeral rest : Text} {m : ℕ} {front : IntegerFront}
    (h : ofText? s = some front) (hopens : s.Opens sign numeral rest) (hnumeral : numeral.IsNumeral m) :
    front.rest.length ≤ rest.length := by
  have hsplit := hnumeral.splitSign hopens
  have hdrop (p : CodePoint → Bool) (digits : Text) (hall : ∀ d ∈ digits, p d = true) :
      ((digits ++ rest).dropWhile p).length ≤ rest.length := by
    rw [List.dropWhile_append_of_pos hall]
    exact List.length_dropWhile_le _ _
  rw [ofText?, hsplit] at h
  cases hnumeral with
  | @hexadecimal x digits hx hne hall =>
    have hhead : (digits ++ rest).head?.any isHexDigit = true := by
      cases digits with
      | nil => exact absurd rfl hne
      | cons d digits => exact hall d List.mem_cons_self
    simp only [List.cons_append, if_true, hexadecimal?, lowerAscii_eq_x_iff.mpr hx, hhead,
      decide_true, Bool.and_self, Option.some.injEq] at h
    rw [← h]
    exact hdrop isHexDigit digits hall
  | @octal digits hall =>
    simp only [List.cons_append, if_true] at h
    split at h
    · rename_i found hfound
      cases h
      obtain ⟨x, more, hrest, hx, -, -, -, hback⟩ := hexadecimal?_eq_some hfound
      cases digits with
      | nil =>
        -- the text goes on with `x`, which the octal numeral leaves over
        rw [List.nil_append] at hrest
        rw [hrest]
        simp
        omega
      | cons d digits =>
        have hd := hall d List.mem_cons_self
        rw [(List.cons.inj hrest).1] at hd
        rcases hx with rfl | rfl <;> exact absurd hd (by decide)
    · cases h
      exact hdrop isOctalDigit digits hall
  | @decimal c digits hzero hall =>
    simp only [List.cons_append, if_neg hzero, hall c List.mem_cons_self, if_true,
      Option.some.injEq] at h
    rw [← h]
    exact hdrop isDigit (c :: digits) hall

/-- What is read of a text is the longest integer in front. -/
theorem exists_longestInteger {s : Text} {front : IntegerFront} (h : ofText? s = some front) :
    ∃ sign numeral, s.LongestInteger sign numeral front.rest front.magnitude ∧
      (sign == text "-") = front.negative ∧
      (front.isTooLong = true ↔ numeral.IsHugeNumeral) ∧
      (front.isTooLong = true → front.digits = numeral) := by
  obtain ⟨numeral, hsplit, hnumeral, hhuge, hdigits⟩ := exists_isNumeral_of_ofText? h
  obtain ⟨sign, hnegative, hopens⟩ := Text.exists_opens hsplit
  exact ⟨sign, numeral, ⟨hopens, hnumeral, length_rest_le h⟩, hnegative, hhuge, hdigits⟩

end IntegerFront

/-- A text has one longest integer in front. -/
theorem Text.LongestInteger.eq {s sign numeral rest sign' numeral' rest' : Text} {m m' : ℕ}
    (h : s.LongestInteger sign numeral rest m) (h' : s.LongestInteger sign' numeral' rest' m') :
    (sign == text "-") = (sign' == text "-") ∧ numeral = numeral' ∧ m = m' := by
  have hsplit := h.isNumeral.splitSign h.opens
  rw [h'.isNumeral.splitSign h'.opens, Prod.mk.injEq] at hsplit
  have hrest : rest'.length = rest.length :=
    Nat.le_antisymm (h'.longest h.opens h.isNumeral) (h.longest h'.opens h'.isNumeral)
  obtain ⟨rfl, -⟩ := List.append_inj' hsplit.2 hrest
  exact ⟨hsplit.1.symm, rfl, h.isNumeral.eq_of_isNumeral h'.isNumeral⟩

/-- A lenient reader takes the nearest integer of 64 bits, and then counts down. -/
theorem outcome_decodeInteger_lenient {s : Text} {front : IntegerFront}
    (h : IntegerFront.ofText? s = some front) (hshort : front.isTooLong = false) :
    (decodeInteger false s).outcome = .ok (wrap front.negative (min front.magnitude maxInteger)) := by
  rw [decodeInteger, h]
  simp only [hshort, Bool.false_and, Bool.false_eq_true, if_false]
  split_ifs with hfits
  · rw [min_eq_left hfits]
    rfl
  · rw [min_eq_right (Nat.le_of_not_le hfits)]
    rfl

theorem wrap_min (negative : Bool) (m : ℕ) :
    wrap negative (min m maxInteger) =
      if negative = true then if m < 2 ^ 64 then (2 ^ 64 - m) % 2 ^ 64 else 1
      else min m (2 ^ 64 - 1) := by
  change (if negative = true then (2 ^ 64 - min m (2 ^ 64 - 1)) % 2 ^ 64 else min m (2 ^ 64 - 1)) = _
  split_ifs with hnegative hm
  · rw [min_eq_left (by omega)]
  · rw [min_eq_right (by omega)]
    norm_num
  · rfl

/-- A lenient reader takes the longest integer in front of a text, and zero if there is none. What 64
bits cannot hold becomes the greatest integer, and a negative number counts down from 2 to the 64th;
since it does so last, one that 64 bits cannot hold becomes one. -/
theorem decodeInteger_of_longestInteger (s : Text) :
    ((∃ sign numeral rest m, s.LongestInteger sign numeral rest m) ∨
      (∀ sign numeral rest m, s.Opens sign numeral rest → ¬ numeral.IsNumeral m) ∧
        (decodeInteger false s).outcome = .ok 0) ∧
    ∀ sign numeral rest m, s.LongestInteger sign numeral rest m →
      (numeral.IsHugeNumeral →
        (decodeInteger false s).outcome = .error (.hugeNumeral numeral.length)) ∧
      (¬ numeral.IsHugeNumeral →
        (decodeInteger false s).outcome =
          .ok (if sign = text "-" then if m < 2 ^ 64 then (2 ^ 64 - m) % 2 ^ 64 else 1
            else min m (2 ^ 64 - 1))) := by
  cases hfront : IntegerFront.ofText? s with
  | none =>
    have hnone : ∀ sign numeral rest m, s.Opens sign numeral rest → ¬ numeral.IsNumeral m := by
      intro sign numeral rest m hopens hnumeral
      obtain ⟨c, digits, rfl, hc⟩ := hnumeral.exists_cons
      have hplain := IntegerFront.ofText?_eq_none hfront (hnumeral.splitSign hopens)
      rw [hc] at hplain
      cases hplain
    refine ⟨.inr ⟨hnone, ?_⟩, ?_⟩
    · rw [decodeInteger, hfront]
      rfl
    · intro sign numeral rest m hlongest
      exact absurd hlongest.isNumeral (hnone sign numeral rest m hlongest.opens)
  | some front =>
    obtain ⟨sign, numeral, hlongest, hsign, hhuge, hdigits⟩ :=
      IntegerFront.exists_longestInteger hfront
    refine ⟨.inl ⟨sign, numeral, front.rest, front.magnitude, hlongest⟩, ?_⟩
    intro sign' numeral' rest' m hother
    obtain ⟨hsame, rfl, rfl⟩ := hlongest.eq hother
    rw [hsign] at hsame
    constructor
    · intro hlong
      rw [decodeInteger_of_isTooLong hfront (hhuge.mpr hlong) (by simp), hdigits (hhuge.mpr hlong)]
      rfl
    · intro hshort
      have hfront' : front.isTooLong = false := Bool.eq_false_iff.mpr (mt hhuge.mp hshort)
      rw [outcome_decodeInteger_lenient hfront hfront', wrap_min, hsame]
      simp only [beq_iff_eq]

/-- A negative number of more than 64 bits becomes one, where clamping after the sign would give the
greatest integer. -/
theorem decodeInteger_of_longestInteger_negative :
    Text.LongestInteger (text " -18446744073709551616z") (text "-") (text "18446744073709551616")
        (text "z") (2 ^ 64) ∧
      (decodeInteger false (text " -18446744073709551616z")).outcome = .ok 1 := by
  have hfront : IntegerFront.ofText? (text " -18446744073709551616z") =
      some ⟨true, 10, text "18446744073709551616", text "z"⟩ := by decide
  have hnumeral : Text.IsNumeral (text "18446744073709551616") (2 ^ 64) :=
    .decimal (by decide) (by decide)
  have hblank : Text.IsBlank (text " ") := by
    unfold Text.IsBlank
    decide
  have hlongest : Text.LongestInteger (text " -18446744073709551616z") (text "-")
      (text "18446744073709551616") (text "z") (2 ^ 64) :=
    ⟨⟨by decide, text " ", hblank, by decide⟩, hnumeral, IntegerFront.length_rest_le hfront⟩
  have hshort : ¬ Text.IsHugeNumeral (text "18446744073709551616") :=
    fun hhuge => absurd hhuge.2.2 (by decide)
  refine ⟨hlongest, ?_⟩
  rw [((decodeInteger_of_longestInteger _).2 _ _ _ _ hlongest).2 hshort]
  rfl

end PropertyList
