import PropertyList.Proofs.Leaf.Failure
import PropertyList.Proofs.Number.Decimal

/-! The literals of reals. They are the names of infinities and of what is not a number, in ASCII
letters of either case, and decimals with digits on one side of a point at least and an exponent or
none. A literal stands for one quantity. -/
namespace PropertyList

/-- What a literal stands for, without a sign. -/
inductive Quantity where
  | nan
  | infinite
  | rational (a : ℚ)

/-- The quantities that have names. -/
def Quantity.names : List (Text × Quantity) :=
  [(text "inf", .infinite), (text "infinity", .infinite), (text "nan", .nan)]

/-- What a quantity behind a sign is rounded to. -/
inductive Quantity.Rounds (negative : Bool) : Quantity → Binary64 → Prop
  | nan : Rounds negative .nan .nan
  | infinite : Rounds negative .infinite (.infinite negative)
  | rational {a : ℚ} {x : Binary64} (h : x.IsRounding negative a) : Rounds negative (.rational a) x

namespace Text

/-- The exponents of decimals. A complete one has a letter and a digit at least; none at all stands
for zero. -/
inductive IsExponent : Text → ℤ → Prop
  | absent : IsExponent [] 0
  | complete {letter : CodePoint} {sign digits : Text} (hletter : letter = ch 'e' ∨ letter = ch 'E')
      (hsign : sign ∈ signs) (hne : digits ≠ []) (h : ∀ c ∈ digits, isDigit c = true) :
      IsExponent (letter :: (sign ++ digits))
        (if sign = text "-" then -(numeralValue 10 digits : ℤ) else numeralValue 10 digits)

/-- A point, with the digits behind it; both may be absent. -/
inductive IsFraction : Text → Text → Prop
  | absent : IsFraction [] []
  | present {digits : Text} (h : ∀ c ∈ digits, isDigit c = true) :
      IsFraction (ch '.' :: digits) digits

/-- The decimals, with the numbers that they stand for. -/
inductive IsDecimal : Text → ℚ → Prop
  | parts {whole point fraction exponent : Text} {e : ℤ} (hwhole : ∀ c ∈ whole, isDigit c = true)
      (hpoint : point.IsFraction fraction) (hne : whole ≠ [] ∨ fraction ≠ [])
      (hexponent : exponent.IsExponent e) :
      IsDecimal (whole ++ (point ++ exponent))
        ((numeralValue 10 whole + numeralValue 10 fraction / 10 ^ fraction.length) * 10 ^ e)

/-- The literals of reals, with the quantities that they stand for. -/
inductive IsReal : Text → Quantity → Prop
  | name {name : Text} {v : Quantity} (h : Quantity.names.lookup (name.map lowerAscii) = some v) :
      IsReal name v
  | decimal {number : Text} {a : ℚ} (h : number.IsDecimal a) : IsReal number (.rational a)

theorem IsFraction.isDigit {point fraction : Text} (h : point.IsFraction fraction) :
    ∀ c ∈ fraction, isDigit c = true := by
  cases h with
  | absent => simp
  | present hall => exact hall

end Text

theorem splitSign_append {sign : Text} (hsign : sign ∈ signs) {c : CodePoint} (hc : isDigit c = true)
    (rest : Text) : splitSign (sign ++ c :: rest) = (sign == text "-", c :: rest) := by
  simp only [signs, List.mem_cons, List.not_mem_nil, or_false] at hsign
  rcases hsign with rfl | rfl | rfl
  · exact splitSign_of_isDigit hc rest
  · rfl
  · rfl

namespace RealFront

variable {part rest : Text} {e : ℤ}

theorem lowerAscii_eq_e_iff {c : ℕ} : lowerAscii c = ch 'e' ↔ c = ch 'e' ∨ c = ch 'E' :=
  lowerAscii_eq_iff (by decide)

/-- The letter of an exponent is told apart from digits and a point. -/
theorem ne_of_letter {letter : CodePoint} (h : letter = ch 'e' ∨ letter = ch 'E') :
    isDigit letter = false ∧ letter ≠ ch '.' := by
  rcases h with rfl | rfl <;> decide

/-- A complete exponent goes on as long as digits follow. -/
theorem exponent_complete {letter : CodePoint} {sign digits : Text}
    (hletter : letter = ch 'e' ∨ letter = ch 'E') (hsign : sign ∈ signs) (hne : digits ≠ [])
    (h : ∀ c ∈ digits, isDigit c = true) (rest : Text) :
    exponent (letter :: (sign ++ (digits ++ rest))) =
      (if sign = text "-" then -(numeralValue 10 (digits ++ rest.takeWhile isDigit) : ℤ)
        else numeralValue 10 (digits ++ rest.takeWhile isDigit), rest.dropWhile isDigit) := by
  obtain ⟨c, more, rfl⟩ := List.exists_cons_of_ne_nil hne
  have hc : isDigit c = true := h c List.mem_cons_self
  have hsplit := splitSign_append hsign hc (more ++ rest)
  rw [exponent, List.cons_append, hsplit]
  simp only [lowerAscii_eq_e_iff.mpr hletter, decide_true, List.head?_cons, Option.any_some, hc,
    Bool.and_self, if_true, beq_iff_eq]
  rw [← List.cons_append, List.takeWhile_append_of_pos h, List.dropWhile_append_of_pos h]

/-- What is read as an exponent is one. -/
theorem exists_isExponent (s : Text) :
    ∃ part : Text, part.IsExponent (exponent s).1 ∧ s = part ++ (exponent s).2 := by
  cases s with
  | nil => exact ⟨[], .absent, rfl⟩
  | cons letter rest =>
    obtain ⟨sign, hsign, hnegative, hrest⟩ := Text.exists_sign rest
    rcases hsplit : splitSign rest with ⟨negative, digits⟩
    rw [hsplit] at hnegative hrest
    simp only [exponent, hsplit, Bool.and_eq_true, decide_eq_true_eq, lowerAscii_eq_e_iff]
    split
    · rename_i hcomplete
      have hne : digits.takeWhile isDigit ≠ [] := by
        cases digits with
        | nil => cases hcomplete.2
        | cons d digits =>
          have hd : isDigit d = true := hcomplete.2
          simp [hd]
      have hexponent := Text.IsExponent.complete hcomplete.1 hsign hne
        fun c hc => List.mem_takeWhile_imp hc
      refine ⟨letter :: (sign ++ digits.takeWhile isDigit), ?_, ?_⟩
      · subst hnegative
        simpa only [beq_iff_eq] using hexponent
      · rw [List.cons_append, List.append_assoc, List.takeWhile_append_dropWhile, ← hrest]
    · exact ⟨[], .absent, rfl⟩

theorem length_exponent_snd_le (s : Text) : (exponent s).2.length ≤ s.length := by
  obtain ⟨part, -, hs⟩ := exists_isExponent s
  conv_rhs => rw [hs, List.length_append]
  omega

theorem length_exponent_le (h : part.IsExponent e) (rest : Text) :
    (exponent ((part ++ rest).dropWhile isDigit)).2.length ≤ rest.length := by
  cases h with
  | absent => exact (length_exponent_snd_le _).trans (List.length_dropWhile_le _ _)
  | complete hletter hsign hne hall =>
    rw [List.cons_append, List.append_assoc,
      List.dropWhile_cons_of_neg (by simp [(ne_of_letter hletter).1]),
      exponent_complete hletter hsign hne hall]
    exact List.length_dropWhile_le _ _

theorem exponent_of_isExponent (h : part.IsExponent e) : exponent part = (e, []) := by
  cases h with
  | absent => rfl
  | complete hletter hsign hne hall =>
    have hread := exponent_complete hletter hsign hne hall []
    rwa [List.append_nil, List.takeWhile_nil, List.append_nil, List.dropWhile_nil] at hread

/-- What is read as the places behind a point is that. -/
theorem exists_isFraction (s : Text) :
    ∃ point : Text, point.IsFraction (places s).1 ∧ s = point ++ (places s).2 := by
  cases s with
  | nil => exact ⟨[], .absent, rfl⟩
  | cons c rest =>
    rw [places]
    split
    · rename_i hpoint
      refine ⟨c :: rest.takeWhile isDigit, ?_, ?_⟩
      · rw [hpoint]
        exact .present fun d hd => List.mem_takeWhile_imp hd
      · rw [List.cons_append, List.takeWhile_append_dropWhile]
    · exact ⟨[], .absent, rfl⟩

/-- A point goes on as long as digits follow. -/
theorem places_point {fraction : Text} (h : ∀ c ∈ fraction, isDigit c = true) (rest : Text) :
    places ((ch '.' :: (fraction ++ rest)).dropWhile isDigit) =
      (fraction ++ rest.takeWhile isDigit, rest.dropWhile isDigit) := by
  rw [List.dropWhile_cons_of_neg (by decide), places, if_pos rfl, List.takeWhile_append_of_pos h,
    List.dropWhile_append_of_pos h]

theorem length_places_snd_le (s : Text) : (places s).2.length ≤ s.length := by
  obtain ⟨point, -, hs⟩ := exists_isFraction s
  conv_rhs => rw [hs, List.length_append]
  omega

/-- Digits end where something else begins. -/
theorem span_digits {digits rest : Text} (h : ∀ c ∈ digits, isDigit c = true)
    (hrest : ∀ c ∈ rest.head?, isDigit c = false) :
    (digits ++ rest).takeWhile isDigit = digits ∧ (digits ++ rest).dropWhile isDigit = rest := by
  rw [List.takeWhile_append_of_pos h, List.dropWhile_append_of_pos h]
  cases rest with
  | nil => simp
  | cons c rest =>
    have hc : isDigit c = false := hrest c rfl
    simp [hc]

theorem head_of_isExponent (h : part.IsExponent e) :
    ∀ c ∈ part.head?, isDigit c = false ∧ c ≠ ch '.' := by
  cases h with
  | absent => simp
  | complete hletter => simpa using ne_of_letter hletter

theorem head_of_isFraction {point fraction : Text} (hpoint : point.IsFraction fraction)
    (hpart : ∀ c ∈ part.head?, isDigit c = false) :
    ∀ c ∈ (point ++ part).head?, isDigit c = false := by
  cases hpoint with
  | absent => exact hpart
  | present => simp [isDigit, ch]

/-- The places behind a point end where something else begins. -/
theorem places_append_of_isFraction {point fraction : Text} (hpoint : point.IsFraction fraction)
    (hpart : ∀ c ∈ part.head?, isDigit c = false ∧ c ≠ ch '.') :
    places (point ++ part) = (fraction, part) := by
  cases hpoint with
  | absent =>
    cases part with
    | nil => rfl
    | cons c part => rw [List.nil_append, places, if_neg (hpart c rfl).2]
  | present hall =>
    obtain ⟨htake, hdrop⟩ := span_digits hall fun c hc => (hpart c hc).1
    rw [List.cons_append, places, if_pos rfl, htake, hdrop]

theorem length_places_le {point fraction : Text} (hpoint : point.IsFraction fraction)
    (hexponent : part.IsExponent e) (rest : Text) :
    (exponent (places ((point ++ (part ++ rest)).dropWhile isDigit)).2).2.length ≤ rest.length := by
  have hle := length_exponent_le hexponent rest
  cases hpoint with
  | absent =>
    cases hexponent with
    | absent =>
      exact (length_exponent_snd_le _).trans
        ((length_places_snd_le _).trans (List.length_dropWhile_le _ _))
    | @complete letter sign digits hletter hsign hne hall =>
      have hdrop := List.dropWhile_cons_of_neg (l := sign ++ digits ++ rest)
        (show ¬ isDigit letter = true by simp [(ne_of_letter hletter).1])
      rw [List.cons_append, hdrop] at hle
      rw [List.nil_append, List.cons_append, hdrop, places, if_neg (ne_of_letter hletter).2]
      exact hle
  | present hall =>
    rw [List.cons_append, places_point hall]
    exact hle

/-- Whole digits, a point with its places and an exponent end each where the next begins. -/
theorem parts_of_decimal {whole point fraction : Text} (hwhole : ∀ c ∈ whole, isDigit c = true)
    (hpoint : point.IsFraction fraction) (hexponent : part.IsExponent e) :
    (whole ++ (point ++ part)).takeWhile isDigit = whole ∧
      places ((whole ++ (point ++ part)).dropWhile isDigit) = (fraction, part) := by
  have hhead := head_of_isExponent hexponent
  obtain ⟨htake, hdrop⟩ := span_digits hwhole (head_of_isFraction hpoint fun c hc => (hhead c hc).1)
  exact ⟨htake, by rw [hdrop, places_append_of_isFraction hpoint hhead]⟩

theorem sub_lt_of_isDigit {c : ℕ} (h : isDigit c = true) : c - ch '0' < 10 := by
  have hdigit := isDigit_iff.mp h
  change c - 48 < 10
  omega

theorem ofDigits_map_sub {s : Text} (h : ∀ c ∈ s, isDigit c = true) :
    ofDigits 10 (s.map (· - ch '0')) = numeralValue 10 s := by
  have hmap : s.map (· - ch '0') = s.map digitValue :=
    List.map_congr_left fun c hc => (digitValue_of_isDigit (h c hc)).symm
  rw [hmap, numeralValue]

theorem numeralValue_append (base : ℕ) (s t : Text) :
    numeralValue base (s ++ t) = numeralValue base s * base ^ t.length + numeralValue base t := by
  rw [numeralValue, List.map_append, ofDigits_append, List.length_map, numeralValue, numeralValue]

/-- The places behind a point count as digits of a smaller unit. -/
theorem isRounding_ofDecimal_places (negative : Bool) {whole fraction : Text}
    (hwhole : ∀ c ∈ whole, isDigit c = true) (hfraction : ∀ c ∈ fraction, isDigit c = true) (e : ℤ) :
    Binary64.IsRounding negative
      ((numeralValue 10 whole + numeralValue 10 fraction / 10 ^ fraction.length) * 10 ^ e)
      (.ofDecimal negative ((whole ++ fraction).map (· - ch '0')) (e - fraction.length)) := by
  have hall : ∀ c ∈ whole ++ fraction, isDigit c = true := by
    intro c hc
    exact (List.mem_append.mp hc).elim (hwhole c) (hfraction c)
  have hsmall : ∀ d ∈ (whole ++ fraction).map (· - ch '0'), d < 10 := by
    intro d hd
    obtain ⟨c, hc, rfl⟩ := List.mem_map.mp hd
    exact sub_lt_of_isDigit (hall c hc)
  have hround := Binary64.isRounding_ofDecimal negative hsmall (e - fraction.length)
  rw [ofDigits_map_sub hall, numeralValue_append] at hround
  convert hround using 1
  rw [zpow_sub₀ (by norm_num), zpow_natCast]
  push_cast
  field_simp

/-- What is read as a decimal is one, and it is rounded correctly. -/
theorem exists_isDecimal {negative : Bool} {s : Text} {front : RealFront}
    (h : decimal? negative s = some front) :
    ∃ (number : Text) (a : ℚ) (x : Binary64), s = number ++ front.rest ∧ number.IsDecimal a ∧
      front.value = some x ∧ x.IsRounding negative a := by
  obtain ⟨point, hpoint, hplaces⟩ := exists_isFraction (s.dropWhile isDigit)
  obtain ⟨part, hpart, hexponent⟩ := exists_isExponent (places (s.dropWhile isDigit)).2
  have hwhole : ∀ c ∈ s.takeWhile isDigit, isDigit c = true := fun c hc => List.mem_takeWhile_imp hc
  have hs : s = s.takeWhile isDigit ++ (s.dropWhile isDigit) :=
    List.takeWhile_append_dropWhile.symm
  unfold decimal? at h
  dsimp only at h
  split at h
  · cases h
  · rename_i hne
    cases h
    refine ⟨s.takeWhile isDigit ++ (point ++ part), _, _, ?_, .parts hwhole hpoint ?_ hpart, rfl,
      isRounding_ofDecimal_places negative hwhole hpoint.isDigit _⟩
    · rw [List.append_assoc, List.append_assoc, ← hexponent, ← hplaces, ← hs]
    · rwa [Bool.and_eq_true, not_and_or, List.isEmpty_iff, List.isEmpty_iff] at hne

/-- Whatever decimal a text begins with, something as long is read. -/
theorem exists_decimal? (negative : Bool) {number : Text} {a : ℚ} (h : number.IsDecimal a)
    (rest : Text) :
    ∃ front, decimal? negative (number ++ rest) = some front ∧
      front.rest.length ≤ rest.length := by
  obtain @⟨whole, point, fraction, part, e, hwhole, hpoint, hne, hexponent⟩ := h
  have hle := length_places_le hpoint hexponent rest
  have hsome : ¬ (((whole ++ (point ++ (part ++ rest))).takeWhile isDigit).isEmpty &&
      (places ((point ++ (part ++ rest)).dropWhile isDigit)).1.isEmpty) = true := by
    rw [Bool.and_eq_true, not_and_or, List.isEmpty_iff, List.isEmpty_iff,
      List.takeWhile_append_of_pos hwhole]
    refine hne.imp (fun h hnil => h (List.append_eq_nil_iff.mp hnil).1) ?_
    cases hpoint with
    | absent => simp
    | present hall =>
      intro h hnil
      rw [List.cons_append, places_point hall] at hnil
      exact h (List.append_eq_nil_iff.mp hnil).1
  unfold decimal?
  rw [List.append_assoc, List.append_assoc, List.dropWhile_append_of_pos hwhole]
  exact ⟨_, if_neg hsome, hle⟩

end RealFront

namespace Text.IsDecimal

variable {number : Text} {a b : ℚ}

/-- Every decimal begins with a digit or the point. -/
theorem exists_cons (h : number.IsDecimal a) :
    ∃ c more, number = c :: more ∧ (isDigit c = true ∨ c = ch '.') := by
  obtain @⟨whole, point, fraction, part, e, hwhole, hpoint, hne, hexponent⟩ := h
  cases whole with
  | cons c whole => exact ⟨c, _, rfl, .inl (hwhole c List.mem_cons_self)⟩
  | nil =>
    cases hpoint with
    | absent => simp at hne
    | present => exact ⟨ch '.', _, rfl, .inr rfl⟩

/-- The number of a decimal is made up of the parts that are read. -/
theorem eq_of_parts (h : number.IsDecimal a) :
    a = (numeralValue 10 (number.takeWhile isDigit) +
        numeralValue 10 (RealFront.places (number.dropWhile isDigit)).1 /
          10 ^ (RealFront.places (number.dropWhile isDigit)).1.length) *
      10 ^ (RealFront.exponent (RealFront.places (number.dropWhile isDigit)).2).1 := by
  obtain ⟨hwhole, hpoint, hne, hexponent⟩ := h
  obtain ⟨htake, hplaces⟩ := RealFront.parts_of_decimal hwhole hpoint hexponent
  rw [htake, hplaces, RealFront.exponent_of_isExponent hexponent]

/-- A decimal stands for one number. -/
theorem eq_of_isDecimal (h : number.IsDecimal a) (h' : number.IsDecimal b) : a = b :=
  h.eq_of_parts.trans h'.eq_of_parts.symm

end Text.IsDecimal

end PropertyList
