import PropertyList.Proofs.Leaf.RealLiteral

/-! The real at the front of a text. A lenient reader takes the longest front that blanks, a sign and
a literal make up, and rounds what the literal stands for. -/
namespace PropertyList

/-- Blanks, a sign and a literal that stands for `v`, with as little behind them as there can be. -/
structure Text.LongestReal (s sign core rest : Text) (v : Quantity) : Prop where
  opens : s.Opens sign core rest
  isReal : core.IsReal v
  longest : ∀ {sign' core' rest' : Text} {v' : Quantity}, s.Opens sign' core' rest' →
    core'.IsReal v' → rest.length ≤ rest'.length

namespace RealFront

variable {negative : Bool} {core rest : Text} {v : Quantity}

theorem le_lowerAscii (c : ℕ) : c ≤ lowerAscii c := by
  unfold lowerAscii
  split
  · exact Nat.le_add_right _ _
  · exact le_rfl

/-- In ASCII the letters of either case pass, and no others. -/
theorem passesAs_eq {letter c : ℕ} (hc : c ≤ 0x7F) : passesAs letter c = (lowerAscii c == letter) := by
  have hturkish : c ≠ 0x130 ∧ c ≠ 0x131 := by omega
  have hforeign : turkishLetters.contains c = false := by
    simpa only [turkishLetters, List.contains_cons, List.contains_nil, Bool.or_false,
      Bool.or_eq_false_iff, beq_eq_false_iff_ne] using hturkish
  rw [passesAs, hforeign, Bool.and_false, Bool.or_false]

/-- A name that is spelt in ASCII is the word in letters of either case. -/
theorem spells_iff {word name : Text} (hname : ∀ c ∈ name, c ≤ 0x7F) :
    Spells word name ↔ name.map lowerAscii = word := by
  constructor
  · intro h
    induction h with
    | nil => rfl
    | @cons letter c word name hpass _ ih =>
      rw [passesAs_eq (hname c List.mem_cons_self), beq_iff_eq] at hpass
      rw [List.map_cons, hpass, ih fun d hd => hname d (List.mem_cons_of_mem c hd)]
  · rintro rfl
    induction name with
    | nil => exact .nil
    | cons c name ih =>
      refine .cons ?_ (ih fun d hd => hname d (List.mem_cons_of_mem c hd))
      rw [passesAs_eq (hname c List.mem_cons_self), beq_self_eq_true]

theorem le_of_mem_of_map {word name : Text} (hword : word.IsGraphic)
    (h : name.map lowerAscii = word) : ∀ c ∈ name, c ≤ 0x7F := by
  intro c hc
  have hlow := (hword (lowerAscii c) (h ▸ List.mem_map_of_mem hc)).2
  exact ((le_lowerAscii c).trans hlow).trans (by decide)

theorem nameFront?_of_map {entry : Text × Binary64} (hentry : entry.1.IsGraphic)
    (h : core.map lowerAscii = entry.1) (rest : Text) :
    nameFront? (core ++ rest) entry = some ⟨some entry.2, rest⟩ := by
  have hascii := le_of_mem_of_map hentry h
  have hall : core.all (· ≤ 0x7F) = true := by simpa using hascii
  rw [nameFront?_of_spells ((spells_iff hascii).mpr h), if_pos hall]

/-- What has a name is found under it. -/
theorem exists_entry (negative : Bool) (h : Quantity.names.lookup (core.map lowerAscii) = some v) :
    ∃ entry ∈ names negative, core.map lowerAscii = entry.1 := by
  obtain ⟨before, after, hnames, -⟩ := List.lookup_eq_some_iff.mp h
  have hmem : (core.map lowerAscii, v) ∈ Quantity.names := by simp [hnames]
  simp only [Quantity.names, List.mem_cons, Prod.mk.injEq, List.not_mem_nil, or_false] at hmem
  rcases hmem with ⟨hname, -⟩ | ⟨hname, -⟩ | ⟨hname, -⟩
  · exact ⟨(text "inf", .infinite negative), by simp [names], hname⟩
  · exact ⟨(text "infinity", .infinite negative), by simp [names], hname⟩
  · exact ⟨(text "nan", .nan), by simp [names], hname⟩

/-- A name with a value is spelt in ASCII. -/
theorem exists_of_nameFront? {entry : Text × Binary64} {s : Text} {x : Binary64}
    (h : nameFront? s entry = some ⟨some x, rest⟩) :
    ∃ core : Text, s = core ++ rest ∧ core.map lowerAscii = entry.1 ∧ entry.2 = x := by
  obtain ⟨found, hfound, -⟩ := Option.map_eq_some_iff.mp h
  obtain ⟨core, rfl, hspells⟩ := afterWord?_eq_some_iff.mp hfound
  rw [nameFront?_of_spells hspells, Option.some.injEq, RealFront.mk.injEq] at h
  obtain ⟨hvalue, rfl⟩ := h
  split at hvalue
  · rename_i hall
    have hascii : ∀ c ∈ core, c ≤ 0x7F := by simpa using hall
    exact ⟨core, rfl, (spells_iff hascii).mp hspells, Option.some.inj hvalue⟩
  · cases hvalue

/-- What is read as a name is one. -/
theorem exists_isReal_of_named? {s : Text} {x : Binary64}
    (h : named? negative s = some ⟨some x, rest⟩) :
    ∃ (core : Text) (v : Quantity), s = core ++ rest ∧ core.IsReal v ∧ v.Rounds negative x := by
  obtain ⟨entry, hmem, hentry⟩ := List.exists_of_findSome?_eq_some h
  obtain ⟨core, hs, hname, rfl⟩ := exists_of_nameFront? hentry
  simp only [names, List.mem_cons, List.not_mem_nil, or_false] at hmem
  rcases hmem with rfl | rfl | rfl
  · exact ⟨core, .infinite, hs, .name (by rw [hname]; rfl), .infinite⟩
  · exact ⟨core, .infinite, hs, .name (by rw [hname]; rfl), .infinite⟩
  · exact ⟨core, .nan, hs, .name (by rw [hname]; rfl), .nan⟩

/-- A text that begins with a digit or a point begins with no name. -/
theorem named?_of_decimal (negative : Bool) {c : CodePoint} (hc : isDigit c = true ∨ c = ch '.')
    (rest : Text) : named? negative (c :: rest) = none := by
  have hpass (letter : CodePoint) (hletter : 58 ≤ letter) (hpoint : passesAs letter (ch '.') = false) :
      passesAs letter c = false := by
    rcases hc with hdigit | rfl
    · exact passesAs_of_isDigit hdigit hletter
    · exact hpoint
  exact named?_eq_none negative (hpass (ch 'i') (by decide) (by decide))
    (hpass (ch 'n') (by decide) (by decide)) rest

theorem length_of_nameFront? {entry : Text × Binary64} {s : Text} {front : RealFront}
    (h : nameFront? s entry = some front) : s.length = entry.1.length + front.rest.length := by
  obtain ⟨found, hfound, rfl⟩ := Option.map_eq_some_iff.mp h
  obtain ⟨core, rfl, hspells⟩ := afterWord?_eq_some_iff.mp hfound
  rw [List.length_append, hspells.length_eq]

/-- Since longer names are tried first, none that the text begins with is longer than the one found. -/
theorem exists_findSome? {entries : List (Text × Binary64)} {entry : Text × Binary64} {s : Text}
    {front : RealFront} (hlonger : entries.Pairwise fun a b => b.1.length ≤ a.1.length)
    (hmem : entry ∈ entries) (h : nameFront? s entry = some front) :
    ∃ found, entries.findSome? (nameFront? s) = some found ∧
      found.rest.length ≤ front.rest.length := by
  induction entries with
  | nil => cases hmem
  | cons first entries ih =>
    obtain ⟨hfirst, hlater⟩ := List.pairwise_cons.mp hlonger
    rw [List.findSome?_cons]
    cases hread : nameFront? s first with
    | none =>
      rcases List.mem_cons.mp hmem with rfl | hmore
      · rw [h] at hread
        cases hread
      · exact ih hlater hmore
    | some found =>
      refine ⟨found, rfl, ?_⟩
      have hlength := length_of_nameFront? h
      rw [length_of_nameFront? hread] at hlength
      rcases List.mem_cons.mp hmem with rfl | hmore
      · omega
      · have hle := hfirst entry hmore
        omega

theorem exists_named? (negative : Bool)
    (h : Quantity.names.lookup (core.map lowerAscii) = some v) (rest : Text) :
    ∃ front, named? negative (core ++ rest) = some front ∧ front.rest.length ≤ rest.length := by
  obtain ⟨entry, hmem, hname⟩ := exists_entry negative h
  have hlonger : (names negative).Pairwise fun a b => b.1.length ≤ a.1.length := by
    cases negative <;> decide
  exact exists_findSome? hlonger hmem
    (nameFront?_of_map (names_isGraphic negative entry hmem) hname rest)

/-- No decimal is a name. -/
theorem not_isDecimal (h : Quantity.names.lookup (core.map lowerAscii) = some v) (a : ℚ) :
    ¬ core.IsDecimal a := by
  intro hdecimal
  obtain ⟨front, hfront, -⟩ := exists_named? false h []
  obtain ⟨c, more, rfl, hc⟩ := hdecimal.exists_cons
  rw [List.cons_append, named?_of_decimal false hc] at hfront
  cases hfront

end RealFront

namespace Text.IsReal

open RealFront

variable {core rest : Text} {v w : Quantity}

/-- Every literal begins with a letter, a digit or the point. -/
theorem exists_cons (h : core.IsReal v) :
    ∃ c more, core = c :: more ∧ isBlank c = false ∧
      ∀ rest, PropertyList.splitSign (c :: rest) = (false, c :: rest) := by
  cases h with
  | name hname =>
    obtain ⟨entry, hmem, hentry⟩ := exists_entry false hname
    obtain ⟨letter, word, hword, hletter⟩ :
        ∃ letter word, entry.1 = letter :: word ∧ (letter = ch 'i' ∨ letter = ch 'n') := by
      simp only [names, List.mem_cons, List.not_mem_nil, or_false] at hmem
      rcases hmem with rfl | rfl | rfl
      · exact ⟨ch 'i', text "nfinity", by decide, .inl rfl⟩
      · exact ⟨ch 'i', text "nf", by decide, .inl rfl⟩
      · exact ⟨ch 'n', text "an", by decide, .inr rfl⟩
    rw [hword] at hentry
    obtain ⟨c, more, rfl, hc, -⟩ := List.map_eq_cons_iff.mp hentry
    refine ⟨c, more, rfl, ?_⟩
    rcases hletter with rfl | rfl
    · rcases (lowerAscii_eq_iff (by decide)).mp hc with rfl | rfl <;> exact ⟨by decide, fun _ => rfl⟩
    · rcases (lowerAscii_eq_iff (by decide)).mp hc with rfl | rfl <;> exact ⟨by decide, fun _ => rfl⟩
  | decimal hdecimal =>
    obtain ⟨c, more, rfl, hdigit | rfl⟩ := hdecimal.exists_cons
    · have hgraphic := isGraphic_of_isDigit (s := [c]) (by simpa using hdigit)
      exact ⟨c, more, rfl, hgraphic.isBlank_eq_false c (by simp), splitSign_of_isDigit hdigit⟩
    · exact ⟨ch '.', more, rfl, by decide, fun _ => rfl⟩

theorem splitSign {s sign : Text} (h : core.IsReal v) (hopens : s.Opens sign core rest) :
    PropertyList.splitSign s.trimLeft = (sign == text "-", core ++ rest) := by
  obtain ⟨c, more, rfl, hblank, hplain⟩ := h.exists_cons
  exact hopens.splitSign hblank hplain

/-- A literal stands for one quantity. -/
theorem eq_of_isReal (h : core.IsReal v) (h' : core.IsReal w) : v = w := by
  cases h with
  | name hname =>
    cases h' with
    | name hother => exact Option.some.inj (hname.symm.trans hother)
    | decimal hdecimal => exact absurd hdecimal (not_isDecimal hname _)
  | decimal hdecimal =>
    cases h' with
    | name hname => exact absurd hdecimal (not_isDecimal hname _)
    | decimal hother => rw [hdecimal.eq_of_isDecimal hother]

end Text.IsReal

namespace RealFront

variable {s rest : Text}

/-- Whatever literal a text begins with, something as long is read. -/
theorem exists_ofText? {sign core : Text} {v : Quantity} (hopens : s.Opens sign core rest)
    (hreal : core.IsReal v) :
    ∃ front, ofText? s = some front ∧ front.rest.length ≤ rest.length := by
  rw [ofText?, hreal.splitSign hopens]
  dsimp only
  cases hreal with
  | name hname =>
    obtain ⟨front, hfront, hle⟩ := exists_named? (sign == text "-") hname rest
    exact ⟨front, by rw [hfront], hle⟩
  | decimal hdecimal =>
    obtain ⟨front, hfront, hle⟩ := exists_decimal? (sign == text "-") hdecimal rest
    obtain ⟨c, more, rfl, hc⟩ := hdecimal.exists_cons
    exact ⟨front, by rw [List.cons_append, named?_of_decimal _ hc]; exact hfront, hle⟩

/-- What is read with a value is the longest literal behind blanks and a sign, and the value is what
the literal is rounded to. -/
theorem exists_longestReal {x : Binary64} (h : ofText? s = some ⟨some x, rest⟩) :
    ∃ sign core v, s.LongestReal sign core rest v ∧ v.Rounds (sign == text "-") x := by
  have hliteral : ∃ core v, (splitSign s.trimLeft).2 = core ++ rest ∧ Text.IsReal core v ∧
      v.Rounds (splitSign s.trimLeft).1 x := by
    rw [ofText?] at h
    dsimp only at h
    split at h
    · rename_i found hfound
      cases h
      exact exists_isReal_of_named? hfound
    · obtain ⟨number, a, y, hs, hdecimal, hvalue, hround⟩ := exists_isDecimal h
      cases hvalue
      exact ⟨number, .rational a, hs, .decimal hdecimal, .rational hround⟩
  obtain ⟨core, v, hsplit, hreal, hround⟩ := hliteral
  obtain ⟨sign, hnegative, hopens⟩ := Text.exists_opens (Prod.ext rfl hsplit)
  refine ⟨sign, core, v, ⟨hopens, hreal, ?_⟩, hnegative ▸ hround⟩
  intro sign' core' rest' v' hopens' hreal'
  obtain ⟨front, hfront, hle⟩ := exists_ofText? hopens' hreal'
  rw [h] at hfront
  cases hfront
  exact hle

end RealFront

/-- A text has one longest literal in front. -/
theorem Text.LongestReal.eq {s sign core rest sign' core' rest' : Text} {v v' : Quantity}
    (h : s.LongestReal sign core rest v) (h' : s.LongestReal sign' core' rest' v') :
    (sign == text "-") = (sign' == text "-") ∧ v = v' := by
  have hsplit := h.isReal.splitSign h.opens
  rw [h'.isReal.splitSign h'.opens, Prod.mk.injEq] at hsplit
  have hrest : rest'.length = rest.length :=
    Nat.le_antisymm (h'.longest h.opens h.isReal) (h.longest h'.opens h'.isReal)
  obtain ⟨rfl, -⟩ := List.append_inj' hsplit.2 hrest
  exact ⟨hsplit.1.symm, h.isReal.eq_of_isReal h'.isReal⟩

/-- A lenient reader returns zero for a text without a literal in front, and otherwise what is read,
if that has a value and no separators stand among the blanks. -/
theorem decodeReal_lenient_eq_ok_iff {s : Text} {x : Binary64} :
    (decodeReal false s).outcome = .ok x ↔
      RealFront.ofText? s = none ∧ x = .zero ∨
        (s.takeWhile isBlank).any isSeparator = false ∧
          ∃ rest, RealFront.ofText? s = some ⟨some x, rest⟩ := by
  unfold decodeReal
  simp only [Bool.false_eq_true, if_false]
  cases hfront : RealFront.ofText? s with
  | none =>
    simp only [Run.outcome_noting, Except.ok.injEq, true_and, reduceCtorEq, exists_false, and_false,
      or_false]
    exact eq_comm
  | some front =>
    obtain ⟨_ | y, rest⟩ := front
    · simp
    · cases hseparator : (s.takeWhile isBlank).any isSeparator with
      | true => simp
      | false => simp

/-- Whenever a lenient reader of reals returns, it has taken the longest literal in front of the text
and rounded what it stands for, or has returned zero for a text without one. -/
theorem decodeReal_of_longestReal {s : Text} {x : Binary64}
    (h : (decodeReal false s).outcome = .ok x) :
    ((∃ sign core rest v, s.LongestReal sign core rest v) ∨
      (∀ sign core rest v, s.Opens sign core rest → ¬ core.IsReal v) ∧ x = .zero) ∧
    ∀ sign core rest v, s.LongestReal sign core rest v → v.Rounds (sign == text "-") x := by
  rcases decodeReal_lenient_eq_ok_iff.mp h with ⟨hnone, hzero⟩ | ⟨-, rest, hfront⟩
  · have hplain : ∀ sign core rest v, s.Opens sign core rest → ¬ core.IsReal v := by
      intro sign core rest v hopens hreal
      obtain ⟨front, hfront, -⟩ := RealFront.exists_ofText? hopens hreal
      rw [hnone] at hfront
      cases hfront
    refine ⟨.inr ⟨hplain, hzero⟩, ?_⟩
    intro sign core rest v hlongest
    exact absurd hlongest.isReal (hplain sign core rest v hlongest.opens)
  · obtain ⟨sign, core, v, hlongest, hround⟩ := RealFront.exists_longestReal hfront
    refine ⟨.inl ⟨sign, core, rest, v, hlongest⟩, ?_⟩
    intro sign' core' rest' v' hother
    obtain ⟨hsign, rfl⟩ := hlongest.eq hother
    rwa [← hsign]

/-- A half exponent is left over, and of two numbers that are as near the even one is taken. -/
theorem decodeReal_of_longestReal_tie :
    (decodeReal false (text " -9007199254740993.e+x")).outcome = .ok (.finite true (2 ^ 52) 1075) ∧
      Text.LongestReal (text " -9007199254740993.e+x") (text "-") (text "9007199254740993.")
        (text "e+x") (.rational 9007199254740993) ∧
      (Quantity.rational 9007199254740993).Rounds true (.finite true (2 ^ 52) 1075) := by
  have hread : (decodeReal false (text " -9007199254740993.e+x")).outcome =
      .ok (.finite true (2 ^ 52) 1075) := by decide +kernel
  have hfront : RealFront.ofText? (text " -9007199254740993.e+x") =
      some ⟨some (.finite true (2 ^ 52) 1075), text "e+x"⟩ := by decide +kernel
  have hblank : Text.IsBlank (text " ") := by decide
  have hdecimal : Text.IsDecimal (text "9007199254740993.") 9007199254740993 := by
    have hwhole : ∀ c ∈ text "9007199254740993", isDigit c = true := by decide
    have hpoint : Text.IsFraction (text ".") [] := .present (by simp)
    have hvalue : numeralValue 10 (text "9007199254740993") = 9007199254740993 := by decide
    have hparts := Text.IsDecimal.parts hwhole hpoint (.inl (by decide)) .absent
    rw [hvalue] at hparts
    convert hparts using 1
    · decide
    · norm_num [numeralValue, ofDigits]
  have hlongest : Text.LongestReal (text " -9007199254740993.e+x") (text "-")
      (text "9007199254740993.") (text "e+x") (.rational 9007199254740993) := by
    refine ⟨⟨by decide, text " ", hblank, by decide⟩, .decimal hdecimal, ?_⟩
    intro sign core rest v hopens hreal
    obtain ⟨front, hother, hle⟩ := RealFront.exists_ofText? hopens hreal
    rw [hfront] at hother
    cases hother
    exact hle
  exact ⟨hread, hlongest, (decodeReal_of_longestReal hread).2 _ _ _ _ hlongest⟩

end PropertyList
