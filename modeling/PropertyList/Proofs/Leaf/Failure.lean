import PropertyList.Proofs.Leaf.Strict

/-! Leaves that no reader is prepared for. Two kinds of text lead to a failure of the conversion
itself: a decimal numeral of too many digits, and the name of an infinity with a Turkish letter. -/
namespace PropertyList

/-- The failures that a reader announces. A lenient reader announces none. -/
def Failure.IsAnnounced (strict : Bool) : Failure → Prop
  | .undecodable _ => strict = true
  | .unparsable _ _ => strict = true
  | _ => False

/-- Whether a run ends in a failure that its reader does not announce. -/
def Run.Escapes {α : Type} (strict : Bool) (run : Run α) : Prop :=
  ∃ failure, run.outcome = .error failure ∧ ¬ failure.IsAnnounced strict

namespace Run

variable {α β : Type} {strict : Bool}

theorem not_escapes_of_ok {run : Run α} {a : α} (h : run.outcome = .ok a) :
    ¬ run.Escapes strict := by
  rintro ⟨failure, hfailure, -⟩
  rw [h] at hfailure
  cases hfailure

theorem escapes_fail_iff {failure : Failure} :
    (Run.fail failure : Run α).Escapes strict ↔ ¬ failure.IsAnnounced strict := by
  constructor
  · rintro ⟨found, hfound, hescapes⟩
    cases hfound
    exact hescapes
  · intro hescapes
    exact ⟨failure, rfl, hescapes⟩

theorem not_escapes_fault (fault : DecodeFault) : ¬ (Run.fault fault : Run α).Escapes true :=
  fun h => escapes_fail_iff.mp h rfl

/-- A fault of a strict reader is announced, and a lenient one leaves a notice in its place. -/
theorem not_escapes_fault_or_noting (fault : DecodeFault) (notice : Notice) (a : α) :
    ¬ (if strict then Run.fault fault else Run.noting notice a).Escapes strict := by
  cases strict
  · exact not_escapes_of_ok rfl
  · exact not_escapes_fault fault

theorem escapes_bind_iff {run : Run α} {next : α → Run β} :
    (run >>= next).Escapes strict ↔
      run.Escapes strict ∨ ∃ a, run.outcome = .ok a ∧ (next a).Escapes strict := by
  constructor
  · rintro ⟨failure, hfailure, hescapes⟩
    rcases outcome_bind_eq_error.mp hfailure with hfirst | ⟨a, ha, hnext⟩
    · exact .inl ⟨failure, hfirst, hescapes⟩
    · exact .inr ⟨a, ha, failure, hnext, hescapes⟩
  · rintro (⟨failure, hfirst, hescapes⟩ | ⟨a, ha, failure, hnext, hescapes⟩)
    · exact ⟨failure, outcome_bind_eq_error.mpr (.inl hfirst), hescapes⟩
    · exact ⟨failure, outcome_bind_eq_error.mpr (.inr ⟨a, ha, hnext⟩), hescapes⟩

theorem escapes_bind_pure_iff {run : Run α} {f : α → β} :
    (run >>= fun a => pure (f a)).Escapes strict ↔ run.Escapes strict := by
  rw [escapes_bind_iff]
  constructor
  · rintro (h | ⟨a, -, h⟩)
    · exact h
    · exact absurd h (not_escapes_of_ok rfl)
  · exact .inl

end Run

/-- A decimal numeral of more digits than are read. -/
def Text.IsHugeNumeral (s : Text) : Prop :=
  (∀ c ∈ s, isDigit c = true) ∧ s.head? ≠ some (ch '0') ∧ maxDecimalDigits < s.length

namespace IntegerFront

theorem base_of_hexadecimal? {negative : Bool} {s : Text} {front : IntegerFront}
    (h : hexadecimal? negative s = some front) : front.base = 16 := by
  unfold hexadecimal? at h
  split at h
  · cases h
  · split at h
    · cases h
      rfl
    · cases h

/-- What is too long is a decimal numeral, and all that the text holds behind its blanks and its
sign and in front of the rest. -/
theorem isHugeNumeral_of_isTooLong {s : Text} {front : IntegerFront} (h : ofText? s = some front)
    (hlong : front.isTooLong = true) :
    splitSign s.trimLeft = (front.negative, front.digits ++ front.rest) ∧
      front.digits.IsHugeNumeral := by
  unfold ofText? at h
  rcases hsplit : splitSign s.trimLeft with ⟨negative, body⟩
  rw [hsplit] at h
  cases body with
  | nil => cases h
  | cons c rest =>
    dsimp only at h
    split at h
    · split at h
      · rename_i found hfound
        cases h
        simp [isTooLong, base_of_hexadecimal? hfound] at hlong
      · cases h
        simp [isTooLong] at hlong
    · rename_i hzero
      split at h
      · rename_i hdigit
        cases h
        refine ⟨by rw [List.takeWhile_append_dropWhile], ?_, ?_, ?_⟩
        · intro d hd
          exact List.mem_takeWhile_imp hd
        · simpa [hdigit] using hzero
        · simpa [isTooLong] using hlong
      · cases h

theorem ofText?_of_isHugeNumeral {s sign numeral rest : Text} (h : s.Opens sign numeral rest)
    (hhuge : numeral.IsHugeNumeral) :
    ofText? s = some ⟨sign == text "-", 10, numeral ++ rest.takeWhile isDigit,
      rest.dropWhile isDigit⟩ := by
  obtain ⟨hdigits, hhead, hlength⟩ := hhuge
  cases numeral with
  | nil => cases hlength
  | cons c more =>
    have hc : isDigit c = true := hdigits c (by simp)
    have hzero : c ≠ ch '0' := by simpa using hhead
    have hgraphic := Text.isGraphic_of_isDigit hdigits
    have hsplit := h.splitSign (hgraphic.isBlank_eq_false c (by simp)) (splitSign_of_isDigit hc)
    have htake : (c :: more ++ rest).takeWhile isDigit = c :: more ++ rest.takeWhile isDigit :=
      List.takeWhile_append_of_pos hdigits
    have hdrop : (c :: more ++ rest).dropWhile isDigit = rest.dropWhile isDigit :=
      List.dropWhile_append_of_pos hdigits
    rw [ofText?, hsplit]
    simp only [List.cons_append, if_neg hzero, hc, if_true] at htake hdrop ⊢
    rw [htake, hdrop]

end IntegerFront

theorem exists_front_of_escapes {strict : Bool} {s : Text}
    (h : (decodeInteger strict s).Escapes strict) :
    ∃ front, IntegerFront.ofText? s = some front ∧ front.isTooLong = true ∧
      (strict = true → front.isWhole = true) := by
  unfold decodeInteger at h
  split at h
  · exact absurd h (Run.not_escapes_fault_or_noting _ _ _)
  · rename_i front hfront
    split at h
    · rename_i hpart
      simp only [Bool.and_eq_true] at hpart
      rw [hpart.1] at h
      exact absurd h (Run.not_escapes_fault _)
    · rename_i hpart
      split at h
      · rename_i hlong
        refine ⟨front, hfront, hlong, ?_⟩
        intro hstrict
        simpa [hstrict] using hpart
      · split at h
        · exact absurd h (Run.not_escapes_of_ok rfl)
        · exact absurd h (Run.not_escapes_fault_or_noting _ _ _)

theorem decodeInteger_of_isTooLong {strict : Bool} {s : Text} {front : IntegerFront}
    (h : IntegerFront.ofText? s = some front) (hlong : front.isTooLong = true)
    (hwhole : strict = true → front.isWhole = true) :
    decodeInteger strict s = Run.fail (.hugeNumeral front.digits.length) := by
  have hpart : (strict && !front.isWhole) = false := by
    cases strict
    · rfl
    · rw [hwhole rfl]
      rfl
  rw [decodeInteger, h]
  simp only [hpart, hlong, Bool.false_eq_true, if_false, if_true]

/-- An integer is not read just if it opens with a numeral of too many digits. A strict reader comes
to the numeral only if nothing but blanks follows and no minus sign stands in front. -/
theorem decodeInteger_escapes_iff {strict : Bool} {s : Text} :
    (decodeInteger strict s).Escapes strict ↔
      ∃ sign numeral rest, s.Opens sign numeral rest ∧ numeral.IsHugeNumeral ∧
        (strict = true → sign ≠ text "-" ∧ rest.IsBlank) := by
  constructor
  · intro hescapes
    obtain ⟨front, hfront, hlong, hwhole⟩ := exists_front_of_escapes hescapes
    obtain ⟨hsplit, hhuge⟩ := IntegerFront.isHugeNumeral_of_isTooLong hfront hlong
    obtain ⟨sign, hnegative, hopens⟩ := Text.exists_opens hsplit
    refine ⟨sign, front.digits, front.rest, hopens, hhuge, ?_⟩
    intro hstrict
    have hparts := hwhole hstrict
    simp only [IntegerFront.isWhole, Bool.and_eq_true, Bool.not_eq_true'] at hparts
    rw [← hnegative, beq_eq_false_iff_ne] at hparts
    exact ⟨hparts.2, List.all_eq_true.mp hparts.1⟩
  · rintro ⟨sign, numeral, rest, hopens, hhuge, hstrict⟩
    rw [decodeInteger_of_isTooLong (IntegerFront.ofText?_of_isHugeNumeral hopens hhuge)]
    · exact Run.escapes_fail_iff.mpr id
    · have hlength : maxDecimalDigits < numeral.length := hhuge.2.2
      simp only [IntegerFront.isTooLong, List.length_append, Bool.and_eq_true, decide_eq_true_eq]
      exact ⟨rfl, by omega⟩
    · intro h
      obtain ⟨hsign, hblank⟩ := hstrict h
      have hrest : ∀ c ∈ rest.dropWhile isDigit, isBlank c = true :=
        fun c hc => hblank c (List.dropWhile_subset _ hc)
      simp only [IntegerFront.isWhole, Bool.and_eq_true, Bool.not_eq_true', beq_eq_false_iff_ne]
      exact ⟨List.all_eq_true.mpr hrest, hsign⟩

/-- Whether a text passes as the name of an infinity, but not in ASCII. -/
def Text.IsMisspelt (s : Text) : Prop :=
  (RealFront.Spells (text "infinity") s ∨ RealFront.Spells (text "inf") s) ∧ ∃ c ∈ s, 0x7F < c

theorem Text.IsMisspelt.exists_cons {s : Text} (h : s.IsMisspelt) :
    ∃ c rest, s = c :: rest ∧ RealFront.passesAs (ch 'i') c = true := by
  rcases h.1 with hlong | hshort
  · cases hlong with
    | cons hpass _ => exact ⟨_, _, rfl, hpass⟩
  · cases hshort with
    | cons hpass _ => exact ⟨_, _, rfl, hpass⟩

namespace RealFront

/-- A front without a value is a name that is spelt otherwise than in ASCII. -/
theorem exists_isMisspelt {negative : Bool} {body rest : Text}
    (h : named? negative body = some ⟨none, rest⟩) :
    ∃ name : Text, body = name ++ rest ∧ name.IsMisspelt := by
  obtain ⟨entry, hmem, hentry⟩ := List.exists_of_findSome?_eq_some h
  obtain ⟨name, hbody, hspells, hforeign⟩ := nameFront?_eq_none_iff.mp hentry
  simp only [names, List.mem_cons, List.not_mem_nil, or_false] at hmem
  rcases hmem with rfl | rfl | rfl
  · exact ⟨name, hbody, .inl hspells, hforeign⟩
  · exact ⟨name, hbody, .inr hspells, hforeign⟩
  · obtain ⟨c, hc, hlarge⟩ := hforeign
    exact absurd hlarge (Nat.not_lt.mpr (hspells.le_of_mem (by decide) hc))

/-- The name of an infinity that is not spelt in ASCII denotes no number. If it is the short name,
more of it may follow than that, but blanks do not belong to it. -/
theorem exists_named?_of_isMisspelt (negative : Bool) {name : Text} (h : name.IsMisspelt)
    (rest : Text) :
    ∃ more, named? negative (name ++ rest) = some ⟨none, more⟩ ∧
      (rest.IsBlank → more = rest) := by
  obtain ⟨hlong | hshort, hforeign⟩ := h
  · have hfront : nameFront? (name ++ rest) (text "infinity", .infinite negative) =
        some ⟨none, rest⟩ := nameFront?_eq_none_iff.mpr ⟨name, rfl, hlong, hforeign⟩
    refine ⟨rest, ?_, fun _ => rfl⟩
    rw [named?_eq, names, List.findSome?_cons, hfront]
  · have hinfinity : text "infinity" = text "inf" ++ text "inity" := by decide
    have hmore := afterWord?_of_spells hshort (text "inity") rest
    rw [← hinfinity] at hmore
    cases htail : afterWord? (text "inity") rest with
    | none =>
      rw [htail] at hmore
      have hnone : nameFront? (name ++ rest) (text "infinity", .infinite negative) = none := by
        rw [nameFront?, hmore, Option.map_none]
      have hfront : nameFront? (name ++ rest) (text "inf", .infinite negative) =
          some ⟨none, rest⟩ := nameFront?_eq_none_iff.mpr ⟨name, rfl, hshort, hforeign⟩
      refine ⟨rest, ?_, fun _ => rfl⟩
      rw [named?_eq, names, List.findSome?_cons, hnone, List.findSome?_cons, hfront]
    | some more =>
      obtain ⟨tail, rfl, hspells⟩ := afterWord?_eq_some_iff.mp htail
      have hwhole : Spells (text "infinity") (name ++ tail) := by
        rw [hinfinity]
        exact List.rel_append hshort hspells
      obtain ⟨c, hc, hlarge⟩ := hforeign
      have hfront : nameFront? (name ++ (tail ++ more)) (text "infinity", .infinite negative) =
          some ⟨none, more⟩ := nameFront?_eq_none_iff.mpr
        ⟨name ++ tail, by simp, hwhole, c, List.mem_append_left tail hc, hlarge⟩
      refine ⟨more, ?_, ?_⟩
      · rw [named?_eq, names, List.findSome?_cons, hfront]
      · -- the letter i that goes on with the name is no blank
        intro hblank
        cases hspells with
        | @cons _ d _ tail hpass =>
          rw [passesAs_of_isBlank (hblank d (by simp)) (by decide)] at hpass
          cases hpass

theorem decimal?_ne_none {negative : Bool} {s rest : Text} :
    decimal? negative s ≠ some ⟨none, rest⟩ := by
  unfold decimal?
  intro h
  dsimp only at h
  split at h
  · cases h
  · cases h

theorem ofText?_eq_none_iff {s rest : Text} :
    ofText? s = some ⟨none, rest⟩ ↔
      named? (splitSign s.trimLeft).1 (splitSign s.trimLeft).2 = some ⟨none, rest⟩ := by
  rw [ofText?]
  dsimp only
  cases named? (splitSign s.trimLeft).1 (splitSign s.trimLeft).2 with
  | none => simp [decimal?_ne_none]
  | some front => rfl

theorem exists_opens_of_ofText? {s rest : Text} (h : ofText? s = some ⟨none, rest⟩) :
    ∃ sign name, s.Opens sign name rest ∧ name.IsMisspelt := by
  obtain ⟨name, hbody, hname⟩ := exists_isMisspelt (ofText?_eq_none_iff.mp h)
  obtain ⟨sign, -, hopens⟩ := Text.exists_opens (Prod.ext rfl hbody)
  exact ⟨sign, name, hopens, hname⟩

theorem exists_ofText?_of_opens {s sign name rest : Text} (h : s.Opens sign name rest)
    (hname : name.IsMisspelt) :
    ∃ more, ofText? s = some ⟨none, more⟩ ∧ (rest.IsBlank → more = rest) := by
  obtain ⟨c, core, rfl, hpass⟩ := hname.exists_cons
  have hblank : isBlank c = false := by
    apply Bool.eq_false_iff.mpr
    intro hblank
    rw [passesAs_of_isBlank hblank (by decide)] at hpass
    cases hpass
  have hsign (d : CodePoint) (hd : passesAs (ch 'i') d = false) : c ≠ d := by
    rintro rfl
    rw [hd] at hpass
    cases hpass
  have hplain := splitSign_of_ne (hsign (ch '-') (by decide)) (hsign (ch '+') (by decide))
  obtain ⟨more, hmore, heq⟩ := exists_named?_of_isMisspelt (sign == text "-") hname rest
  refine ⟨more, ?_, heq⟩
  rw [ofText?_eq_none_iff, h.splitSign hblank hplain]
  exact hmore

end RealFront

theorem decodeReal_strict_escapes_iff {s : Text} :
    (decodeReal true s).Escapes true ↔ RealFront.ofText? s.trim = some ⟨none, []⟩ := by
  simp only [decodeReal, if_true]
  cases hfront : RealFront.ofText? s.trim with
  | none => simpa using Run.not_escapes_fault _
  | some front =>
    rcases front with ⟨_ | x, _ | ⟨c, rest⟩⟩
    · simpa using Run.escapes_fail_iff.mpr id
    · simpa using Run.not_escapes_fault _
    · simpa using Run.not_escapes_of_ok rfl
    · simpa using Run.not_escapes_fault _

/-- A strict reader looks at the same front, but wants it to fill the text up to blanks. -/
theorem decodeReal_escapes_iff_front {strict : Bool} {s : Text} (hxml : s.isXml = true) :
    (decodeReal strict s).Escapes strict ↔
      ∃ rest : Text, RealFront.ofText? s = some ⟨none, rest⟩ ∧ (strict = true → rest.IsBlank) := by
  cases strict with
  | false =>
    simp only [decodeReal, Bool.false_eq_true, if_false, Text.isSeparator_of_isXml hxml,
      false_implies, and_true]
    cases hfront : RealFront.ofText? s with
    | none => simpa using Run.not_escapes_of_ok rfl
    | some front =>
      rcases front with ⟨_ | x, rest⟩
      · simpa using Run.escapes_fail_iff.mpr id
      · simpa using Run.not_escapes_of_ok rfl
  | true =>
    obtain ⟨blanks, hblanks, hfront⟩ := RealFront.exists_ofText?_trim s
    rw [decodeReal_strict_escapes_iff]
    constructor
    · intro htrim
      refine ⟨blanks, ?_, fun _ => hblanks⟩
      rw [hfront, htrim]
      rfl
    · rintro ⟨rest, hrest, hblank⟩
      rw [hfront] at hrest
      obtain ⟨⟨value, left⟩, htrim, hextend⟩ := Option.map_eq_some_iff.mp hrest
      obtain ⟨rfl, rfl⟩ : value = none ∧ left ++ blanks = rest := by
        simpa [RealFront.extend] using hextend
      have hleft : Text.IsBlank left := fun c hc => hblank rfl c (List.mem_append_left blanks hc)
      obtain ⟨sign, name, ⟨-, front, -, heq⟩, -⟩ := RealFront.exists_opens_of_ofText? htrim
      have hend : s.trim = (front ++ (sign ++ name)) ++ left := by simpa using heq
      rw [htrim, Text.eq_nil_of_trim_eq_append hleft hend]

/-- A real is not read just if it opens with the misspelt name of an infinity. A strict reader comes
to the name only if nothing but blanks follows. -/
theorem decodeReal_escapes_iff {strict : Bool} {s : Text} (hxml : s.isXml = true) :
    (decodeReal strict s).Escapes strict ↔
      ∃ sign name rest, s.Opens sign name rest ∧ name.IsMisspelt ∧
        (strict = true → rest.IsBlank) := by
  rw [decodeReal_escapes_iff_front hxml]
  constructor
  · rintro ⟨rest, hfront, hstrict⟩
    obtain ⟨sign, name, hopens, hname⟩ := RealFront.exists_opens_of_ofText? hfront
    exact ⟨sign, name, rest, hopens, hname, hstrict⟩
  · rintro ⟨sign, name, rest, hopens, hname, hstrict⟩
    obtain ⟨more, hfront, hmore⟩ := RealFront.exists_ofText?_of_opens hopens hname
    refine ⟨more, hfront, ?_⟩
    intro h
    rw [hmore (hstrict h)]
    exact hstrict h

theorem not_escapes_decodeData {strict : Bool} (s : Text) :
    ¬ (decodeData strict s).Escapes strict := by
  unfold decodeData
  split
  · exact Run.not_escapes_of_ok rfl
  · exact Run.not_escapes_fault_or_noting _ _ _

theorem not_escapes_decodeDate {strict : Bool} (s : Text) :
    ¬ (decodeDate strict s).Escapes strict := by
  unfold decodeDate
  split
  · exact Run.not_escapes_of_ok rfl
  · exact Run.not_escapes_fault_or_noting _ _ _

theorem mem_tags_of_kindOfTag? {tag : Text} {kind : Kind} (h : kindOfTag? tag = some kind) :
    (tag, kind) ∈ tags := by
  obtain ⟨before, after, htags, -⟩ := List.lookup_eq_some_iff.mp h
  rw [htags]
  simp

namespace Leaf

/-- Whether a reader fails on the text of an element otherwise than it announces. -/
def Breaks (strict : Bool) (tag s : Text) : Prop :=
  ∃ sign core rest, s.Opens sign core rest ∧ (strict = true → rest.IsBlank) ∧
    (tag = text "integer" ∧ core.IsHugeNumeral ∧ (strict = true → sign ≠ text "-") ∨
      tag = text "real" ∧ core.IsMisspelt)

variable {strict : Bool} {tag s : Text}

theorem breaks_integer_iff : Breaks strict (text "integer") s ↔
    (decodeInteger strict s).Escapes strict := by
  have hreal : text "integer" ≠ text "real" := by decide
  rw [decodeInteger_escapes_iff]
  constructor
  · rintro ⟨sign, core, rest, hopens, hblank, ⟨-, hhuge, hsign⟩ | ⟨htag, -⟩⟩
    · exact ⟨sign, core, rest, hopens, hhuge, fun h => ⟨hsign h, hblank h⟩⟩
    · exact absurd htag hreal
  · rintro ⟨sign, core, rest, hopens, hhuge, hstrict⟩
    exact ⟨sign, core, rest, hopens, fun h => (hstrict h).2,
      .inl ⟨rfl, hhuge, fun h => (hstrict h).1⟩⟩

theorem breaks_real_iff (hxml : s.isXml = true) : Breaks strict (text "real") s ↔
    (decodeReal strict s).Escapes strict := by
  have hinteger : text "real" ≠ text "integer" := by decide
  rw [decodeReal_escapes_iff hxml]
  constructor
  · rintro ⟨sign, core, rest, hopens, hblank, ⟨htag, -⟩ | ⟨-, hname⟩⟩
    · exact absurd htag hinteger
    · exact ⟨sign, core, rest, hopens, hname, hblank⟩
  · rintro ⟨sign, core, rest, hopens, hname, hblank⟩
    exact ⟨sign, core, rest, hopens, hblank, .inr ⟨rfl, hname⟩⟩

/-- Only integers and reals are converted. -/
theorem Breaks.kindOfTag? (h : Breaks strict tag s) :
    kindOfTag? tag = some .integer ∨ kindOfTag? tag = some .real := by
  obtain ⟨sign, core, rest, -, -, ⟨rfl, -⟩ | ⟨rfl, -⟩⟩ := h
  · exact .inl (by decide)
  · exact .inr (by decide)

theorem not_escapes_decode (hxml : s.isXml = true) (hinteger : kindOfTag? tag ≠ some .integer)
    (hreal : kindOfTag? tag ≠ some .real) : ¬ (decode strict tag s).Escapes strict := by
  unfold decode
  split
  · exact Run.not_escapes_of_ok rfl
  · rename_i hkind
    exact absurd hkind hinteger
  · rename_i hkind
    exact absurd hkind hreal
  · rw [Run.escapes_bind_pure_iff]
    exact not_escapes_decodeDate s
  · rw [Run.escapes_bind_pure_iff]
    exact not_escapes_decodeData s
  · rw [decodeString_of_isXml strict tag hxml, pure_bind]
    simp only [ofString_of_isXml hxml]
    exact Run.not_escapes_of_ok rfl
  · rw [decodeString_of_isXml strict tag hxml, pure_bind]
    simp only [ofKey_of_isXml hxml]
    exact Run.not_escapes_of_ok rfl
  · exact Run.not_escapes_of_ok rfl

/-- The text of a document breaks a reader of leaves in the two ways that were named, and in no
other. -/
theorem decode_escapes_iff (hxml : s.isXml = true) :
    (decode strict tag s).Escapes strict ↔ Breaks strict tag s := by
  by_cases hinteger : kindOfTag? tag = some .integer
  · have htag : tag = text "integer" := by
      simpa [tags] using mem_tags_of_kindOfTag? hinteger
    subst htag
    rw [breaks_integer_iff, decode, hinteger, Run.escapes_bind_pure_iff]
  · by_cases hreal : kindOfTag? tag = some .real
    · have htag : tag = text "real" := by
        simpa [tags] using mem_tags_of_kindOfTag? hreal
      subst htag
      rw [breaks_real_iff hxml, decode, hreal, Run.escapes_bind_pure_iff]
    · constructor
      · intro hescapes
        exact absurd hescapes (not_escapes_decode hxml hinteger hreal)
      · intro hbreaks
        rcases hbreaks.kindOfTag? with hkind | hkind
        · exact absurd hkind hinteger
        · exact absurd hkind hreal

end Leaf

end PropertyList
