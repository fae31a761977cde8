import Mathlib.Data.List.Forall2
import PropertyList.Leaf.Real
import PropertyList.Proofs.Leaf.Signed

/-! The real at the front of a text. Blanks behind a real end every part of it, so that a reader
finds the same number in front of them and leaves them over. -/
namespace PropertyList

namespace RealFront

variable {blanks : Text}

/-- The front with more behind it. -/
def extend (more : Text) (front : RealFront) : RealFront := ⟨front.value, front.rest ++ more⟩

/-- What is neither the letter itself nor a capital nor a Turkish letter does not pass. -/
theorem passesAs_eq_false {letter c : Nat} (hcapital : c < 65 ∨ 90 < c) (hletter : c ≠ letter)
    (hturkish : c ≠ 0x130 ∧ c ≠ 0x131) : passesAs letter c = false := by
  have hplain : (c == letter) = false := beq_eq_false_iff_ne.mpr hletter
  have hforeign : turkishLetters.contains c = false := by
    simp only [turkishLetters, List.contains_cons, List.contains_nil, Bool.or_false,
      Bool.or_eq_false_iff, beq_eq_false_iff_ne]
    exact hturkish
  rw [passesAs, lowerAscii_eq hcapital, hplain, hforeign, Bool.and_false, Bool.or_false]

theorem passesAs_of_isDigit {letter c : Nat} (h : isDigit c = true) (hletter : 58 ≤ letter) :
    passesAs letter c = false := by
  have hdigit := isDigit_iff.mp h
  exact passesAs_eq_false (by omega) (by omega) (by omega)

theorem passesAs_of_isBlank {letter c : Nat} (h : isBlank c = true)
    (hletter : 0x21 ≤ letter ∧ letter ≤ 0x7E) : passesAs letter c = false := by
  have hblank := isBlank_iff.mp h
  exact passesAs_eq_false (by omega) (by omega) (by omega)

/-- Whether a text passes as a word. -/
abbrev Spells (word s : Text) : Prop :=
  List.Forall₂ (fun letter c => passesAs letter c = true) word s

/-- No letter but the letter i is spelt otherwise than in ASCII. -/
theorem Spells.le_of_mem {word s : Text} (h : Spells word s)
    (hword : ∀ letter ∈ word, letter ≤ 0x7F ∧ letter ≠ ch 'i') {c : Nat} (hc : c ∈ s) :
    c ≤ 0x7F := by
  induction h with
  | nil => cases hc
  | @cons letter d word s hpass _ ih =>
    rcases List.mem_cons.mp hc with rfl | hmore
    · obtain ⟨hletter, hplain⟩ := hword letter (by simp)
      have hi : (letter == ch 'i') = false := beq_eq_false_iff_ne.mpr hplain
      rw [passesAs, hi, Bool.false_and, Bool.or_false, beq_iff_eq, lowerAscii] at hpass
      split at hpass
      · rename_i hcapital
        simp only [Bool.and_eq_true, decide_eq_true_eq] at hcapital
        exact Nat.le_trans hcapital.2 (by decide)
      · rw [hpass]
        exact hletter
    · exact ih (fun l hl => hword l (by simp [hl])) hmore

theorem afterWord?_of_spells {word name : Text} (h : Spells word name) (more rest : Text) :
    afterWord? (word ++ more) (name ++ rest) = afterWord? more rest := by
  induction h with
  | nil => rfl
  | cons hpass _ ih =>
    rw [List.cons_append, List.cons_append, afterWord?, if_pos hpass, ih]

theorem afterWord?_eq_some_iff {word s rest : Text} :
    afterWord? word s = some rest ↔ ∃ name, s = name ++ rest ∧ Spells word name := by
  constructor
  · intro h
    induction word generalizing s with
    | nil =>
      cases h
      exact ⟨[], rfl, .nil⟩
    | cons letter word ih =>
      cases s with
      | nil => cases h
      | cons c s =>
        rw [afterWord?] at h
        split at h
        · rename_i hpass
          obtain ⟨name, rfl, hname⟩ := ih h
          exact ⟨c :: name, rfl, .cons hpass hname⟩
        · cases h
  · rintro ⟨name, rfl, hname⟩
    have hall := afterWord?_of_spells hname [] rest
    rw [List.append_nil] at hall
    rw [hall, afterWord?]

theorem afterWord?_append (h : blanks.IsBlank) {word : Text} (hword : word.IsGraphic) (s : Text) :
    afterWord? word (s ++ blanks) = (afterWord? word s).map (· ++ blanks) := by
  induction word generalizing s with
  | nil => simp [afterWord?]
  | cons letter word ih =>
    cases s with
    | nil =>
      cases blanks with
      | nil => simp [afterWord?]
      | cons c rest =>
        have hpass := passesAs_of_isBlank (h c (by simp)) (hword letter (by simp))
        simp [afterWord?, hpass]
    | cons c rest =>
      have hrest := ih (fun d hd => hword d (by simp [hd])) rest
      simp only [List.cons_append, afterWord?, hrest]
      split <;> rfl

theorem names_isGraphic (negative : Bool) : ∀ entry ∈ names negative, Text.IsGraphic entry.1 := by
  cases negative <;> decide

/-- An entry of the names at the front of a text. -/
def nameFront? (s : Text) (entry : Text × Binary64) : Option RealFront :=
  (afterWord? entry.1 s).map fun rest =>
    ⟨if (s.take entry.1.length).all (· ≤ 0x7F) then some entry.2 else none, rest⟩

theorem named?_eq (negative : Bool) (s : Text) :
    named? negative s = (names negative).findSome? (nameFront? s) := rfl

theorem nameFront?_of_spells {name : Text} {entry : Text × Binary64} (h : Spells entry.1 name)
    (rest : Text) :
    nameFront? (name ++ rest) entry =
      some ⟨if name.all (· ≤ 0x7F) then some entry.2 else none, rest⟩ := by
  have hread : afterWord? entry.1 (name ++ rest) = some rest :=
    afterWord?_eq_some_iff.mpr ⟨name, rfl, h⟩
  rw [nameFront?, hread, Option.map_some, h.length_eq, List.take_left]

/-- An entry denotes no number at the front of a text just if it is not spelt in ASCII there. -/
theorem nameFront?_eq_none_iff {entry : Text × Binary64} {s rest : Text} :
    nameFront? s entry = some ⟨none, rest⟩ ↔
      ∃ name, s = name ++ rest ∧ Spells entry.1 name ∧ ∃ c ∈ name, 0x7F < c := by
  constructor
  · intro h
    obtain ⟨found, hfound, -⟩ := Option.map_eq_some_iff.mp h
    obtain ⟨name, rfl, hname⟩ := afterWord?_eq_some_iff.mp hfound
    rw [nameFront?_of_spells hname, Option.some.injEq, RealFront.mk.injEq] at h
    obtain ⟨hvalue, rfl⟩ := h
    have hall : name.all (· ≤ 0x7F) = false := by
      cases hascii : name.all (· ≤ 0x7F) with
      | true => simp [hascii] at hvalue
      | false => rfl
    obtain ⟨c, hc, hforeign⟩ := List.all_eq_false.mp hall
    exact ⟨name, rfl, hname, c, hc, by simpa using hforeign⟩
  · rintro ⟨name, rfl, hname, c, hc, hforeign⟩
    have hall : name.all (· ≤ 0x7F) = false := by
      apply List.all_eq_false.mpr
      exact ⟨c, hc, by simpa using hforeign⟩
    rw [nameFront?_of_spells hname, hall]
    rfl

theorem nameFront?_append (h : blanks.IsBlank) (s : Text) {entry : Text × Binary64}
    (hentry : entry.1.IsGraphic) :
    nameFront? (s ++ blanks) entry = (nameFront? s entry).map (extend blanks) := by
  cases hrest : afterWord? entry.1 s with
  | none => simp [nameFront?, afterWord?_append h hentry, hrest]
  | some rest =>
    obtain ⟨name, rfl, hname⟩ := afterWord?_eq_some_iff.mp hrest
    rw [List.append_assoc, nameFront?_of_spells hname, nameFront?_of_spells hname]
    rfl

theorem named?_append (h : blanks.IsBlank) (negative : Bool) (s : Text) :
    named? negative (s ++ blanks) = (named? negative s).map (extend blanks) := by
  have hall (entries : List (Text × Binary64)) (hentries : ∀ entry ∈ entries, entry.1.IsGraphic) :
      entries.findSome? (nameFront? (s ++ blanks)) =
        (entries.findSome? (nameFront? s)).map (extend blanks) := by
    induction entries with
    | nil => rfl
    | cons entry entries ih =>
      have hentry := nameFront?_append h s (hentries entry (by simp))
      rw [List.findSome?_cons, List.findSome?_cons, hentry, ih fun e he => hentries e (by simp [he])]
      cases nameFront? s entry <;> rfl
  rw [named?_eq, named?_eq, hall (names negative) (names_isGraphic negative)]

theorem places_append (h : blanks.IsBlank) (s : Text) :
    places (s ++ blanks) = ((places s).1, (places s).2 ++ blanks) := by
  cases s with
  | nil =>
    cases blanks with
    | nil => rfl
    | cons c rest =>
      have hpoint : c ≠ ch '.' := ne_of_isBlank (h c (by simp)) (by decide)
      simp [places, hpoint]
  | cons c rest =>
    rw [List.cons_append, places, places]
    split
    · rw [h.takeWhile, h.dropWhile]
    · rfl

theorem exponent_append (h : blanks.IsBlank) (s : Text) :
    exponent (s ++ blanks) = ((exponent s).1, (exponent s).2 ++ blanks) := by
  cases s with
  | nil =>
    cases blanks with
    | nil => rfl
    | cons c rest =>
      have hc := h c (by simp)
      have he : lowerAscii c ≠ ch 'e' := by
        rw [lowerAscii_of_isBlank hc]
        exact ne_of_isBlank hc (by decide)
      simp [exponent, he]
  | cons e rest =>
    simp only [List.cons_append, exponent, h.splitSign, h.head?, h.takeWhile, h.dropWhile]
    split <;> rfl

theorem decimal?_append (h : blanks.IsBlank) (negative : Bool) (s : Text) :
    decimal? negative (s ++ blanks) = (decimal? negative s).map (extend blanks) := by
  simp only [decimal?, h.takeWhile, h.dropWhile, places_append h, exponent_append h]
  split <;> rfl

/-- A text that holds nothing but blanks opens with no real. -/
theorem ofText?_of_trimLeft_eq_nil {s : Text} (h : s.trimLeft = []) : ofText? s = none := by
  rw [ofText?, h]
  rfl

/-- Blanks behind a text stay behind the real at its front. -/
theorem ofText?_append (h : blanks.IsBlank) (s : Text) :
    ofText? (s ++ blanks) = (ofText? s).map (extend blanks) := by
  by_cases hs : s.trimLeft = []
  · have hall : (s ++ blanks).trimLeft = [] := by
      rw [Text.trimLeft, List.dropWhile_append, if_pos (by simpa [Text.trimLeft] using hs)]
      exact dropWhile_of_all h
    rw [ofText?_of_trimLeft_eq_nil hs, ofText?_of_trimLeft_eq_nil hall, Option.map_none]
  · simp only [ofText?, Text.trimLeft_append blanks hs, h.splitSign, named?_append h,
      decimal?_append h]
    cases named? (splitSign s.trimLeft).1 (splitSign s.trimLeft).2 <;> rfl

/-- Trimming a text takes blanks off behind the real at its front, and nothing else. -/
theorem exists_ofText?_trim (s : Text) :
    ∃ blanks : Text, blanks.IsBlank ∧ ofText? s = (ofText? s.trim).map (extend blanks) := by
  obtain ⟨blanks, hblanks, hs⟩ := Text.exists_trimRight s.trimLeft
  refine ⟨blanks, hblanks, ?_⟩
  have hleft : ofText? s = ofText? s.trimLeft := by
    rw [ofText?, ofText?, Text.trimLeft_trimLeft]
  rw [hleft, hs, ofText?_append hblanks, Text.trim]

end RealFront

end PropertyList
