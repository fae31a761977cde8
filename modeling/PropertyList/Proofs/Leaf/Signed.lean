import Mathlib.Data.List.TakeWhile
import PropertyList.Leaf.Integer
import PropertyList.Proofs.Text.Classes

/-! Blanks around numbers, and their signs. Blanks end every numeral, so that a reader who passes
over those in front finds the same behind them, whatever blanks follow. -/
namespace PropertyList

/-- Whether a text holds nothing but blanks. -/
def Text.IsBlank (s : Text) : Prop := ∀ c ∈ s, isBlank c = true

instance (s : Text) : Decidable s.IsBlank :=
  inferInstanceAs (Decidable (∀ c ∈ s, isBlank c = true))

section Blanks

variable {c : Nat}

theorem isDigit_of_isBlank (h : isBlank c = true) : isDigit c = false := by
  have hblank := isBlank_iff.mp h
  apply Bool.eq_false_iff.mpr
  intro hdigit
  have := isDigit_iff.mp hdigit
  omega

theorem lowerAscii_of_isBlank (h : isBlank c = true) : lowerAscii c = c := by
  have hblank := isBlank_iff.mp h
  exact lowerAscii_eq (by omega)

/-- No graphic character is a blank. -/
theorem ne_of_isBlank (h : isBlank c = true) {d : Nat} (hd : 0x21 ≤ d ∧ d ≤ 0x7E) : c ≠ d := by
  have hblank := isBlank_iff.mp h
  omega

theorem splitSign_of_ne (hminus : c ≠ ch '-') (hplus : c ≠ ch '+') (rest : Text) :
    splitSign (c :: rest) = (false, c :: rest) := by
  rw [splitSign, if_neg hminus, if_neg hplus]

theorem splitSign_of_isDigit (h : isDigit c = true) (rest : Text) :
    splitSign (c :: rest) = (false, c :: rest) := by
  have hdigit := isDigit_iff.mp h
  apply splitSign_of_ne
  · change c ≠ 45
    omega
  · change c ≠ 43
    omega

theorem splitSign_of_isBlank (h : isBlank c = true) (rest : Text) :
    splitSign (c :: rest) = (false, c :: rest) :=
  splitSign_of_ne (ne_of_isBlank h (by decide)) (ne_of_isBlank h (by decide)) rest

end Blanks

namespace Text

variable {blanks : Text}

theorem IsBlank.takeWhile (h : blanks.IsBlank) (s : Text) :
    (s ++ blanks).takeWhile isDigit = s.takeWhile isDigit := by
  induction s with
  | nil => exact takeWhile_of_none fun c hc => isDigit_of_isBlank (h c hc)
  | cons c rest ih =>
    rw [List.cons_append, List.takeWhile_cons, List.takeWhile_cons, ih]

theorem IsBlank.dropWhile (h : blanks.IsBlank) (s : Text) :
    (s ++ blanks).dropWhile isDigit = s.dropWhile isDigit ++ blanks := by
  induction s with
  | nil => exact dropWhile_of_none fun c hc => isDigit_of_isBlank (h c hc)
  | cons c rest ih =>
    rw [List.cons_append, List.dropWhile_cons, List.dropWhile_cons, ih]
    split <;> rfl

theorem IsBlank.head? (h : blanks.IsBlank) (s : Text) :
    (s ++ blanks).head?.any isDigit = s.head?.any isDigit := by
  cases s with
  | nil =>
    cases blanks with
    | nil => rfl
    | cons c rest => exact isDigit_of_isBlank (h c (by simp))
  | cons c rest => rfl

theorem IsBlank.splitSign (h : blanks.IsBlank) (s : Text) :
    splitSign (s ++ blanks) = ((splitSign s).1, (splitSign s).2 ++ blanks) := by
  cases s with
  | nil =>
    cases blanks with
    | nil => rfl
    | cons c rest => exact splitSign_of_isBlank (h c (by simp)) rest
  | cons c rest =>
    rw [List.cons_append, PropertyList.splitSign, PropertyList.splitSign]
    split
    · rfl
    · split <;> rfl

theorem trimLeft_append (blanks : Text) {s : Text} (hs : s.trimLeft ≠ []) :
    (s ++ blanks).trimLeft = s.trimLeft ++ blanks := by
  unfold trimLeft at hs ⊢
  rw [List.dropWhile_append, if_neg (by simpa using hs)]

/-- What is trimmed off the end of a text are blanks. -/
theorem exists_trimRight (s : Text) : ∃ blanks, IsBlank blanks ∧ s = s.trimRight ++ blanks := by
  refine ⟨(s.reverse.takeWhile isBlank).reverse, ?_, ?_⟩
  · intro c hc
    exact List.mem_takeWhile_imp (List.mem_reverse.mp hc)
  · rw [trimRight, ← List.reverse_append, List.takeWhile_append_dropWhile, List.reverse_reverse]

/-- Behind the blanks in front of a text comes no blank. -/
theorem isBlank_of_trimLeft {s rest : Text} {c : CodePoint} (h : s.trimLeft = c :: rest) :
    isBlank c = false := by
  have hhead := List.head?_dropWhile_not isBlank s
  rw [← trimLeft, h] at hhead
  simpa using hhead

theorem trimLeft_trimLeft (s : Text) : s.trimLeft.trimLeft = s.trimLeft := by
  cases h : s.trimLeft with
  | nil => rfl
  | cons c rest => simp [trimLeft, isBlank_of_trimLeft h]

theorem trimLeft_trim (s : Text) : s.trim.trimLeft = s.trim := by
  obtain ⟨blanks, -, hleft⟩ := exists_trimRight s.trimLeft
  rw [← trim] at hleft
  cases htrim : s.trim with
  | nil => rfl
  | cons c rest =>
    rw [htrim] at hleft
    simp [trimLeft, isBlank_of_trimLeft hleft]

end Text

/-- The signs of numbers; none is one of them. -/
def signs : List Text := [[], text "+", text "-"]

namespace Text

/-- Whether a text opens with blanks, a sign and a core, with the rest behind them. -/
structure Opens (s sign core rest : Text) : Prop where
  isSign : sign ∈ signs
  eq : ∃ blanks : Text, blanks.IsBlank ∧ s = blanks ++ (sign ++ (core ++ rest))

theorem trimLeft_blanks {blanks : Text} (h : blanks.IsBlank) {c : CodePoint} (hc : isBlank c = false)
    (rest : Text) : trimLeft (blanks ++ c :: rest) = c :: rest :=
  dropWhile_run h hc rest

/-- Blanks and sign are told apart from a core that opens with neither. -/
theorem Opens.splitSign {s sign rest : Text} {c : CodePoint} {core : Text}
    (h : s.Opens sign (c :: core) rest) (hblank : isBlank c = false)
    (hplain : ∀ more, PropertyList.splitSign (c :: more) = (false, c :: more)) :
    splitSign s.trimLeft = (sign == text "-", c :: core ++ rest) := by
  obtain ⟨hsign, blanks, hblanks, rfl⟩ := h
  simp only [signs, List.mem_cons, List.not_mem_nil, or_false] at hsign
  rcases hsign with rfl | rfl | rfl
  · have htrim := trimLeft_blanks hblanks hblank (core ++ rest)
    rw [List.nil_append, List.cons_append, htrim]
    exact hplain (core ++ rest)
  · have htrim := trimLeft_blanks hblanks (show isBlank (ch '+') = false by decide)
      (c :: core ++ rest)
    exact congrArg PropertyList.splitSign htrim
  · have htrim := trimLeft_blanks hblanks (show isBlank (ch '-') = false by decide)
      (c :: core ++ rest)
    exact congrArg PropertyList.splitSign htrim

theorem exists_sign (s : Text) :
    ∃ sign ∈ signs, (sign == text "-") = (splitSign s).1 ∧ s = sign ++ (splitSign s).2 := by
  cases s with
  | nil => exact ⟨[], by decide, by decide, rfl⟩
  | cons c rest =>
    by_cases hminus : c = ch '-'
    · subst hminus
      exact ⟨text "-", by decide, rfl, rfl⟩
    · by_cases hplus : c = ch '+'
      · subst hplus
        exact ⟨text "+", by decide, rfl, rfl⟩
      · rw [splitSign_of_ne hminus hplus]
        exact ⟨[], by decide, rfl, rfl⟩

/-- Every text opens with blanks and a sign. -/
theorem exists_opens {s core rest : Text} {negative : Bool}
    (h : PropertyList.splitSign s.trimLeft = (negative, core ++ rest)) :
    ∃ sign, (sign == text "-") = negative ∧ s.Opens sign core rest := by
  obtain ⟨sign, hsign, hnegative, heq⟩ := exists_sign s.trimLeft
  rw [h] at hnegative heq
  refine ⟨sign, hnegative, hsign, s.takeWhile isBlank, ?_, ?_⟩
  · intro c hc
    exact List.mem_takeWhile_imp hc
  · rw [← heq, trimLeft, List.takeWhile_append_dropWhile]

/-- No blanks stand at the end of a text that was trimmed. -/
theorem eq_nil_of_trim_eq_append {s front blanks : Text} (hblanks : blanks.IsBlank)
    (h : s.trim = front ++ blanks) : blanks = [] := by
  cases hlast : blanks.reverse with
  | nil => exact List.reverse_eq_nil_iff.mp hlast
  | cons c rest =>
    have hc : isBlank c = true := by
      apply hblanks
      rw [← List.mem_reverse, hlast]
      exact List.mem_cons_self
    have hhead := List.head?_dropWhile_not isBlank s.trimLeft.reverse
    have hreverse : s.trimLeft.reverse.dropWhile isBlank = c :: (rest ++ front.reverse) := by
      rw [← List.cons_append, ← hlast, ← List.reverse_append, ← h, trim, trimRight,
        List.reverse_reverse]
    rw [hreverse] at hhead
    simp [hc] at hhead

end Text

end PropertyList
