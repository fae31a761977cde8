import PropertyList.Markup.NameClass
import PropertyList.Text.Blank

/-! Classes of characters as conditions on numbers, and the runs of a class that texts open with.
The texts of numbers, dates and bytes hold graphic ASCII characters only, which no reader trims. -/
namespace PropertyList

theorem isXmlChar_iff {c : Nat} : isXmlChar c = true ↔
    c = 0x9 ∨ c = 0xA ∨ c = 0xD ∨ (0x20 ≤ c ∧ c ≤ 0xD7FF) ∨
      (0xE000 ≤ c ∧ c ≤ 0xFFFD) ∨ (0x10000 ≤ c ∧ c ≤ 0x10FFFF) := by
  simp [isXmlChar, CodePoint, or_assoc]

theorem isSurrogate_iff {c : Nat} : isSurrogate c = true ↔ 0xD800 ≤ c ∧ c ≤ 0xDFFF := by
  simp [isSurrogate, CodePoint]

theorem isDigit_iff {c : Nat} : isDigit c = true ↔ 48 ≤ c ∧ c ≤ 57 := by
  simp [isDigit, CodePoint, ch]

theorem isBlank_iff {c : Nat} : isBlank c = true ↔
    (0x09 ≤ c ∧ c ≤ 0x0D) ∨ (0x1C ≤ c ∧ c ≤ 0x20) ∨ c = 0x85 ∨ c = 0xA0 ∨ c = 0x1680 ∨
      (0x2000 ≤ c ∧ c ≤ 0x200A) ∨ (0x2028 ≤ c ∧ c ≤ 0x2029) ∨ c = 0x202F ∨ c = 0x205F ∨
      c = 0x3000 := by
  simp [isBlank, inRanges, blankRanges]
  omega

theorem isSpace_iff {c : Nat} : Markup.isSpace c = true ↔ c = 0x20 ∨ c = 0x9 ∨ c = 0xA ∨ c = 0xD := by
  simp [Markup.isSpace, CodePoint, or_assoc]

theorem lowerAscii_eq {c : Nat} (h : c < 65 ∨ 90 < c) : lowerAscii c = c := by
  unfold lowerAscii
  rw [if_neg]
  simp only [Bool.and_eq_true, decide_eq_true_eq, not_and]
  change 65 ≤ c → ¬ c ≤ 90
  omega

/-- Two characters become the same small letter. -/
theorem lowerAscii_eq_iff {letter c : Nat} (h : 97 ≤ letter ∧ letter ≤ 122) :
    lowerAscii c = letter ↔ c = letter ∨ c = letter - 32 := by
  unfold lowerAscii
  simp only [CodePoint, ch, Bool.and_eq_true, decide_eq_true_eq]
  change (if 65 ≤ c ∧ c ≤ 90 then c + 32 else c) = letter ↔ c = letter ∨ c = letter - 32
  split <;> omega

/-- The characters between the space and the last control of ASCII. -/
def Text.IsGraphic (s : Text) : Prop := ∀ c : Nat, c ∈ s → 0x21 ≤ c ∧ c ≤ 0x7E

instance (s : Text) : Decidable s.IsGraphic := by unfold Text.IsGraphic; infer_instance

namespace Text

theorem isXml_append (s t : Text) : isXml (s ++ t) = (s.isXml && t.isXml) :=
  List.all_append

theorem IsGraphic.append {s t : Text} (hs : s.IsGraphic) (ht : t.IsGraphic) :
    IsGraphic (s ++ t) := by
  intro c hc
  rcases List.mem_append.mp hc with h | h
  · exact hs c h
  · exact ht c h

theorem IsGraphic.cons {c : Nat} {s : Text} (hc : 0x21 ≤ c ∧ c ≤ 0x7E) (hs : s.IsGraphic) :
    IsGraphic (c :: s) := by
  intro d hd
  rcases List.mem_cons.mp hd with rfl | h
  · exact hc
  · exact hs d h

theorem isGraphic_of_isDigit {s : Text} (h : ∀ c ∈ s, isDigit c = true) : s.IsGraphic := by
  intro c hc
  have := isDigit_iff.mp (h c hc)
  omega

theorem IsGraphic.isBlank_eq_false {s : Text} (h : s.IsGraphic) :
    ∀ c ∈ s, isBlank c = false := by
  intro c hc
  have := h c hc
  apply Bool.eq_false_iff.mpr
  intro hb
  have := isBlank_iff.mp hb
  omega

theorem IsGraphic.isXml {s : Text} (h : s.IsGraphic) : s.isXml = true := by
  apply List.all_eq_true.mpr
  intro c hc
  have := h c hc
  exact isXmlChar_iff.mpr (by omega)

end Text

section Runs

variable {α : Type} {p : α → Bool} {run : List α}

theorem takeWhile_run (h : ∀ c ∈ run, p c = true) {c : α} (hc : p c = false) (rest : List α) :
    (run ++ c :: rest).takeWhile p = run := by
  simp [List.takeWhile_append_of_pos h, hc]

theorem dropWhile_run (h : ∀ c ∈ run, p c = true) {c : α} (hc : p c = false) (rest : List α) :
    (run ++ c :: rest).dropWhile p = c :: rest := by
  simp [List.dropWhile_append_of_pos h, hc]

theorem takeWhile_of_all (h : ∀ c ∈ run, p c = true) : run.takeWhile p = run := by
  have happend : (run ++ []).takeWhile p = run ++ [].takeWhile p := List.takeWhile_append_of_pos h
  rwa [List.append_nil, List.takeWhile_nil, List.append_nil] at happend

theorem dropWhile_of_all (h : ∀ c ∈ run, p c = true) : run.dropWhile p = [] := by
  have happend : (run ++ []).dropWhile p = [].dropWhile p := List.dropWhile_append_of_pos h
  rwa [List.append_nil, List.dropWhile_nil] at happend

theorem takeWhile_of_none (h : ∀ c ∈ run, p c = false) : run.takeWhile p = [] := by
  cases run with
  | nil => rfl
  | cons c rest => simp [h c]

theorem dropWhile_of_none (h : ∀ c ∈ run, p c = false) : run.dropWhile p = run := by
  cases run with
  | nil => rfl
  | cons c rest => simp [h c]

end Runs

namespace Text

theorem trimLeft_of_not_blank {s : Text} (h : ∀ c ∈ s, isBlank c = false) : s.trimLeft = s :=
  dropWhile_of_none h

theorem trim_of_not_blank {s : Text} (h : ∀ c ∈ s, isBlank c = false) : s.trim = s := by
  have hr : ∀ c ∈ s.reverse, isBlank c = false := fun c hc => h c (List.mem_reverse.mp hc)
  rw [trim, trimLeft_of_not_blank h, trimRight, dropWhile_of_none hr, List.reverse_reverse]

end Text

end PropertyList
