import Mathlib.Tactic.SplitIfs
import PropertyList.Proofs.Leaf.Data

/-! Characters outside the alphabet of Base64. A tolerant reader passes over all of them in ASCII,
wherever they stand among the groups and the padding, and over all blanks. One other character is
enough for it to read nothing at all. -/
namespace PropertyList

namespace Base64

variable {c : Nat}

/-- The characters that stand for six bits each. -/
def isCode (c : CodePoint) : Bool := isLetter c || isDigit c || c == ch '+' || c == ch '/'

/-- The characters that Base64 is written with. -/
def isSymbol (c : CodePoint) : Bool := isCode c || c == pad

theorem isCode_iff : isCode c = true ↔
    (65 ≤ c ∧ c ≤ 90) ∨ (97 ≤ c ∧ c ≤ 122) ∨ (48 ≤ c ∧ c ≤ 57) ∨ c = 43 ∨ c = 47 := by
  simp [isCode, isLetter, isDigit, CodePoint, ch, or_assoc]

theorem isSome_bits? (c : Nat) : (bits? c).isSome = isCode c := by
  rw [Bool.eq_iff_iff, isCode_iff]
  simp only [bits?, CodePoint, ch, Char.reduceToNat, Bool.and_eq_true, decide_eq_true_eq]
  split_ifs <;> simp only [Option.isSome_some, Option.isSome_none, Bool.false_eq_true, true_iff,
    false_iff] <;> omega

theorem isSymbol_bounds (h : isSymbol c = true) : 0x21 ≤ c ∧ c ≤ 0x7E := by
  rw [isSymbol, Bool.or_eq_true, isCode_iff, beq_iff_eq] at h
  change _ ∨ c = 61 at h
  omega

/-- The characters of a text that Base64 is written with. -/
def symbols (s : Text) : Text := s.filter isSymbol

theorem symbols_isGraphic (s : Text) : (symbols s).IsGraphic :=
  fun _ hc => isSymbol_bounds (List.mem_filter.mp hc).2

theorem symbols_compact (s : Text) : symbols s.compact = symbols s := by
  rw [symbols, Text.compact, List.filter_filter]
  apply List.filter_congr
  intro c _
  by_cases hc : isSymbol c = true
  · have hblank : isBlank c = false :=
      Text.IsGraphic.isBlank_eq_false (s := [c]) (by simpa [Text.IsGraphic] using isSymbol_bounds hc) c
        (by simp)
    simp [hc, hblank]
  · simp [hc]

/-- What is not in the alphabet leaves a tolerant reader where it stands. -/
theorem readOn_stray (state : State) (h : isSymbol c = false) (rest : Text) :
    readOn false state (c :: rest) = readOn false state rest := by
  rw [isSymbol, Bool.or_eq_false_iff, beq_eq_false_iff_ne] at h
  have hbits : bits? c = none := by
    rw [← Option.isNone_iff_eq_none, ← Option.not_isSome, isSome_bits?, h.1]
    rfl
  simp [readOn, h.2, hbits]

/-- A tolerant reader comes to the same end without the characters that are not in the alphabet. -/
theorem readOn_symbols (state : State) (s : Text) :
    readOn false state (symbols s) = readOn false state s := by
  induction s generalizing state with
  | nil => rfl
  | cons c rest ih =>
    by_cases hc : isSymbol c = true
    · rw [symbols, List.filter_cons_of_pos hc, ← symbols, readOn, readOn]
      simp only [Bool.false_and, Bool.false_eq_true, if_false, ih]
    · rw [symbols, List.filter_cons_of_neg hc, ← symbols, ih,
        readOn_stray state (Bool.eq_false_iff.mpr hc)]

/-- A tolerant reader of a text in ASCII needs only the characters of the alphabet. -/
theorem decode_symbols {s : Text} (h : ∀ c ∈ s, c ≤ 0x7F) :
    decode false (symbols s) = decode false s := by
  have hascii {t : Text} (ht : ∀ c ∈ t, c ≤ 0x7F) : decode false t = readOn false .start t := by
    have hany : t.any (0x7F < ·) = false := by simpa using ht
    simp [decode, hany]
  have hsymbols : ∀ c ∈ symbols s, c ≤ 0x7F := fun c hc => h c (List.mem_filter.mp hc).1
  rw [hascii h, hascii hsymbols, readOn_symbols]

end Base64

/-- Whether a text holds a character beyond ASCII that is no blank. -/
def Text.HoldsForeign (s : Text) : Prop := ∃ c ∈ s, 0x7F < c ∧ isBlank c = false

instance (s : Text) : Decidable s.HoldsForeign :=
  inferInstanceAs (Decidable (∃ c ∈ s, 0x7F < c ∧ isBlank c = false))

theorem Text.holdsForeign_iff {s : Text} : s.HoldsForeign ↔ s.compact.any (0x7F < ·) = true := by
  simp [Text.HoldsForeign, Text.compact, and_comm]

open Base64

theorem decodeData_symbols {s : Text} (h : ¬ s.HoldsForeign) :
    decodeData false (symbols s) = decodeData false s := by
  have hascii : ∀ c ∈ s.compact, c ≤ 0x7F := by simpa [Text.holdsForeign_iff] using h
  have hread : decode false (symbols s).compact = decode false s.compact := by
    rw [Text.compact_of_not_blank (symbols_isGraphic s).isBlank_eq_false, ← symbols_compact,
      decode_symbols hascii]
  simp [decodeData, hread]

theorem decodeData_of_holdsForeign {s : Text} (h : s.HoldsForeign) :
    decodeData false s = Run.noting .notBase64 [] := by
  have hfault : decode false s.compact = .error .notAscii := by
    rw [decode, if_pos (Text.holdsForeign_iff.mp h)]
  simp [decodeData, hfault]

/-- A lenient reader sees of a text only the characters of the alphabet and the padding, unless one
beyond ASCII that is no blank stands anywhere in it, which leaves no bytes. So the two agree on the
bytes just if there is no such character, or no bytes are to be had. -/
theorem decodeData_lenient_eq (s : Text) :
    decodeData false s =
        (if s.HoldsForeign then Run.noting .notBase64 [] else decodeData false (symbols s)) ∧
      ((decodeData false s).outcome = (decodeData false (symbols s)).outcome ↔
        ¬ s.HoldsForeign ∨ (decodeData false (symbols s)).outcome = .ok []) := by
  by_cases h : s.HoldsForeign
  · rw [if_pos h, decodeData_of_holdsForeign h, Run.outcome_noting]
    exact ⟨rfl, by simp [h, eq_comm]⟩
  · rw [if_neg h, decodeData_symbols h]
    exact ⟨rfl, by simp [h]⟩

example : decodeData false (text "A*Q=\x00=") = pure [1] := by rfl

/-- One accent behind a byte that is complete. -/
example : decodeData false (text "AQ==é") = Run.noting .notBase64 [] := by rfl

end PropertyList
