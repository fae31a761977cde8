import Mathlib.Data.Int.Notation
import Mathlib.Data.Nat.Notation
import Mathlib.Logic.ExistsUnique
import PropertyList.Proofs.Leaf.Data

/-! The lines of a block. There is one way only to cut a text into lines that are full but for the
last, and a block puts just these lines behind the indentation. -/
namespace PropertyList

namespace Text

/-- Lines that hold something and that are full, but for the last. -/
structure IsWrapped (columns : ℕ) (lines : List Text) : Prop where
  ne_nil : ∀ line ∈ lines, line ≠ []
  full : ∀ line ∈ lines.dropLast, line.length = columns
  last : ∀ line ∈ lines.getLast?, line.length ≤ columns

theorem isWrapped_nil (columns : ℕ) : IsWrapped columns [] := by
  constructor <;> simp

/-- A line in front of others is full; in front of none it need not be. -/
theorem isWrapped_cons_iff {columns : ℕ} {line : Text} {lines : List Text} :
    IsWrapped columns (line :: lines) ↔
      line ≠ [] ∧ line.length ≤ columns ∧ (lines ≠ [] → line.length = columns) ∧
        IsWrapped columns lines := by
  cases lines with
  | nil =>
    constructor
    · intro h
      exact ⟨h.ne_nil line (by simp), h.last line (by simp), by simp, isWrapped_nil columns⟩
    · rintro ⟨hne, hle, -, -⟩
      exact ⟨by simpa using hne, by simp, by simpa using hle⟩
  | cons next lines =>
    constructor
    · intro h
      have hfull : line.length = columns := h.full line (by simp)
      refine ⟨h.ne_nil line (by simp), Nat.le_of_eq hfull, fun _ => hfull, ?_, ?_, ?_⟩
      · exact fun other hmem => h.ne_nil other (List.mem_cons_of_mem _ hmem)
      · intro other hmem
        exact h.full other (by rw [List.dropLast_cons_cons]; exact List.mem_cons_of_mem _ hmem)
      · exact fun other hmem => h.last other (by rwa [List.getLast?_cons_cons])
    · rintro ⟨hne, -, hfull, hlines⟩
      refine ⟨?_, ?_, ?_⟩
      · intro other hmem
        rcases List.mem_cons.mp hmem with rfl | hmem
        · exact hne
        · exact hlines.ne_nil other hmem
      · intro other hmem
        rw [List.dropLast_cons_cons] at hmem
        rcases List.mem_cons.mp hmem with rfl | hmem
        · exact hfull (List.cons_ne_nil _ _)
        · exact hlines.full other hmem
      · intro other hmem
        rw [List.getLast?_cons_cons] at hmem
        exact hlines.last other hmem

theorem linesUpTo_eq_nil {columns count : ℕ} {s : Text} (h : s = []) :
    linesUpTo columns count s = [] := by
  rw [h]
  cases count <;> rfl

theorem linesUpTo_succ {columns count : ℕ} {s : Text} (h : s ≠ []) :
    linesUpTo columns (count + 1) s =
      s.take columns :: linesUpTo columns count (s.drop columns) := by
  cases s with
  | nil => contradiction
  | cons c rest => rfl

theorem isWrapped_linesUpTo {columns : ℕ} (hcolumns : 1 ≤ columns) (count : ℕ) (s : Text) :
    IsWrapped columns (linesUpTo columns count s) := by
  induction count generalizing s with
  | zero => exact isWrapped_nil columns
  | succ count ih =>
    by_cases hs : s = []
    · rw [linesUpTo_eq_nil hs]
      exact isWrapped_nil columns
    · rw [linesUpTo_succ hs, isWrapped_cons_iff]
      refine ⟨?_, by rw [List.length_take]; omega, ?_, ih (s.drop columns)⟩
      · rw [Ne, List.take_eq_nil_iff]
        rintro (hnone | hnil)
        · omega
        · exact hs hnil
      · -- a line comes after this one only if the text goes on behind it
        intro hmore
        have hdrop : s.drop columns ≠ [] := fun hnil => hmore (linesUpTo_eq_nil hnil)
        rw [Ne, List.drop_eq_nil_iff] at hdrop
        rw [List.length_take]
        omega

/-- Lines that are full but for the last are what a text is cut into. The induction is on the lines:
taking a line's worth of characters off the text takes off the first of them. -/
theorem IsWrapped.linesUpTo_flatten {columns count : ℕ} {lines : List Text}
    (h : IsWrapped columns lines) (hcount : lines.length ≤ count) :
    linesUpTo columns count lines.flatten = lines := by
  induction lines generalizing count with
  | nil => exact linesUpTo_eq_nil rfl
  | cons line lines ih =>
    obtain ⟨hne, hle, hfull, hlines⟩ := isWrapped_cons_iff.mp h
    obtain ⟨count, rfl⟩ : ∃ smaller, count = smaller + 1 :=
      Nat.exists_eq_add_of_le' (Nat.le_trans (by simp) hcount)
    have hcount : lines.length ≤ count := Nat.le_of_succ_le_succ hcount
    have hflatten : (line :: lines).flatten ≠ [] := by
      rw [List.flatten_cons]
      exact List.append_ne_nil_of_left_ne_nil hne _
    have hsplit : (line :: lines).flatten.take columns = line ∧
        (line :: lines).flatten.drop columns = lines.flatten := by
      rw [List.flatten_cons]
      by_cases hmore : lines = []
      · rw [hmore, List.flatten_nil, List.append_nil]
        exact ⟨List.take_of_length_le hle, List.drop_of_length_le hle⟩
      · exact ⟨List.take_left' (hfull hmore), List.drop_left' (hfull hmore)⟩
    rw [linesUpTo_succ hflatten, hsplit.1, hsplit.2, ih hlines hcount]

theorem IsWrapped.length_le_length_flatten {columns : ℕ} {lines : List Text}
    (h : IsWrapped columns lines) : lines.length ≤ lines.flatten.length := by
  induction lines with
  | nil => exact Nat.le_refl _
  | cons line lines ih =>
    obtain ⟨hne, -, -, hlines⟩ := isWrapped_cons_iff.mp h
    have hline := List.length_pos_iff.mpr hne
    have hrest := ih hlines
    rw [List.flatten_cons, List.length_append, List.length_cons]
    omega

/-- The lines of a text are the only ones that make it up and that are full but for the last. -/
theorem lines_eq_iff {columns : ℕ} (hcolumns : 1 ≤ columns) {s : Text} {lines : List Text} :
    s.lines columns = lines ↔ lines.flatten = s ∧ IsWrapped columns lines := by
  constructor
  · rintro rfl
    exact ⟨flatten_linesUpTo hcolumns (Nat.le_refl _), isWrapped_linesUpTo hcolumns _ s⟩
  · rintro ⟨rfl, hwrapped⟩
    exact hwrapped.linesUpTo_flatten hwrapped.length_le_length_flatten

end Text

/-- A text is cut in one way into lines that hold something and are full but for the last, and its
block is these lines in their order, each behind a line break and the tabs, with a line break and the
tabs at the end. So many tabs that no text could hold them make no block. -/
theorem blockOf_eq_of_isWrapped (s : Text) {depth columns : ℤ} (hdepth : 0 ≤ depth)
    (hcolumns : 1 ≤ columns) :
    (∃! lines : List Text, lines.flatten = s ∧ Text.IsWrapped columns.toNat lines) ∧
      ∀ lines : List Text, lines.flatten = s → Text.IsWrapped columns.toNat lines →
        blockOf s depth columns =
          if depth < wordBound then
            .ok ((lines.flatMap fun line =>
              ch '\n' :: List.replicate depth.toNat (ch '\t') ++ line) ++
                ch '\n' :: List.replicate depth.toNat (ch '\t'))
          else .error .hugeDepth := by
  have hwidth : 1 ≤ columns.toNat := by omega
  constructor
  · refine ⟨s.lines columns.toNat, (Text.lines_eq_iff hwidth).mp rfl, ?_⟩
    intro lines hlines
    exact ((Text.lines_eq_iff hwidth).mpr hlines).symm
  · intro lines hflatten hwrapped
    have hfits : fitsWord depth = decide (depth < wordBound) := by
      have hlow : -wordBound ≤ depth := Int.le_trans (by decide) hdepth
      rw [fitsWord, decide_eq_true hlow, Bool.true_and]
    have hlines := (Text.lines_eq_iff hwidth).mpr ⟨hflatten, hwrapped⟩
    rw [blockOf, if_neg (by omega), if_neg (by omega), hfits, Text.block, hlines]
    by_cases hsmall : depth < wordBound
    · rw [decide_eq_true hsmall, if_pos hsmall]
      rfl
    · rw [decide_eq_false hsmall, if_neg hsmall]
      rfl

/-- Five characters at a width of two: two full lines, and the last character on its own. -/
theorem blockOf_five_characters :
    Text.IsWrapped 2 [text "ab", text "cd", text "e"] ∧
      blockOf (text "abcde") 1 2 = .ok (text "\n\tab\n\tcd\n\te\n\t") := by
  have hwrapped : Text.IsWrapped 2 [text "ab", text "cd", text "e"] := by
    simp only [Text.isWrapped_cons_iff]
    exact ⟨by decide, by decide, by decide, by decide, by decide, by decide, by decide, by decide,
      by decide, Text.isWrapped_nil 2⟩
  have h := (@blockOf_eq_of_isWrapped (text "abcde") 1 2 (by decide) (by decide)).2
    [text "ab", text "cd", text "e"] (by decide) hwrapped
  exact ⟨hwrapped, h.trans rfl⟩

/-- Not every depth has a block: beyond the length of every text the tabs cannot be written. -/
theorem not_forall_depths_have_blocks :
    ¬ ∀ (s : Text) (depth columns : ℤ), 0 ≤ depth → 1 ≤ columns →
      ∃! lines : List Text, (lines.flatten = s ∧ Text.IsWrapped columns.toNat lines) ∧
        blockOf s depth columns = .ok ((lines.flatMap fun line =>
          ch '\n' :: List.replicate depth.toNat (ch '\t') ++ line) ++
            ch '\n' :: List.replicate depth.toNat (ch '\t')) := by
  intro h
  obtain ⟨lines, ⟨-, hblock⟩, -⟩ := h [] wordBound 1 (by decide) (by decide)
  have hfits : fitsWord wordBound = false := by decide
  rw [blockOf, if_neg (by decide), if_neg (by decide), hfits] at hblock
  cases hblock

end PropertyList
