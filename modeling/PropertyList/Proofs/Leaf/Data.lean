import PropertyList.Leaf.Data
import PropertyList.Proofs.Base64
import PropertyList.Proofs.Run

/-! Bytes read back. Indentation and line breaks are blanks, so that a reader sees the lines of a
block joined again, whatever its depth and its width are. -/
namespace PropertyList

namespace Text

theorem compact_append (s t : Text) : compact (s ++ t) = s.compact ++ t.compact :=
  List.filter_append s t

theorem compact_of_not_blank {s : Text} (h : ∀ c ∈ s, isBlank c = false) : s.compact = s := by
  apply List.filter_eq_self.mpr
  intro c hc
  rw [h c hc, Bool.not_false]

theorem compact_indent (depth : Nat) : (indent depth).compact = [] := by
  apply List.filter_eq_nil_iff.mpr
  intro c hc
  have hblank : isBlank c = true := by
    rcases List.mem_cons.mp hc with rfl | htab
    · decide
    · rw [List.eq_of_mem_replicate htab]
      decide
  rw [hblank]
  decide

/-- The lines of a text make up the text, if a line holds anything at all. -/
theorem flatten_linesUpTo {columns : Nat} (hcolumns : 1 ≤ columns) {count : Nat} {s : Text}
    (h : s.length ≤ count) : (linesUpTo columns count s).flatten = s := by
  induction count generalizing s with
  | zero => rw [linesUpTo, List.length_eq_zero_iff.mp (Nat.le_zero.mp h), List.flatten_nil]
  | succ count ih =>
    cases s with
    | nil => rfl
    | cons c rest =>
      have hdrop : ((c :: rest).drop columns).length ≤ count := by
        rw [List.length_drop]
        omega
      rw [linesUpTo, List.flatten_cons, ih hdrop, List.take_append_drop]
      simp

theorem compact_flatMap_indent (depth : Nat) (lines : List Text) :
    compact (lines.flatMap fun line => indent depth ++ line) = compact lines.flatten := by
  induction lines with
  | nil => rfl
  | cons line lines ih =>
    rw [List.flatMap_cons, List.flatten_cons, compact_append, compact_append, compact_append, ih,
      compact_indent, List.nil_append]

/-- A block without its blanks is the text that it was made of. -/
theorem compact_block {s : Text} (h : ∀ c ∈ s, isBlank c = false) (depth : Nat) {columns : Nat}
    (hcolumns : 1 ≤ columns) : (s.block depth columns).compact = s := by
  rw [block, compact_append, compact_indent, List.append_nil, compact_flatMap_indent, lines,
    flatten_linesUpTo hcolumns (Nat.le_refl _), compact_of_not_blank h]

/-- A block holds nothing but the characters of its text, line breaks and tabs. -/
theorem mem_of_mem_block {s : Text} {depth columns : Nat} {c : CodePoint}
    (h : c ∈ s.block depth columns) : c ∈ s ∨ c = ch '\n' ∨ c = ch '\t' := by
  have hindent : c ∈ indent depth → c = ch '\n' ∨ c = ch '\t' := by
    intro hc
    rcases List.mem_cons.mp hc with hbreak | htab
    · exact .inl hbreak
    · exact .inr (List.eq_of_mem_replicate htab)
  have hlines (count : Nat) : ∀ {s : Text} {line : Text}, line ∈ linesUpTo columns count s →
      ∀ d ∈ line, d ∈ s := by
    induction count with
    | zero => simp [linesUpTo]
    | succ count ih =>
      intro s line hline d hd
      cases s with
      | nil => simp [linesUpTo] at hline
      | cons e rest =>
        rcases List.mem_cons.mp hline with rfl | hmore
        · exact List.mem_of_mem_take hd
        · exact List.mem_of_mem_drop (ih hmore d hd)
  rcases List.mem_append.mp h with hbody | hend
  · obtain ⟨line, hline, hc⟩ := List.mem_flatMap.mp hbody
    rcases List.mem_append.mp hc with hc | hc
    · exact .inr (hindent hc)
    · exact .inl (hlines _ hline c hc)
  · exact .inr (hindent hend)

end Text

/-- The text of bytes without its blanks is their Base64 text. -/
theorem compact_encodeData (bytes : Bytes) (depth : Nat) {columns : Nat} (hcolumns : 1 ≤ columns) :
    (encodeData bytes depth columns).compact = Base64.encode bytes := by
  unfold encodeData
  split
  · rename_i hempty
    rw [List.isEmpty_iff.mp hempty]
    rfl
  · exact Text.compact_block (Base64.encode_isGraphic bytes).isBlank_eq_false depth hcolumns

/-- Bytes are read back from their Base64 text with blanks in it, whoever reads them. -/
theorem decodeData_of_compact {s : Text} {bytes : Bytes} (h : s.compact = Base64.encode bytes)
    (strict : Bool) : decodeData strict s = pure bytes := by
  rw [decodeData, h, Base64.decode_encode]

/-- Bytes are read back at every depth and every width, whoever reads them. -/
theorem decodeData_encodeData (strict : Bool) (bytes : Bytes) (depth : Nat) {columns : Nat}
    (hcolumns : 1 ≤ columns) : decodeData strict (encodeData bytes depth columns) = pure bytes :=
  decodeData_of_compact (compact_encodeData bytes depth hcolumns) strict

end PropertyList
