import PropertyList.Markup.Encoding
import PropertyList.Proofs.Text.Classes

/-! UTF-8 read back. The bytes of a text that may stand in a document decode to just this text. -/
namespace PropertyList

theorem isSurrogate_eq_false {c : Nat} (h : isXmlChar c = true) : isSurrogate c = false := by
  have hc := isXmlChar_iff.mp h
  apply Bool.eq_false_iff.mpr
  intro hs
  have := isSurrogate_iff.mp hs
  omega

theorem toNat_toUInt8 {n : Nat} (h : n < 256) : n.toUInt8.toNat = n := by
  simp [Nat.mod_eq_of_lt h]

/-- The bytes of a character are read as this character, whatever follows them. -/
theorem utf8Head_utf8Char {c : Nat} (h : isXmlChar c = true) (rest : List Nat) :
    utf8Head ((utf8Char c).map UInt8.toNat ++ rest) = some (c, (utf8Char c).length) := by
  have hs := isSurrogate_eq_false h
  have hc := isXmlChar_iff.mp h
  unfold utf8Char
  -- One case for each length of the sequence.
  split
  · rename_i h1
    have h1 : c < 0x80 := h1
    simp only [List.map_cons, List.map_nil, List.cons_append, List.nil_append, utf8Head]
    rw [toNat_toUInt8 (by omega)]
    simp [h1]
  split
  · rename_i h1 h2
    have h2 : c < 0x800 := h2
    simp only [List.map_cons, List.map_nil, List.cons_append, List.nil_append, utf8Head]
    rw [toNat_toUInt8 (by omega), toNat_toUInt8 (by omega)]
    grind [isContinuation]
  split
  · rename_i h1 h2 h3
    have h3 : c < 0x10000 := h3
    simp only [List.map_cons, List.map_nil, List.cons_append, List.nil_append, utf8Head]
    rw [toNat_toUInt8 (by omega), toNat_toUInt8 (by omega), toNat_toUInt8 (by omega)]
    grind [isContinuation]
  · simp only [List.map_cons, List.map_nil, List.cons_append, List.nil_append, utf8Head]
    rw [toNat_toUInt8 (by omega), toNat_toUInt8 (by omega), toNat_toUInt8 (by omega),
      toNat_toUInt8 (by omega)]
    grind [isContinuation]

theorem utf8Char_length (c : Nat) : (utf8Char c).length ≤ 4 := by
  unfold utf8Char
  split
  · simp
  split
  · simp
  split <;> simp

theorem utf8Char_ne_nil (c : Nat) : utf8Char c ≠ [] := by
  unfold utf8Char
  split
  · simp
  split
  · simp
  split <;> simp

theorem lt_of_length_utf8Char {c : Nat} (h : (utf8Char c).length = 1) : c < 0x80 := by
  unfold utf8Char at h
  split at h
  · assumption
  split at h
  · cases h
  split at h <;> cases h

namespace Text

theorem utf8?_of_isXml {s : Text} (h : s.isXml = true) : s.utf8? = .ok s.utf8 := by
  have hplain : ∀ c ∈ s, (!isSurrogate c) = true := by
    intro c hc
    rw [isSurrogate_eq_false (List.all_eq_true.mp h c hc), Bool.not_false]
  rw [utf8?, firstSurrogates, dropWhile_of_all hplain]

theorem utf8_cons (c : CodePoint) (s : Text) : utf8 (c :: s) = utf8Char c ++ s.utf8 := by
  rw [utf8, List.flatMap_cons, utf8]

/-- An ASCII text has one byte for each character. -/
theorem utf8_of_ascii {s : Text} (h : ∀ c : Nat, c ∈ s → c < 0x80) : s.utf8 = s.map Nat.toUInt8 := by
  induction s with
  | nil => rfl
  | cons c s ih =>
    have hc : utf8Char c = [Nat.toUInt8 c] := if_pos (h c (List.mem_cons_self ..))
    rw [utf8_cons, hc, ih fun d hd => h d (List.mem_cons_of_mem _ hd)]
    rfl

theorem length_le_length_utf8 (s : Text) : s.length ≤ s.utf8.length := by
  induction s with
  | nil => simp
  | cons c s ih =>
    have hlength := List.length_pos_iff.mpr (utf8Char_ne_nil c)
    rw [utf8_cons, List.length_append, List.length_cons]
    omega

/-- Only an ASCII text has as many bytes as characters. -/
theorem lt_of_length_utf8 {s : Text} (h : s.utf8.length = s.length) :
    ∀ c : Nat, c ∈ s → c < 0x80 := by
  induction s with
  | nil => simp
  | cons c s ih =>
    have hfirst := List.length_pos_iff.mpr (utf8Char_ne_nil c)
    have hrest := length_le_length_utf8 s
    rw [utf8_cons, List.length_append, List.length_cons] at h
    have hone : (utf8Char c).length = 1 := by omega
    intro d hd
    rcases List.mem_cons.mp hd with rfl | hmem
    · exact lt_of_length_utf8Char hone
    · exact ih (by omega) d hmem

/-- A graphic text is its own bytes. -/
theorem IsGraphic.map_toNat_utf8 {s : Text} (h : s.IsGraphic) : s.utf8.map UInt8.toNat = s := by
  have hascii : ∀ c : Nat, c ∈ s → c < 0x80 := by
    intro c hc
    have := h c hc
    omega
  have hbyte : ∀ c ∈ s, (UInt8.toNat ∘ Nat.toUInt8) c = id c :=
    fun c hc => toNat_toUInt8 (Nat.lt_trans (hascii c hc) (by decide))
  rw [utf8_of_ascii hascii, List.map_map, List.map_congr_left hbyte, List.map_id]

end Text

namespace Markup.Encoding

/-- The bytes that belong to a character already read are passed over. -/
theorem decodeOnto_skip (e : Encoding) (read : Text) (skipped rest : Bytes) :
    decodeOnto e skipped.length read (skipped ++ rest) = decodeOnto e 0 read rest := by
  induction skipped with
  | nil => rfl
  | cons b skipped ih =>
    rw [List.length_cons, List.cons_append, decodeOnto, ih]

theorem decodeOnto_utf8Char {c : Nat} (h : isXmlChar c = true) (read : Text) (rest : Bytes) :
    decodeOnto .utf8 0 read (utf8Char c ++ rest) = decodeOnto .utf8 0 (c :: read) rest := by
  have hhead : head? .utf8 (utf8Char c ++ rest) = some (c, (utf8Char c).length) := by
    rw [← utf8Head_utf8Char h ((rest.take (4 - (utf8Char c).length)).map UInt8.toNat)]
    have hlen := utf8Char_length c
    cases hc : utf8Char c with
    | nil => exact absurd hc (utf8Char_ne_nil c)
    | cons b more =>
      rw [hc] at hlen
      rw [List.cons_append, head?, ← List.cons_append, List.take_append,
        List.take_of_length_le hlen, List.map_append]
      simp
  cases hc : utf8Char c with
  | nil => exact absurd hc (utf8Char_ne_nil c)
  | cons b more =>
    rw [hc] at hhead
    rw [List.cons_append] at hhead ⊢
    simp only [decodeOnto, hhead, h, if_true, List.length_cons, Nat.add_sub_cancel]
    exact decodeOnto_skip .utf8 (c :: read) more rest

/-- The bytes of a text are read as this text, whatever follows them. -/
theorem decodeOnto_utf8_append {s : Text} (h : s.isXml = true) (read : Text) (rest : Bytes) :
    decodeOnto .utf8 0 read (s.utf8 ++ rest) = decodeOnto .utf8 0 (s.reverse ++ read) rest := by
  induction s generalizing read with
  | nil => rfl
  | cons c s ih =>
    obtain ⟨hc, hs⟩ : isXmlChar c = true ∧ Text.isXml s = true := by
      simpa [Text.isXml] using h
    rw [Text.utf8_cons, List.append_assoc, decodeOnto_utf8Char hc, ih hs]
    simp

/-- What is read already stands in front of what is decoded. -/
theorem decodeOnto_eq_append (e : Encoding) (skip : Nat) (read : Text) (bytes : Bytes) :
    decodeOnto e skip read bytes = read.reverse ++ decodeOnto e skip [] bytes := by
  induction bytes generalizing skip read with
  | nil => simp [decodeOnto]
  | cons b rest ih =>
    match skip with
    | skip + 1 =>
      rw [decodeOnto, decodeOnto, ih]
    | 0 =>
      simp only [decodeOnto]
      split
      · split
        · rw [ih, ih _ [_], List.reverse_cons, List.append_assoc]
          rfl
        · simp
      · split
        · simp
        · simp

theorem decode_utf8_append {s : Text} (h : s.isXml = true) (rest : Bytes) :
    decode .utf8 (s.utf8 ++ rest) = s ++ decode .utf8 rest := by
  rw [decode, decodeOnto_utf8_append h, decodeOnto_eq_append, List.append_nil, List.reverse_reverse,
    decode]

/-- Decoding gives back every text that may stand in a document. -/
theorem decode_utf8 {s : Text} (h : s.isXml = true) : decode .utf8 s.utf8 = s := by
  have happend := decode_utf8_append h []
  rwa [List.append_nil, decode, decode, decodeOnto, List.reverse_nil, List.append_nil] at happend

end Markup.Encoding

end PropertyList
