import PropertyList.Markup.Declaration
import PropertyList.Proofs.Text.Utf8

/-! Documents whose declaration names an encoding. The declaration itself is read in UTF-8, and all
behind it in the encoding that is named, so that the characters of a text that was encoded in UTF-8
are kept in UTF-8 alone, or where every byte stands for the same character. -/
namespace PropertyList.Markup

/-- A declaration of an encoding and of nothing else. -/
def naming (name : Text) : Text := text "<?xml version=\"1.0\" encoding=\"" ++ name ++ text "\"?>"

/-- A name that a declaration may give to an encoding: a letter, and further letters, digits, stops,
hyphens and underscores. -/
structure IsEncodingName (name : Text) : Prop where
  letter : isLetter (name.headD 0) = true
  plain : ∀ c ∈ name, isDeclarationChar c = true

/-- A document of characters that opens with no declaration and no byte order mark. -/
structure IsBare (s : Text) : Prop where
  isXml : s.isXml = true
  unmarked : s.head? ≠ some 0xFEFF
  undeclared : ∀ c, isSpace c = true ∨ c = ch '?' → ¬ declarationStart ++ [c] <+: s

theorem isDeclarationChar_iff {c : Nat} : isDeclarationChar c = true ↔
    (65 ≤ c ∧ c ≤ 90) ∨ (97 ≤ c ∧ c ≤ 122) ∨ (48 ≤ c ∧ c ≤ 57) ∨ c = 46 ∨ c = 45 ∨ c = 95 := by
  simp [isDeclarationChar, isLetter, isDigit, CodePoint, ch, or_assoc]

namespace IsEncodingName

variable {name : Text}

theorem isGraphic (h : IsEncodingName name) : name.IsGraphic := by
  intro c hc
  have := isDeclarationChar_iff.mp (h.plain c hc)
  omega

theorem not_mem (h : IsEncodingName name) : ch '>' ∉ name := by
  intro hc
  have := h.plain _ hc
  revert this
  decide

end IsEncodingName

/-- What stands in front of the first bracket is part of the instruction. -/
theorem splitInstruction_append {s : Text} (h : ch '>' ∉ s) (body rest : Text) :
    splitInstruction body (s ++ rest) = splitInstruction (s.reverse ++ body) rest := by
  induction s generalizing body with
  | nil => rfl
  | cons c s ih =>
    rw [List.mem_cons, not_or] at h
    have hc : c ≠ ch '>' := fun heq => h.1 heq.symm
    rw [List.cons_append, splitInstruction, if_neg (by simp [hc]), ih h.2, List.reverse_cons,
      List.append_assoc]
    rfl

/-- The attribute of the encoding has its value between quotation marks. -/
theorem PseudoAttribute.read_encoding (s : Text) :
    read (text " encoding=\"" ++ s) =
      match s.dropWhile isDeclarationChar with
      | [] => none
      | closing :: rest =>
        if closing = ch '"' then some (some ⟨text "encoding", s.takeWhile isDeclarationChar, rest⟩)
        else none := rfl

theorem Declaration.read_naming {name : Text} (h : IsEncodingName name) :
    read (text " version=\"1.0\" encoding=\"" ++ (name ++ [ch '"'])) = some ⟨some name, false⟩ := by
  have hmark : isDeclarationChar (ch '"') = false := by decide
  have hversion : PseudoAttribute.read (text " version=\"1.0\" encoding=\"" ++ (name ++ [ch '"'])) =
      some (some ⟨text "version", text "1.0", text " encoding=\"" ++ (name ++ [ch '"'])⟩) := rfl
  have hencoding : PseudoAttribute.read (text " encoding=\"" ++ (name ++ [ch '"'])) =
      some (some ⟨text "encoding", name, []⟩) := by
    rw [PseudoAttribute.read_encoding, takeWhile_run h.plain hmark, dropWhile_run h.plain hmark]
    rfl
  have hend : PseudoAttribute.read [] = some none := rfl
  have hletter : isLetter (name.headD 0) = true := h.letter
  simp only [read, hversion, Option.bind_eq_bind, Option.bind_some, ne_eq, not_true_eq_false,
    if_false, hencoding, hletter, hend, Bool.not_true, Bool.false_eq_true]

namespace Encoding

/-- Whether an encoding has one byte for every character. -/
def IsSingleByte (e : Encoding) : Prop := e.unitWidth = 1 ∧ e ≠ .utf8

theorem ofPageName_isSingleByte {name : Text} {next : Encoding} (h : ofPageName name = .ok next) :
    next.IsSingleByte := by
  unfold ofPageName at h
  dsimp only at h
  repeat' split at h
  all_goals cases h
  · exact ⟨rfl, by simp⟩
  · exact ⟨rfl, by simp⟩

/-- No document turns from UTF-8 to an encoding with other code units. -/
theorem unitWidth_of_named {name : Text} {next : Encoding} (h : named .utf8 name = .ok next) :
    next.unitWidth = 1 := by
  unfold named at h
  dsimp only at h
  split at h
  · rename_i hwide
    simp [unitWidth] at hwide
  · split at h
    · split at h
      · cases h
      · rename_i hsame
        cases h
        simp only [Bool.or_eq_true, not_or, decide_eq_true_eq] at hsame
        exact Decidable.not_not.mp hsame.1
    · exact (ofPageName_isSingleByte h).1

/-- The character of a byte. -/
def char? (e : Encoding) (b : UInt8) : Option CodePoint := (e.head? [b]).map Prod.fst

theorem head?_cons {e : Encoding} (h : e.IsSingleByte) (b : UInt8) (rest : Bytes) :
    e.head? (b :: rest) = (e.char? b).map fun c => (c, 1) := by
  cases e with
  | ascii =>
    simp only [char?, head?]
    split <;> rfl
  | tildeless =>
    simp only [char?, head?]
    split <;> rfl
  | latin1 => rfl
  | utf8 => exact absurd rfl h.2
  | utf16 bigEndian => cases h.1
  | page upper =>
    simp only [char?, head?, pageHead]
    split
    · rfl
    · split <;> rfl

theorem decode_cons {e : Encoding} (h : e.IsSingleByte) (b : UInt8) (rest : Bytes) :
    e.decode (b :: rest) =
      match e.char? b with
      | some c => if isXmlChar c then c :: e.decode rest else [unreadable]
      | none => [unreadable] := by
  rw [decode, decodeOnto, head?_cons h]
  cases e.char? b with
  | none => simp [h.1]
  | some c =>
    by_cases hc : isXmlChar c = true
    · simp only [Option.map_some, hc, if_true]
      exact decodeOnto_eq_append e 0 [c] rest
    · simp [hc]

/-- Bytes decode to a text just if each of them stands for the character at its place. -/
theorem decode_eq_iff {e : Encoding} (h : e.IsSingleByte) {s : Text} (hs : s.isXml = true)
    (bytes : Bytes) : e.decode bytes = s ↔ bytes.map e.char? = s.map some := by
  induction bytes generalizing s with
  | nil =>
    rw [decode, decodeOnto]
    cases s <;> simp
  | cons b bytes ih =>
    have hmark : s ≠ [unreadable] := by
      rintro rfl
      cases hs
    rw [decode_cons h]
    cases s with
    | nil =>
      cases e.char? b with
      | none => simp
      | some c => by_cases hc : isXmlChar c = true <;> simp [hc]
    | cons d s =>
      rw [Text.isXml, List.all_cons, Bool.and_eq_true] at hs
      obtain ⟨hd, hs⟩ := hs
      rw [List.map_cons, List.map_cons, List.cons.injEq, ← ih hs]
      cases hchar : e.char? b with
      | none => simpa using hmark.symm
      | some c =>
        by_cases hc : isXmlChar c = true
        · simp [hc]
        · have hne : c ≠ d := by
            rintro rfl
            exact hc hd
          simpa [hc, hne] using hmark.symm

/-- Among the characters of ASCII, every page has the same at the same place, or lacks the tilde. -/
theorem char?_of_ascii {e : Encoding} (h : e.IsSingleByte) {c : Nat} (hc : c < 0x80) :
    e.char? c.toUInt8 = some c ↔ (e = .tildeless → c ≠ ch '~') := by
  have hbyte : c.toUInt8.toNat = c := toNat_toUInt8 (by omega)
  cases e with
  | ascii => simp [char?, head?, hbyte, hc]
  | tildeless => simp [char?, head?, hbyte, hc]
  | latin1 => simp [char?, head?, hbyte]
  | utf8 => exact absurd rfl h.2
  | utf16 bigEndian => cases h.1
  | page upper => simp [char?, head?, pageHead, hbyte, hc]

/-- The characters of a text that was encoded in UTF-8 are kept just if all of them are ASCII
characters of the encoding in which it is read. -/
theorem decode_utf8_eq_iff {e : Encoding} (h : e.IsSingleByte) {s : Text} (hs : s.isXml = true) :
    e.decode s.utf8 = s ↔ ∀ c : Nat, c ∈ s → c < 0x80 ∧ (e = .tildeless → c ≠ ch '~') := by
  rw [decode_eq_iff h hs]
  constructor
  · intro hsame
    have hlength := congrArg List.length hsame
    rw [List.length_map, List.length_map] at hlength
    have hascii := Text.lt_of_length_utf8 hlength
    rw [Text.utf8_of_ascii hascii, List.map_map] at hsame
    intro c hc
    exact ⟨hascii c hc, (char?_of_ascii h (hascii c hc)).mp (List.map_inj_left.mp hsame c hc)⟩
  · intro hplain
    rw [Text.utf8_of_ascii fun c hc => (hplain c hc).1, List.map_map]
    apply List.map_congr_left
    intro c hc
    exact (char?_of_ascii h (hplain c hc).1).mpr (hplain c hc).2

theorem cutsUnit_of_unitWidth {e : Encoding} (h : e.unitWidth = 1) (bytes : Bytes) :
    e.cutsUnit bytes = false := by
  simp [cutsUnit, h, Nat.mod_one]

end Encoding

/-- What stands between the target of a declaration and its end. -/
theorem splitInstruction_naming {name : Text} (h : IsEncodingName name) (s : Text) :
    splitInstruction [] ((naming name ++ s).drop declarationStart.length) =
      some ((text " version=\"1.0\" encoding=\"" ++ (name ++ [ch '"'])).reverse, s) := by
  have hplain : ch '>' ∉ text " version=\"1.0\" encoding=\"" ++ (name ++ [ch '"']) ++ [ch '?'] := by
    simp only [List.mem_append, not_or]
    exact ⟨⟨by decide, h.not_mem, by decide⟩, by decide⟩
  have hbody : (naming name ++ s).drop declarationStart.length =
      text " version=\"1.0\" encoding=\"" ++ (name ++ [ch '"']) ++ [ch '?'] ++ ch '>' :: s := by
    have hfront : naming name ++ s = declarationStart ++
        (text " version=\"1.0\" encoding=\"" ++ (name ++ [ch '"']) ++ [ch '?'] ++ ch '>' :: s) := by
      simp only [naming, List.append_assoc]
      rfl
    rw [hfront, List.drop_left]
  rw [hbody, splitInstruction_append hplain, splitInstruction, if_pos (by simp)]
  simp

/-- A declaration is written in ASCII. -/
theorem lt_of_mem_naming {name : Text} (h : IsEncodingName name) :
    ∀ c : Nat, c ∈ naming name → isXmlChar c = true ∧ c < 0x80 := by
  have hends : ∀ c : Nat, c ∈ text "<?xml version=\"1.0\" encoding=\"" ∨ c ∈ text "\"?>" →
      isXmlChar c = true ∧ c < 0x80 := by
    simp only [or_imp, forall_and]
    decide
  intro c hc
  rcases List.mem_append.mp hc with hfront | hmark
  · rcases List.mem_append.mp hfront with hopening | hname
    · exact hends c (.inl hopening)
    · have := h.isGraphic c hname
      exact ⟨List.all_eq_true.mp h.isGraphic.isXml c hname, by omega⟩
  · exact hends c (.inr hmark)

theorem isXml_naming {name : Text} (h : IsEncodingName name) : (naming name).isXml = true :=
  List.all_eq_true.mpr fun c hc => (lt_of_mem_naming h c hc).1

/-- A declaration is read in UTF-8, and all behind it in the encoding that it names. -/
theorem Source.ofBytes_naming {name : Text} (h : IsEncodingName name) (bytes : Bytes) :
    Source.ofBytes ((naming name).utf8 ++ bytes) =
      (Encoding.named .utf8 name).map fun next =>
        ⟨next.hasLatinSigns, false, next.decode bytes, false⟩ := by
  have hdetect : Encoding.detect ((naming name).utf8 ++ bytes) = (.utf8, 0) := by
    simp only [naming, Text.utf8, List.flatMap_append, List.append_assoc]
    rfl
  have hdecode := Encoding.decode_utf8_append (isXml_naming h) bytes
  have hsplit := splitInstruction_naming h (Encoding.utf8.decode bytes)
  have hread := Declaration.read_naming h
  have htarget : (naming name ++ Encoding.utf8.decode bytes).take declarationStart.length =
      declarationStart := by
    simp only [naming, List.append_assoc]
    rfl
  have hdrop : ((naming name).utf8 ++ bytes).drop ((declarationStart.length +
      (text " version=\"1.0\" encoding=\"" ++ (name ++ [ch '"'])).reverse.length + 2) *
        Encoding.utf8.unitWidth) = bytes := by
    apply List.drop_left'
    rw [Text.utf8_of_ascii fun c hc => (lt_of_mem_naming h c hc).2, naming]
    simp [declarationStart, text, Encoding.unitWidth]
    omega
  have hwhole := Encoding.cutsUnit_of_unitWidth (show Encoding.utf8.unitWidth = 1 from rfl)
  simp only [Source.ofBytes, hdetect, List.drop_zero, hdecode, hsplit, htarget,
    List.reverse_reverse, hread, hdrop, hwhole]
  rw [if_pos]
  case hc =>
    simp only [naming, List.append_assoc]
    rfl
  cases hnext : Encoding.named .utf8 name with
  | error refusal => rfl
  | ok next =>
    have hcut := Encoding.cutsUnit_of_unitWidth (Encoding.unitWidth_of_named hnext) bytes
    by_cases hsame : next = .utf8
    · subst hsame
      rfl
    · change (if next = Encoding.utf8 then _ else _) = _
      rw [if_neg hsame, hcut]
      rfl

theorem ne_of_mem_utf8Char {c : Nat} (h : isXmlChar c = true) {b : UInt8} (hb : b ∈ utf8Char c) :
    b.toNat ≠ 0 ∧ b.toNat ≠ 0xFE ∧ b.toNat ≠ 0xFF := by
  have hc := isXmlChar_iff.mp h
  unfold utf8Char at hb
  simp only [CodePoint] at hb
  -- one case for each length of the sequence
  split at hb
  · rw [List.mem_singleton.mp hb, toNat_toUInt8 (by omega)]
    omega
  split at hb
  · simp only [List.mem_cons, List.not_mem_nil, or_false] at hb
    rcases hb with rfl | rfl <;> rw [toNat_toUInt8 (by omega)] <;> omega
  split at hb
  · simp only [List.mem_cons, List.not_mem_nil, or_false] at hb
    rcases hb with rfl | rfl | rfl <;> rw [toNat_toUInt8 (by omega)] <;> omega
  · simp only [List.mem_cons, List.not_mem_nil, or_false] at hb
    rcases hb with rfl | rfl | rfl | rfl <;> rw [toNat_toUInt8 (by omega)] <;> omega

/-- No byte of a text is zero, nor is one part of a mark of UTF-16. -/
theorem ne_of_mem_utf8 {s : Text} (h : s.isXml = true) {b : UInt8} (hb : b ∈ s.utf8) :
    b ≠ 0 ∧ b ≠ 0xFE ∧ b ≠ 0xFF := by
  obtain ⟨c, hc, hmem⟩ := List.mem_flatMap.mp hb
  have hne := ne_of_mem_utf8Char (List.all_eq_true.mp h c hc) hmem
  refine ⟨?_, ?_, ?_⟩
  · rintro rfl
    exact hne.1 rfl
  · rintro rfl
    exact hne.2.1 rfl
  · rintro rfl
    exact hne.2.2 rfl

/-- The mark of UTF-8 is the character that its bytes encode. -/
theorem head?_of_utf8_eq {s : Text} (h : s.isXml = true) {rest : Bytes}
    (hs : s.utf8 = 0xEF :: 0xBB :: 0xBF :: rest) : s.head? = some 0xFEFF := by
  have hbytes : s.utf8 = utf8Char 0xFEFF ++ rest := hs
  have hdecode := Encoding.decode_utf8 h
  rw [hbytes, Encoding.decode, Encoding.decodeOnto_utf8Char (by decide),
    Encoding.decodeOnto_eq_append] at hdecode
  rw [← hdecode]
  rfl

/-- A text without a byte order mark shows no other encoding than UTF-8. -/
theorem detect_utf8 {s : Text} (h : s.isXml = true) (hmark : s.head? ≠ some 0xFEFF) :
    Encoding.detect s.utf8 = (.utf8, 0) := by
  have hne : ∀ b ∈ s.utf8, b ≠ 0 ∧ b ≠ 0xFE ∧ b ≠ 0xFF := fun b hb => ne_of_mem_utf8 h hb
  unfold Encoding.detect
  split
  · rename_i heq
    simp [heq] at hne
  · rename_i heq
    simp [heq] at hne
  · rename_i heq
    exact absurd (head?_of_utf8_eq h heq) hmark
  · rename_i heq
    simp [heq] at hne
  · rename_i heq
    simp [heq] at hne
  · rfl

/-- A text without a declaration is read as it is. -/
theorem Source.ofBytes_utf8 {s : Text} (h : IsBare s) :
    Source.ofBytes s.utf8 = .ok ⟨false, false, s, false⟩ := by
  have hdetect := detect_utf8 h.isXml h.unmarked
  have hdecode := Encoding.decode_utf8 h.isXml
  have hwhole := Encoding.cutsUnit_of_unitWidth (show Encoding.utf8.unitWidth = 1 from rfl)
  simp only [Source.ofBytes, hdetect, List.drop_zero, hdecode, hwhole]
  rw [if_neg]
  · rfl
  case hnc =>
    intro hopens
    rw [Bool.and_eq_true, decide_eq_true_eq] at hopens
    obtain ⟨htarget, hspace⟩ := hopens
    split at hspace
    · cases hspace
    · rename_i c rest hdrop
      simp only [Bool.or_eq_true, beq_iff_eq] at hspace
      apply h.undeclared c hspace
      have hwhole := List.take_append_drop declarationStart.length s
      rw [htarget, hdrop] at hwhole
      rw [← hwhole]
      exact ⟨rest, by simp⟩

end PropertyList.Markup
