import PropertyList.Base64
import PropertyList.Proofs.Text.Classes

/-! Base64 read back. Four letters carry three bytes, and the padding of a last group completes it,
so that strict and tolerant readers take the same steps through a written text. -/
namespace PropertyList.Base64

theorem bits?_letter {n : Nat} (h : n < 64) : bits? (letter n) = some n := by
  have hall : ∀ n < 64, bits? (letter n) = some n := by decide
  exact hall n h

theorem letter_ne_pad {n : Nat} (h : n < 64) : letter n ≠ pad := by
  have hall : ∀ n < 64, letter n ≠ pad := by decide
  exact hall n h

theorem letter_bounds {n : Nat} (h : n < 64) : 0x21 ≤ letter n ∧ letter n ≤ 0x7E := by
  have hall : ∀ n < 64, 0x21 ≤ letter n ∧ letter n ≤ 0x7E := by decide
  exact hall n h

/-- A letter in front of any padding is taken in. -/
theorem readOn_letter (strict : Bool) (position held pads : Nat) (read : Bytes) {n : Nat} (h : n < 64)
    (rest : Text) :
    readOn strict ⟨position, held, pads, false, read⟩ (letter n :: rest) =
      readOn strict (State.take ⟨position, held, pads, false, read⟩ n) rest := by
  rw [readOn, if_neg (letter_ne_pad h)]
  simp [bits?_letter h]

theorem readOn_first (strict : Bool) (read : Bytes) {n : Nat} (h : n < 64) (rest : Text) :
    readOn strict ⟨0, 0, 0, false, read⟩ (letter n :: rest) =
      readOn strict ⟨1, n, 0, false, read⟩ rest :=
  readOn_letter strict 0 0 0 read h rest

theorem readOn_second (strict : Bool) (read : Bytes) {n : Nat} (h : n < 64) (held : Nat)
    (rest : Text) :
    readOn strict ⟨1, held, 0, false, read⟩ (letter n :: rest) =
      readOn strict ⟨2, n % 16, 0, false, (held * 4 + n / 16).toUInt8 :: read⟩ rest :=
  readOn_letter strict 1 held 0 read h rest

theorem readOn_third (strict : Bool) (read : Bytes) {n : Nat} (h : n < 64) (held : Nat)
    (rest : Text) :
    readOn strict ⟨2, held, 0, false, read⟩ (letter n :: rest) =
      readOn strict ⟨3, n % 4, 0, false, (held * 16 + n / 4).toUInt8 :: read⟩ rest :=
  readOn_letter strict 2 held 0 read h rest

theorem readOn_fourth (strict : Bool) (read : Bytes) {n : Nat} (h : n < 64) (held : Nat)
    (rest : Text) :
    readOn strict ⟨3, held, 0, false, read⟩ (letter n :: rest) =
      readOn strict ⟨0, 0, 0, false, (held * 64 + n).toUInt8 :: read⟩ rest :=
  readOn_letter strict 3 held 0 read h rest

theorem toUInt8_eq {n : Nat} {b : UInt8} (h : n = b.toNat) : n.toUInt8 = b := by
  rw [h]
  exact UInt8.ofNat_toNat

/-- A written text is read to its end, behind whole groups. -/
theorem readOn_encode (strict : Bool) (bytes read : Bytes) :
    readOn strict ⟨0, 0, 0, false, read⟩ (encode bytes) = .ok (read.reverse ++ bytes) := by
  induction bytes using encode.induct generalizing read with
  | case1 => simp [encode, readOn, State.finish]
  | case2 a =>
    have ha := a.toNat_lt
    have hfirst : (a.toNat / 4 * 4 + a.toNat % 4 * 16 / 16).toUInt8 = a := toUInt8_eq (by omega)
    rw [encode, readOn_first strict _ (by omega), readOn_second strict _ (by omega), hfirst]
    simp [readOn]
  | case3 a b =>
    have ha := a.toNat_lt
    have hb := b.toNat_lt
    have hfirst : (a.toNat / 4 * 4 + (a.toNat % 4 * 16 + b.toNat / 16) / 16).toUInt8 = a :=
      toUInt8_eq (by omega)
    have hsecond : ((a.toNat % 4 * 16 + b.toNat / 16) % 16 * 16 + b.toNat % 16 * 4 / 4).toUInt8 = b :=
      toUInt8_eq (by omega)
    rw [encode, readOn_first strict _ (by omega), readOn_second strict _ (by omega), hfirst,
      readOn_third strict _ (by omega), hsecond]
    simp [readOn]
  | case4 a b c rest ih =>
    have ha := a.toNat_lt
    have hb := b.toNat_lt
    have hc := c.toNat_lt
    have hfirst : (a.toNat / 4 * 4 + (a.toNat % 4 * 16 + b.toNat / 16) / 16).toUInt8 = a :=
      toUInt8_eq (by omega)
    have hsecond : ((a.toNat % 4 * 16 + b.toNat / 16) % 16 * 16 +
        (b.toNat % 16 * 4 + c.toNat / 64) / 4).toUInt8 = b := toUInt8_eq (by omega)
    have hthird : ((b.toNat % 16 * 4 + c.toNat / 64) % 4 * 64 + c.toNat % 64).toUInt8 = c :=
      toUInt8_eq (by omega)
    rw [encode, readOn_first strict _ (by omega), readOn_second strict _ (by omega), hfirst,
      readOn_third strict _ (by omega), hsecond, readOn_fourth strict _ (by omega), hthird, ih]
    simp

theorem encode_isGraphic (bytes : Bytes) : (encode bytes).IsGraphic := by
  have hpad : 0x21 ≤ pad ∧ pad ≤ 0x7E := by decide
  have hnil : Text.IsGraphic [] := by decide
  induction bytes using encode.induct with
  | case1 => exact hnil
  | case2 a =>
    have ha := a.toNat_lt
    exact .cons (letter_bounds (by omega)) <| .cons (letter_bounds (by omega)) <|
      .cons hpad <| .cons hpad hnil
  | case3 a b =>
    have ha := a.toNat_lt
    have hb := b.toNat_lt
    exact .cons (letter_bounds (by omega)) <| .cons (letter_bounds (by omega)) <|
      .cons (letter_bounds (by omega)) <| .cons hpad hnil
  | case4 a b c rest ih =>
    have ha := a.toNat_lt
    have hb := b.toNat_lt
    have hc := c.toNat_lt
    exact .cons (letter_bounds (by omega)) <| .cons (letter_bounds (by omega)) <|
      .cons (letter_bounds (by omega)) <| .cons (letter_bounds (by omega)) ih

theorem head?_encode (bytes : Bytes) : (encode bytes).head? ≠ some pad := by
  induction bytes using encode.induct with
  | case1 => simp [encode]
  | case2 a =>
    have ha := a.toNat_lt
    simpa [encode] using letter_ne_pad (show a.toNat / 4 < 64 by omega)
  | case3 a b =>
    have ha := a.toNat_lt
    simpa [encode] using letter_ne_pad (show a.toNat / 4 < 64 by omega)
  | case4 a b c rest ih =>
    have ha := a.toNat_lt
    simpa [encode] using letter_ne_pad (show a.toNat / 4 < 64 by omega)

/-- Every reader finds the bytes that were written. -/
theorem decode_encode (strict : Bool) (bytes : Bytes) : decode strict (encode bytes) = .ok bytes := by
  have hascii : (encode bytes).any (0x7F < ·) = false := by
    apply List.any_eq_false.mpr
    intro c hc
    have hbounds := encode_isGraphic bytes c hc
    rw [decide_eq_true_eq]
    exact Nat.not_lt.mpr (Nat.le_trans hbounds.2 (by decide))
  have hhead : ((encode bytes).head? == some pad) = false := by
    simpa using head?_encode bytes
  rw [decode, hascii, hhead, Bool.and_false, if_neg (by simp), if_neg (by simp)]
  exact readOn_encode strict bytes []

end PropertyList.Base64
