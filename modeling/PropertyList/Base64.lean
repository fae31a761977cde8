import PropertyList.Number.Positional

/-!
Base64. Writing pads the last group with equals signs. Reading goes character by character; a strict
reader accepts nothing but padded groups, a tolerant one passes over what is not in the alphabet and
stops at the padding that completes a group.
-/
namespace PropertyList.Base64

/-- The character for six bits. -/
def letter (n : Nat) : CodePoint :=
  if n < 26 then ch 'A' + n
  else if n < 52 then ch 'a' + (n - 26)
  else if n < 62 then ch '0' + (n - 52)
  else if n = 62 then ch '+'
  else ch '/'

/-- The six bits that a character of the alphabet stands for. -/
def bits? (c : CodePoint) : Option Nat :=
  if ch 'A' ≤ c && c ≤ ch 'Z' then some (c - ch 'A')
  else if ch 'a' ≤ c && c ≤ ch 'z' then some (c - ch 'a' + 26)
  else if ch '0' ≤ c && c ≤ ch '9' then some (c - ch '0' + 52)
  else if c = ch '+' then some 62
  else if c = ch '/' then some 63
  else none

def pad : CodePoint := ch '='

def encode : Bytes → Text
  | [] => []
  | [a] => [letter (a.toNat / 4), letter (a.toNat % 4 * 16), pad, pad]
  | [a, b] =>
    [letter (a.toNat / 4), letter (a.toNat % 4 * 16 + b.toNat / 16), letter (b.toNat % 16 * 4), pad]
  | a :: b :: c :: rest =>
    letter (a.toNat / 4) :: letter (a.toNat % 4 * 16 + b.toNat / 16) ::
      letter (b.toNat % 16 * 4 + c.toNat / 64) :: letter (c.toNat % 64) :: encode rest

/-- Why a text is refused. -/
inductive Fault where
  | notAscii
  | leadingPadding
  | outsideAlphabet
  | dataAfterPadding
  | interruptedPadding
  | loneCharacter (count : Nat)
  | missingPadding
  deriving DecidableEq, Repr

def Fault.message : Fault → Text
  | .notAscii => text "string argument should contain only ASCII characters"
  | .leadingPadding => text "Leading padding not allowed"
  | .outsideAlphabet => text "Only base64 data is allowed"
  | .dataAfterPadding => text "Excess data after padding"
  | .interruptedPadding => text "Discontinuous padding not allowed"
  | .loneCharacter count =>
    text "Invalid base64-encoded string: number of data characters (" ++ decimal count ++
      text ") cannot be 1 more than a multiple of 4"
  | .missingPadding => text "Incorrect padding"

/-- Where a reader stands: the position in the group of four, the bits held back from the last
character, the padding seen since it, whether any padding was seen, and the bytes read, the last
one first. -/
structure State where
  position : Nat
  held : Nat
  pads : Nat
  padded : Bool
  read : Bytes
  deriving DecidableEq, Repr

namespace State

def start : State := ⟨0, 0, 0, false, []⟩

/-- Takes in six bits. -/
def take (s : State) (bits : Nat) : State :=
  match s.position with
  | 0 => ⟨1, bits, 0, s.padded, s.read⟩
  | 1 => ⟨2, bits % 16, 0, s.padded, (s.held * 4 + bits / 16).toUInt8 :: s.read⟩
  | 2 => ⟨3, bits % 4, 0, s.padded, (s.held * 16 + bits / 4).toUInt8 :: s.read⟩
  | _ => ⟨0, 0, 0, s.padded, (s.held * 64 + bits).toUInt8 :: s.read⟩

/-- The bytes read, if the text may end here. -/
def finish (s : State) : Except Fault Bytes :=
  match s.position with
  | 0 => .ok s.read.reverse
  | 1 => .error (.loneCharacter (s.read.length / 3 * 4 + 1))
  | _ => .error .missingPadding

end State

/-- Reads the rest of a text. -/
def readOn (strict : Bool) : State → Text → Except Fault Bytes
  | s, [] => s.finish
  | s, c :: rest =>
    if c = pad then
      if 2 ≤ s.position && 4 ≤ s.position + (s.pads + 1) then
        if strict && !rest.isEmpty then .error .dataAfterPadding else .ok s.read.reverse
      else
        let pads := if 2 ≤ s.position then s.pads + 1 else s.pads
        readOn strict { s with pads, padded := true } rest
    else
      match bits? c with
      | none => if strict then .error .outsideAlphabet else readOn strict s rest
      | some bits =>
        if strict && s.padded then .error .interruptedPadding else readOn strict (s.take bits) rest

def decode (strict : Bool) (s : Text) : Except Fault Bytes :=
  if s.any (0x7F < ·) then .error .notAscii
  else if strict && s.head? == some pad then .error .leadingPadding
  else readOn strict .start s

end PropertyList.Base64
