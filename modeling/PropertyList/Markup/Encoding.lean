import PropertyList.Markup.CodePage
import PropertyList.Markup.Refusal
import PropertyList.Text.Utf8

/-!
Encodings of documents. A document in doubt is UTF-8; a byte order mark or a zero byte near the
front tells UTF-16, and the declaration may name another encoding. Decoding stops at the first
byte that gives no character a document may hold, and leaves a mark there that no reader accepts.
A code unit that is cut off at the end leaves no mark.
-/
namespace PropertyList.Markup

inductive Encoding where
  | ascii
  | tildeless
  | latin1
  | utf8
  | utf16 (bigEndian : Bool)
  | page (upper : Text)
  deriving DecidableEq

namespace Encoding

/-- The number of bytes in a code unit. -/
def unitWidth : Encoding → Nat
  | .utf16 _ => 2
  | _ => 1

/-- Whether the three Latin 1 signs count as letters. -/
def hasLatinSigns : Encoding → Bool
  | .latin1 => true
  | .utf16 _ => true
  | _ => false

/-- A pair of code units gives its ten low bits each. The second unit is not looked at any closer. -/
def utf16Head (bigEndian : Bool) (bytes : Bytes) : Option (CodePoint × Nat) :=
  let unit (a b : UInt8) : Nat :=
    if bigEndian then a.toNat * 256 + b.toNat else b.toNat * 256 + a.toNat
  match bytes with
  | a :: b :: rest =>
    let high := unit a b
    if 0xD800 ≤ high && high ≤ 0xDBFF then
      match rest with
      | c :: d :: _ => some (0x10000 + (high - 0xD800) * 0x400 + unit c d % 0x400, 4)
      | _ => none
    else some (high, 2)
  | _ => none

def pageHead (upper : Text) (b : Nat) : Option (CodePoint × Nat) :=
  if b < 0x80 then some (b, 1)
  else
    let c := upper.getD (b - 0x80) 0xFFFD
    if c = 0xFFFD then none else some (c, 1)

/-- The first character of a byte sequence with the number of its bytes. -/
def head? (e : Encoding) (bytes : Bytes) : Option (CodePoint × Nat) :=
  match e, bytes with
  | _, [] => none
  | .ascii, b :: _ => if b.toNat < 0x80 then some (b.toNat, 1) else none
  | .tildeless, b :: _ => if b.toNat < 0x80 && b.toNat ≠ ch '~' then some (b.toNat, 1) else none
  | .latin1, b :: _ => some (b.toNat, 1)
  | .utf8, bytes => utf8Head ((bytes.take 4).map UInt8.toNat)
  | .utf16 bigEndian, bytes => utf16Head bigEndian bytes
  | .page upper, b :: _ => pageHead upper b.toNat

/-- The mark left where decoding stops. -/
def unreadable : CodePoint := 0

/-- Decodes behind the characters `read`, the last of which comes first; `skip` bytes belong to the
last of them. -/
def decodeOnto (e : Encoding) : Nat → Text → Bytes → Text
  | _, read, [] => read.reverse
  | skip + 1, read, _ :: rest => decodeOnto e skip read rest
  | 0, read, b :: rest =>
    match e.head? (b :: rest) with
    | some (c, length) =>
      if isXmlChar c then decodeOnto e (length - 1) (c :: read) rest
      else (unreadable :: read).reverse
    | none =>
      if (b :: rest).length < e.unitWidth then read.reverse else (unreadable :: read).reverse

/-- Whether the last code unit of a byte sequence is cut off. -/
def cutsUnit (e : Encoding) (bytes : Bytes) : Bool := bytes.length % e.unitWidth != 0

def decode (e : Encoding) (bytes : Bytes) : Text := decodeOnto e 0 [] bytes

/-- The encoding that the first bytes show, and the number of bytes in its mark. -/
def detect (bytes : Bytes) : Encoding × Nat :=
  match bytes with
  | 0xFE :: 0xFF :: _ => (.utf16 true, 2)
  | 0xFF :: 0xFE :: _ => (.utf16 false, 2)
  | 0xEF :: 0xBB :: 0xBF :: _ => (.utf8, 3)
  | 0 :: _ :: _ => (.utf16 true, 0)
  | _ :: 0 :: _ => (.utf16 false, 0)
  | _ => (.utf8, 0)

/-- The encodings known by their own names, in small letters. -/
def builtIn : List (String × Encoding) :=
  [("iso-8859-1", .latin1), ("us-ascii", .ascii), ("utf-8", .utf8), ("utf-16", .utf16 true),
    ("utf-16be", .utf16 true), ("utf-16le", .utf16 false)]

/-- The encoding of one byte per character that a name denotes. -/
def ofPageName (name : Text) : Except Refusal Encoding :=
  let normal := normalizeName name
  if isListed nonTextNames normal then .error (.nonTextEncoding name)
  else if isListed multiByteNames normal then .error .multiByteEncoding
  else if isListed displacedNames normal then .error .malformed
  else if isListed tildelessNames normal then .ok .tildeless
  else if isListed asciiOnlyNames normal then .error .asciiOnlyEncoding
  else match uselessNames.find? fun entry => isListed [entry.1] normal with
  | some entry => .error (.uselessEncoding name (text entry.2))
  | none =>
    match codePages.find? fun entry => isListed entry.names normal with
    | some found => .ok (.page found.upper)
    | none => .error (.unknownEncoding name)

/-- The encoding that a document in encoding `current` turns to when its declaration gives a name.
A built-in encoding has to agree with the code units of the declaration itself. -/
def named (current : Encoding) (name : Text) : Except Refusal Encoding :=
  let lower := name.map lowerAscii
  if lower = text "utf-16" && current.unitWidth = 2 then .ok current
  else match builtIn.find? fun entry => text entry.1 == lower with
    | some (_, e) =>
      if e.unitWidth ≠ current.unitWidth || (e.unitWidth = 2 && e ≠ current) then .error .malformed
      else .ok e
    | none => ofPageName name

end Encoding

end PropertyList.Markup
