import PropertyList.Run
import PropertyList.Text.Blank
import PropertyList.Text.Block

/-!
Bytes in documents: Base64 in an indented block. Blanks do not count when it is read.
-/
namespace PropertyList

/-- The text of bytes in an element of some depth. No bytes have no text. -/
def encodeData (bytes : Bytes) (depth columns : Nat) : Text :=
  if bytes.isEmpty then [] else (Base64.encode bytes).block depth columns

/-- Reads the text of bytes. -/
def decodeData (strict : Bool) (s : Text) : Run Bytes :=
  match Base64.decode strict s.compact with
  | .ok bytes => pure bytes
  | .error fault =>
    if strict then Run.fault (.notBase64 fault s) else Run.noting .notBase64 []

/-- The block of a text, for any numbers; the columns are looked at first. -/
def blockOf (s : Text) (depth columns : Int) : Except Failure Text :=
  if columns < 1 then .error (.columnCount columns)
  else if depth < 0 then .error (.negativeDepth depth)
  else if !fitsWord depth then .error .hugeDepth
  else .ok (s.block depth.toNat columns.toNat)

/-- The text of bytes, for any numbers. -/
def dataTextOf (bytes : Bytes) (depth columns : Int) : Except Failure Text :=
  if bytes.isEmpty then .ok [] else blockOf (Base64.encode bytes) depth columns

end PropertyList
