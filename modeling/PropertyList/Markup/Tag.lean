import PropertyList.Markup.Reference

/-!
Tags: what stands between angle brackets. A start tag has a name and attributes, whose values are
still unread; a slash at its end makes the element empty.
-/
namespace PropertyList.Markup

/-- Whether a text is a name, with a prefix or without one. -/
def isQualifiedName (latin : Bool) (s : Text) : Bool :=
  let tail := s.dropWhile fun c => c != ch ':'
  isSimpleName latin (s.takeWhile fun c => c != ch ':') &&
    (tail.isEmpty || isSimpleName latin tail.tail)

/-- An attribute as a tag gives it. -/
structure RawAttribute where
  name : Text
  value : Text
  deriving DecidableEq, Repr

inductive Tag where
  | opening (name : Text) (attributes : List RawAttribute) (isEmpty : Bool)
  | closing (name : Text)
  deriving DecidableEq, Repr

/-- Where a reader of attributes stands: between attributes, behind a blank or not; in a name;
between name and equals sign; in front of a value; in a value. Characters read have the last one in
front. -/
inductive AttributeState where
  | between (spaced : Bool)
  | inName (read : Text)
  | afterName (name : Text)
  | beforeValue (name : Text)
  | inValue (name : Text) (mark : CodePoint) (read : Text)
  deriving DecidableEq, Repr

namespace Tag

/-- Reads attributes behind the attributes `found`, the last of which comes first. -/
def readAttributes (latin : Bool) :
    AttributeState → List RawAttribute → Text → Option (List RawAttribute)
  | .between _, found, [] => some found.reverse
  | _, _, [] => none
  | .between spaced, found, c :: rest =>
    if isSpace c then readAttributes latin (.between true) found rest
    else if spaced then readAttributes latin (.inName [c]) found rest
    else none
  | .inName read, found, c :: rest =>
    if c = ch '=' then readAttributes latin (.beforeValue read.reverse) found rest
    else if isSpace c then readAttributes latin (.afterName read.reverse) found rest
    else readAttributes latin (.inName (c :: read)) found rest
  | .afterName name, found, c :: rest =>
    if c = ch '=' then readAttributes latin (.beforeValue name) found rest
    else if isSpace c then readAttributes latin (.afterName name) found rest
    else none
  | .beforeValue name, found, c :: rest =>
    if isSpace c then readAttributes latin (.beforeValue name) found rest
    else if (c = ch '"' || c = ch '\'') && isQualifiedName latin name then
      readAttributes latin (.inValue name c []) found rest
    else none
  | .inValue name mark read, found, c :: rest =>
    if c = mark then readAttributes latin (.between false) (⟨name, read.reverse⟩ :: found) rest
    else readAttributes latin (.inValue name mark (c :: read)) found rest

/-- Reads the inside of a start tag. -/
def readOpening (latin : Bool) (raw : Text) : Option Tag :=
  let isEmpty := raw.getLast? == some (ch '/')
  let raw := if isEmpty then raw.dropLast else raw
  let name := raw.takeWhile fun c => !isSpace c
  if isQualifiedName latin name then
    (readAttributes latin (.between false) [] (raw.dropWhile fun c => !isSpace c)).map
      fun attributes => .opening name attributes isEmpty
  else none

/-- Reads the inside of an end tag, behind the slash. Blanks may follow the name. -/
def readClosing (raw : Text) : Option Tag :=
  let name := raw.takeWhile fun c => !isSpace c
  if (raw.dropWhile fun c => !isSpace c).all isSpace then some (.closing name) else none

/-- Reads what stands between two angle brackets. -/
def read? (latin : Bool) (raw : Text) : Option Tag :=
  match raw with
  | 0x2F :: rest => readClosing rest
  | _ => readOpening latin raw

end Tag

end PropertyList.Markup
