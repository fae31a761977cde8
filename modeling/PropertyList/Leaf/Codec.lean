import PropertyList.Leaf.Data
import PropertyList.Leaf.Date
import PropertyList.Leaf.Real
import PropertyList.Node.Basic

/-!
Leaves as elements: a tag and a text. Truth values have a tag each and no text.
-/
namespace PropertyList

/-- The tags of leaves and containers, with the kinds that they stand for. -/
def tags : List (Text × Kind) :=
  [(text "true", .boolean), (text "false", .boolean), (text "integer", .integer),
    (text "real", .real), (text "string", .string), (text "key", .key), (text "data", .data),
    (text "date", .date), (text "array", .array), (text "dict", .dict)]

/-- The kind that a tag stands for. -/
def kindOfTag? (tag : Text) : Option Kind := tags.lookup tag

/-- Passes a text on unless it holds a surrogate, which no encoding form carries. -/
def decodeString (strict : Bool) (tag s : Text) : Run (Option Text) :=
  if s.any isSurrogate then
    if strict then Run.fault (.notUtf8 tag s) else Run.noting (.droppedText tag) none
  else pure (some s)

namespace Leaf

/-- The tag of a leaf. -/
def tag : Leaf → Text
  | .boolean value => if value then text "true" else text "false"
  | .integer _ => text "integer"
  | .real _ => text "real"
  | .string _ => text "string"
  | .key _ => text "key"
  | .data _ => text "data"
  | .date _ => text "date"

/-- The text of a leaf in an element of some depth; a truth value has none. -/
def content? (depth columns : Nat) : Leaf → Option Text
  | .boolean _ => none
  | .integer value => some (decimal value)
  | .real value => some (encodeReal value)
  | .string value => some value
  | .key value => some value
  | .data value => some (encodeData value depth columns)
  | .date value => some (encodeDate value)

/-- Reads a leaf from its tag and text. There is none if the tag is not the tag of a leaf, or if the
text had to be dropped. -/
def decode (strict : Bool) (tag s : Text) : Run (Option Leaf) :=
  match kindOfTag? tag with
  | some .boolean => pure (some (.boolean (tag == text "true")))
  | some .integer => do return some (.integer (← decodeInteger strict s))
  | some .real => do return some (.real (← decodeReal strict s))
  | some .date => do return some (← decodeDate strict s)
  | some .data => do return some (.data (← decodeData strict s))
  | some .string => do
    match ← decodeString strict tag s with
    | none => return none
    | some s => return some (← Run.ofExcept (titled Kind.string.title (Leaf.ofString s)))
  | some .key => do
    match ← decodeString strict tag s with
    | none => return none
    | some s => return some (← Run.ofExcept (titled Kind.key.title (Leaf.ofKey s)))
  | _ => pure none

end Leaf

/-- The tag and the text of a node that is a leaf, for any numbers. -/
def encodeLeaf (node : Node) (depth columns : Int) : Except Failure (Text × Option Text) :=
  match node with
  | .leaf (.data value) => do return (text "data", some (← dataTextOf value depth columns))
  | .leaf l => .ok (l.tag, l.content? 0 1)
  | node => .error (.wrongType .leaf node.className)

end PropertyList
