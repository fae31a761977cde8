import PropertyList.Base64
import PropertyList.Issue
import PropertyList.Leaf.Basic
import PropertyList.Markup.Refusal
import PropertyList.Text.Utf8

/-!
What goes wrong. A strict reader fails where a lenient one leaves a notice and goes on; other
failures do not depend on the reader.
-/
namespace PropertyList

/-- Why a strict reader refuses a well-formed document or the text of a leaf. -/
inductive DecodeFault where
  | notUnsigned (content : Text)
  | integerRange (content : Text)
  | notReal (content : Text)
  | notUtf8 (tag content : Text)
  | notBase64 (fault : Base64.Fault) (content : Text)
  | notDate (content : Text)
  | otherDocument (tag : Text)
  | unknownElement (tag : Text)
  | secondValue (tag : Text)
  deriving DecidableEq, Repr

def inBrackets (tag : Text) : Text := ch '<' :: tag ++ [ch '>']

namespace DecodeFault

def message : DecodeFault → Text
  | .notUnsigned content => text "Invalid unsigned integer: " ++ content.quoted
  | .integerRange content => text "Integer out of range: " ++ content.quoted
  | .notReal content => text "Invalid real: " ++ content.quoted
  | .notUtf8 tag _ => inBrackets tag ++ text " content is not valid UTF-8"
  | .notBase64 fault _ => text "Invalid base64 data: " ++ fault.message
  | .notDate content => text "Invalid date: " ++ content.quoted
  | .otherDocument tag => text "Expected <plist> document element, got " ++ inBrackets tag
  | .unknownElement tag => text "Unknown element " ++ inBrackets tag
  | .secondValue tag => text "More than one top-level value in " ++ inBrackets tag

/-- The tag of the element at fault. -/
def tag : DecodeFault → Text
  | .notUnsigned _ => text "integer"
  | .integerRange _ => text "integer"
  | .notReal _ => text "real"
  | .notUtf8 tag _ => tag
  | .notBase64 _ _ => text "data"
  | .notDate _ => text "date"
  | .otherDocument tag => tag
  | .unknownElement tag => tag
  | .secondValue tag => tag

/-- The text of the leaf at fault. -/
def content? : DecodeFault → Option Text
  | .notUnsigned content => some content
  | .integerRange content => some content
  | .notReal content => some content
  | .notUtf8 _ content => some content
  | .notBase64 _ content => some content
  | .notDate content => some content
  | _ => none

end DecodeFault

/-- Which type a value lacks. -/
inductive Expected where
  | document
  | node
  | leaf
  | config
  deriving DecidableEq, Repr

def Expected.name : Expected → Text
  | .document => text "bytes or str"
  | .node => text "PlistNode"
  | .leaf => text "a leaf node"
  | .config => text "CodecConfig"

inductive Failure where
  | invalid (title : Text) (issues : List Issue)
  | undecodable (fault : DecodeFault)
  | unparsable (refusal : Markup.Refusal) (input : Bytes)
  | encoding (refusal : Markup.Refusal)
  | unencodable (run : SurrogateRun)
  | wrongType (expected : Expected) (className : Text)
  | notModel (shown : Text)
  | noNode (className : Text)
  | noKind
  | noDict (kind : Text)
  | integerRange (n : Int)
  | keyType (typeName : Text)
  | unrepresentable (typeName : Text)
  | callLimit (excess : Text)
  | noContainer (title : Text)
  | noChild
  | hugeIndex
  | unnamedEntry
  | negativeLength (length : Int)
  | columnCount (columns : Int)
  | negativeDepth (depth : Int)
  | hugeDepth
  | hugeNumeral (digits : Nat)
  | hugeInteger
  | unreadableReal (numeral : Text)
  deriving DecidableEq, Repr

namespace Failure

/-- The place where the limit on decimal numerals is set. -/
def raiseLimit : Text := text "use sys.set_int_max_str_digits() to increase the limit"

def exceedsLimit : Text :=
  text "Exceeds the limit (" ++ decimal maxDecimalDigits ++
    text " digits) for integer string conversion"

/-- What is said of a number that no position or length has. -/
def exceedsWord : Text := text "cannot fit 'int' into an index-sized integer"

def message : Failure → Text
  | .invalid title issues =>
    decimal issues.length ++ text " validation errors for " ++ title
  | .undecodable fault => fault.message
  | .unparsable refusal _ =>
    text "Failed to parse property list" ++
      (if refusal = .malformed then [] else text ": " ++ refusal.message)
  | .encoding refusal => refusal.message
  | .unencodable run =>
    let last := run.start + run.length - 1
    text "'utf-8' codec can't encode character" ++
      (if run.length = 1 then
        text " '\\u" ++ hexDigits 4 run.first ++ text "' in position " ++ decimal run.start
      else text "s in position " ++ decimal run.start ++ ch '-' :: decimal last) ++
      text ": surrogates not allowed"
  | .wrongType expected className =>
    text "Expected " ++ expected.name ++ text ", got " ++ className
  | .notModel shown => text "Expected Pydantic BaseModel class, got " ++ shown
  | .noNode className => text "Expected PlistNode, got " ++ className
  | .noKind => text "'PlistNode' object has no attribute 'type'"
  | .noDict kind => text "Expected a dict at the root, got " ++ kind
  | .integerRange n =>
    text "Integer " ++ signedDecimal n ++ text " is outside the unsigned 64-bit range"
  | .keyType typeName => text "Dictionary keys must be str, got " ++ typeName
  | .unrepresentable typeName =>
    text "Cannot represent " ++ typeName ++ text " in a property list"
  | .callLimit excess => text "maximum recursion depth exceeded" ++ excess
  | .noContainer title => Problem.inMarks title ++ text " object has no attribute 'append'"
  | .noChild => text "list index out of range"
  | .hugeIndex => exceedsWord
  | .unnamedEntry => text "keywords must be strings"
  | .negativeLength length =>
    text "length must not be negative, got " ++ signedDecimal length
  | .columnCount columns => text "columns must be positive, got " ++ signedDecimal columns
  | .negativeDepth depth => text "depth must not be negative, got " ++ signedDecimal depth
  | .hugeDepth => exceedsWord
  | .hugeNumeral digits =>
    exceedsLimit ++ text ": value has " ++ decimal digits ++ text " digits; " ++ raiseLimit
  | .hugeInteger => exceedsLimit ++ text "; " ++ raiseLimit
  | .unreadableReal numeral => text "could not convert string to float: " ++ numeral.quoted

end Failure

/-- Something given where a type is wanted: of this type, or of another one. -/
inductive Given (α : Type) where
  | wanted (a : α)
  | other (className : Text)

/-- What is given, if it is of the type that is wanted. -/
def Given.get {α : Type} (expected : Expected) : Given α → Except Failure α
  | .wanted a => .ok a
  | .other className => .error (.wrongType expected className)

/-- The bound of the integers of 64 bits with a sign. -/
def wordBound : Nat := Nat.pow 2 63

/-- Whether a number may be a position or a length. -/
def fitsWord (n : Int) : Bool := -wordBound ≤ n && n < wordBound

/-- What passed its checks, or the issues under a title. An entry without a name is a failure of its
own, whatever else is wrong. -/
def titled {α : Type} (title : Text) (checked : Except (List Issue) α) : Except Failure α :=
  match checked with
  | .ok a => .ok a
  | .error issues =>
    if issues.any fun issue => issue.problem == .unnamedEntry then .error .unnamedEntry
    else .error (.invalid title issues)

end PropertyList
