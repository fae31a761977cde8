import PropertyList.Markup.NameClass

/-!
The pieces of markup that end at a mark of their own: comments, instructions and literal sections.
-/
namespace PropertyList.Markup

inductive Section where
  | comment
  | instruction
  | cdata
  deriving DecidableEq, Repr

/-- What a further character does to a section. -/
inductive Progress where
  | goesOn (read : Text)
  | closes (content : Text)
  | fails
  deriving DecidableEq, Repr

/-- Whether a text is an instruction to a processor: a target other than `xml`, and blanks in front
of all else. -/
def isInstruction (latin : Bool) (content : Text) : Bool :=
  let target := content.takeWhile fun c => !isSpace c
  isSimpleName latin target && target.map lowerAscii != text "xml"

namespace Section

/-- Takes in a character behind the characters `read`, the last of which comes first. Two hyphens in
a comment have to end it. -/
def step (latin : Bool) (kind : Section) (read : Text) (c : CodePoint) : Progress :=
  if !isXmlChar c then .fails
  else match kind with
    | .comment =>
      match read with
      | 0x2D :: 0x2D :: rest => if c = ch '>' then .closes rest.reverse else .fails
      | _ => .goesOn (c :: read)
    | .instruction =>
      match read with
      | 0x3F :: rest =>
        if c ≠ ch '>' then .goesOn (c :: read)
        else if isInstruction latin rest.reverse then .closes rest.reverse
        else .fails
      | _ => .goesOn (c :: read)
    | .cdata =>
      match read with
      | 0x5D :: 0x5D :: rest => if c = ch '>' then .closes rest.reverse else .goesOn (c :: read)
      | _ => .goesOn (c :: read)

/-- The text between `<!` and the section that it opens. -/
def mark : Section → Text
  | .comment => text "--"
  | .instruction => []
  | .cdata => text "[CDATA["

/-- The section that the characters behind `<!` open. -/
def opened? (read : Text) : Option Section :=
  if read = mark .comment then some .comment
  else if read = mark .cdata then some .cdata
  else none

/-- Whether the characters behind `<!` may still open a section. -/
def mayOpen (read : Text) : Bool :=
  read.isPrefixOf (mark .comment) || read.isPrefixOf (mark .cdata)

end Section

end PropertyList.Markup
