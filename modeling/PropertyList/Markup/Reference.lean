import PropertyList.Markup.NameClass
import PropertyList.Number.Positional

/-!
References: an ampersand and a semicolon around a number or a name. Numbers and the five predefined
names stand for one character; any other name stands for an entity, which nobody has declared.
-/
namespace PropertyList.Markup

inductive Reference where
  | character (c : CodePoint)
  | entity (name : Text)
  deriving DecidableEq, Repr

/-- The predefined names. -/
def predefined : List (Text × CodePoint) :=
  [(text "amp", ch '&'), (text "lt", ch '<'), (text "gt", ch '>'), (text "apos", ch '\''),
    (text "quot", ch '"')]

namespace Reference

/-- The character with a given number, if a document may hold it. -/
def ofNumeral? (base : Nat) (isNumeral : CodePoint → Bool) (s : Text) : Option Reference :=
  let n := numeralValue base s
  if !s.isEmpty && s.all isNumeral && isXmlChar n then some (.character n) else none

/-- What the text between ampersand and semicolon refers to; none if it is no reference. -/
def read? (latin : Bool) (body : Text) : Option Reference :=
  match body with
  | 0x23 :: 0x78 :: numeral => ofNumeral? 16 isHexDigit numeral
  | 0x23 :: numeral => ofNumeral? 10 isDigit numeral
  | name =>
    match predefined.lookup name with
    | some c => some (.character c)
    | none => if isSimpleName latin name then some (.entity name) else none

end Reference

/-- How a kind of text is read: what a literal character gives, none where it may not stand, and
whether a reference to an entity is passed over. -/
structure TextRule where
  literal : CodePoint → Option CodePoint
  skipsEntities : Bool

namespace TextRule

/-- Reads a text behind the characters `read`, the last of which comes first. Inside a reference,
`pending` holds its characters so far, in the same order. A carriage return in front of a line feed
is dropped. -/
def readOnto (latin : Bool) (rule : TextRule) : Option Text → Text → Text → Option Text
  | none, read, [] => some read.reverse
  | some _, _, [] => none
  | none, read, c :: rest =>
    if c = ch '&' then readOnto latin rule (some []) read rest
    else if c = ch '\r' && rest.head? = some (ch '\n') then readOnto latin rule none read rest
    else
      match rule.literal c with
      | some d => readOnto latin rule none (d :: read) rest
      | none => none
  | some pending, read, c :: rest =>
    if c ≠ ch ';' then readOnto latin rule (some (c :: pending)) read rest
    else
      match Reference.read? latin pending.reverse with
      | some (.character d) => readOnto latin rule none (d :: read) rest
      | some (.entity _) =>
        if rule.skipsEntities then readOnto latin rule none read rest else none
      | none => none

def read (latin : Bool) (rule : TextRule) (s : Text) : Option Text := readOnto latin rule none [] s

end TextRule

/-- Whether a text holds the mark that ends a literal section. -/
def holdsSectionEnd : Text → Bool
  | [] => false
  | c :: rest => (c == ch ']' && rest.take 2 == text "]>") || holdsSectionEnd rest

/-- The characters of an element's content. Every line ends with a line feed alone. -/
def characterRule : TextRule where
  literal c := if !isXmlChar c then none else if c = ch '\r' then some (ch '\n') else some c
  skipsEntities := false

/-- The text that character data denotes. -/
def characterData (latin : Bool) (s : Text) : Option Text :=
  if holdsSectionEnd s then none else characterRule.read latin s

/-- The value of an attribute. Every blank becomes a space, and no tag opens in a value. -/
def attributeRule (skipsEntities : Bool) : TextRule where
  literal c :=
    if !isXmlChar c || c = ch '<' then none else if isSpace c then some 0x20 else some c
  skipsEntities

/-- Single spaces for runs of them, and none at the ends. -/
def singleSpaces (s : Text) : Text :=
  let spaced := s.foldr
    (fun c rest => if c = 0x20 && (rest.isEmpty || rest.head? = some 0x20) then rest else c :: rest)
    []
  if spaced.head? = some 0x20 then spaced.tail else spaced

end PropertyList.Markup
