import PropertyList.Markup.Encoding
import PropertyList.Markup.NameClass

/-!
The declaration in front of a document: the version, then perhaps the encoding and whether the
document stands alone. What follows it is decoded in the encoding that it names.
-/
namespace PropertyList.Markup

/-- A name with a value, and what follows them. -/
structure PseudoAttribute where
  name : Text
  value : Text
  rest : Text

/-- A character of a value in a declaration. -/
def isDeclarationChar (c : CodePoint) : Bool :=
  isLetter c || isDigit c || c == ch '.' || c == ch '-' || c == ch '_'

namespace PseudoAttribute

/-- Reads the next pseudo-attribute; the inner `none` says that only blanks are left. A blank has to
stand in front. -/
def read (s : Text) : Option (Option PseudoAttribute) :=
  match s with
  | [] => some none
  | c :: _ =>
    if !isSpace c then none
    else
      let s := s.dropWhile isSpace
      if s.isEmpty then some none
      else
        let stops (c : CodePoint) : Bool := c == ch '=' || isSpace c
        let name := s.takeWhile fun c => !stops c
        match (s.dropWhile fun c => !stops c).dropWhile isSpace with
        | [] => none
        | equals :: rest =>
          if equals ≠ ch '=' || name.isEmpty || name.any (0x7F < ·) then none
          else
            match rest.dropWhile isSpace with
            | [] => none
            | mark :: rest =>
              if mark ≠ ch '"' && mark ≠ ch '\'' then none
              else
                let value := rest.takeWhile isDeclarationChar
                match rest.dropWhile isDeclarationChar with
                | [] => none
                | closing :: rest => if closing = mark then some (some ⟨name, value, rest⟩) else none

end PseudoAttribute

structure Declaration where
  encoding : Option Text
  standalone : Bool
  deriving DecidableEq, Repr

namespace Declaration

/-- Reads the last pseudo-attribute, `standalone`. -/
def readStandalone (encoding : Option Text) (last : PseudoAttribute) : Option Declaration :=
  if last.name ≠ text "standalone" || !last.rest.all isSpace then none
  else if last.value = text "yes" then some ⟨encoding, true⟩
  else if last.value = text "no" then some ⟨encoding, false⟩
  else none

/-- Reads what stands between the target and the end of a declaration. -/
def read (body : Text) : Option Declaration := do
  let version ← (← PseudoAttribute.read body)
  if version.name ≠ text "version" then none
  else
    match ← PseudoAttribute.read version.rest with
    | none => some ⟨none, false⟩
    | some second =>
      if second.name ≠ text "encoding" then readStandalone none second
      else if !isLetter (second.value.headD 0) then none
      else
        match ← PseudoAttribute.read second.rest with
        | none => some ⟨some second.value, false⟩
        | some third => readStandalone (some second.value) third

end Declaration

/-- Splits a text behind the first question mark that an angle bracket follows. The first part,
without these two, has its last character in front. -/
def splitInstruction : Text → Text → Option (Text × Text)
  | _, [] => none
  | body, c :: rest =>
    if c = ch '>' && body.head? = some (ch '?') then some (body.tail, rest)
    else splitInstruction (c :: body) rest

/-- A document after its declaration: whether Latin 1 signs count as letters, whether the document
stands alone, its characters, and whether a part of a character is left over behind them. -/
structure Source where
  latin : Bool
  standalone : Bool
  body : Text
  isCut : Bool

/-- The target of a declaration with the mark that opens it. -/
def declarationStart : Text := text "<?xml"

/-- Decodes a document and takes its declaration off. -/
def Source.ofBytes (bytes : Bytes) : Except Refusal Source :=
  let (encoding, markLength) := Encoding.detect bytes
  let bytes := bytes.drop markLength
  let s := encoding.decode bytes
  let isCut := encoding.cutsUnit bytes
  let afterTarget := s.drop declarationStart.length
  let opensDeclaration := match afterTarget with
    | [] => false
    | c :: _ => isSpace c || c == ch '?'
  if s.take declarationStart.length = declarationStart && opensDeclaration then
    match splitInstruction [] afterTarget with
    | none => .error .malformed
    | some (body, rest) =>
      match Declaration.read body.reverse with
      | none => .error .malformed
      | some declaration =>
        match declaration.encoding with
        | none => .ok ⟨encoding.hasLatinSigns, declaration.standalone, rest, isCut⟩
        | some name => do
          let next ← encoding.named name
          if next = encoding then
            .ok ⟨encoding.hasLatinSigns, declaration.standalone, rest, isCut⟩
          else
            let read := declarationStart.length + body.length + 2
            let bytes := bytes.drop (read * encoding.unitWidth)
            .ok ⟨next.hasLatinSigns, declaration.standalone, next.decode bytes,
              next.cutsUnit bytes⟩
  else .ok ⟨encoding.hasLatinSigns, false, s, isCut⟩

end PropertyList.Markup
