import PropertyList.Markup.Content
import PropertyList.Markup.Namespaces

/-!
Documents as trees. The pieces of a content are put together with a stack of the elements that are
still open.
-/
namespace PropertyList.Markup

/-- What stands in an element: text, or an element with its content. -/
inductive Item where
  | text (s : Text)
  | element (name : Text) (attributes : List Attribute) (content : List Item)
  deriving Repr

mutual

/-- All text inside an item, at any depth. -/
def Item.innerText : Item → Text
  | .text s => s
  | .element _ _ content => innerTextOf content

/-- All text inside a list of items. -/
def innerTextOf : List Item → Text
  | [] => []
  | item :: rest => item.innerText ++ innerTextOf rest

end

/-- A document element. -/
structure Document where
  name : Text
  attributes : List Attribute
  content : List Item
  deriving Repr

/-- An element that is still open: its name as written, its expanded names, the scope inside it, and
its content so far, the last item in front. -/
structure OpenElement where
  rawName : Text
  name : Text
  attributes : List Attribute
  scope : Scope
  content : List Item

/-- The open elements, the innermost one in front, and the document element once it is closed. -/
structure Assembly where
  openElements : List OpenElement
  document : Option Document

namespace Assembly

def start : Assembly := ⟨[], none⟩

/-- Puts a text into the innermost open element. -/
def addText (assembly : Assembly) (s : Text) : Option Assembly :=
  match assembly.openElements with
  | [] => none
  | element :: rest =>
    some
      { assembly with
        openElements := { element with content := .text s :: element.content } :: rest }

def open? (latin : Bool) (policy : AttributePolicy) (assembly : Assembly) (rawName : Text)
    (raw : List RawAttribute) : Option Assembly :=
  if assembly.document.isSome then none
  else
    let scope := match assembly.openElements with
      | [] => Scope.initial
      | element :: _ => element.scope
    (openElement? latin policy scope rawName raw).map fun opening =>
      { assembly with
        openElements :=
          ⟨rawName, opening.name, opening.attributes, opening.scope, []⟩ :: assembly.openElements }

/-- Closes the innermost open element, which has to have the name. -/
def close? (assembly : Assembly) (rawName : Text) : Option Assembly :=
  match assembly.openElements with
  | [] => none
  | element :: rest =>
    if element.rawName ≠ rawName then none
    else match rest with
      | [] => some ⟨[], some ⟨element.name, element.attributes, element.content.reverse⟩⟩
      | parent :: rest =>
        let item := Item.element element.name element.attributes element.content.reverse
        some ⟨{ parent with content := item :: parent.content } :: rest, assembly.document⟩

/-- Line ends of a literal section become line feeds. -/
def endLines : Text → Text → Text
  | read, [] => read.reverse
  | read, c :: rest =>
    if c ≠ ch '\r' then endLines (c :: read) rest
    else if rest.head? = some (ch '\n') then endLines read rest
    else endLines (ch '\n' :: read) rest

def addPiece (latin : Bool) (policy : AttributePolicy) (assembly : Assembly) (piece : Piece) :
    Option Assembly :=
  match piece with
  | .characters raw =>
    if assembly.openElements.isEmpty then (if raw.all isSpace then some assembly else none)
    else (characterData latin raw).bind assembly.addText
  | .cdata raw => assembly.addText (endLines [] raw)
  | .tag raw =>
    match Tag.read? latin raw with
    | none => none
    | some (.closing name) => assembly.close? name
    | some (.opening name attributes isEmpty) =>
      let opened := assembly.open? latin policy name attributes
      if isEmpty then opened.bind fun assembly => assembly.close? name else opened

/-- The document, if every element is closed. -/
def finish (assembly : Assembly) : Option Document :=
  if assembly.openElements.isEmpty then assembly.document else none

end Assembly

/-- The document that pieces make up. -/
def Document.ofPieces? (latin : Bool) (policy : AttributePolicy) (pieces : List Piece) :
    Option Document :=
  (pieces.foldlM (Assembly.addPiece latin policy) Assembly.start).bind Assembly.finish

end PropertyList.Markup
