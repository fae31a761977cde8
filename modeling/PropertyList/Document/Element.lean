import PropertyList.Document.Layout

/-!
Elements to be written. An element keeps two texts: the one in front of its first child, and the one
that follows the element itself in its parent. An element that grows is a draft; what is put behind
all that it holds goes to its last child, or to its own text if it has no child yet.
-/
namespace PropertyList

structure Element where
  tag : Text
  attributes : List (Text × Text)
  head : Option Text
  children : List Element
  tail : Text

/-- An element that grows: its children so far, the last one in front. -/
structure Draft where
  tag : Text
  attributes : List (Text × Text)
  head : Text
  children : List Element

namespace Draft

/-- The container of a tag; its first child goes on a new line. -/
def ofTag (tag : Text) (attributes : List (Text × Text)) : Draft := ⟨tag, attributes, text "\n", []⟩

def add (draft : Draft) (element : Element) : Draft :=
  { draft with children := element :: draft.children }

def addText (draft : Draft) (s : Text) : Draft :=
  match draft.children with
  | [] => { draft with head := draft.head ++ s }
  | last :: before => { draft with children := { last with tail := last.tail ++ s } :: before }

/-- Puts an element on a line of its own. -/
def addLine (draft : Draft) (depth : Nat) (element : Element) : Draft :=
  ((draft.addText (tabs depth)).add element).addText (text "\n")

def element (draft : Draft) : Element :=
  ⟨draft.tag, draft.attributes, some draft.head, draft.children.reverse, []⟩

end Draft

/-- Puts a text in the place of every copy of a character. -/
def Text.replaced (s : Text) (c : CodePoint) (reference : Text) : Text :=
  s.flatMap fun d => if d = c then reference else [d]

/-- The references that are put in everywhere, in their order. -/
def markupReferences : List (CodePoint × Text) :=
  [(ch '&', text "&amp;"), (ch '>', text "&gt;"), (ch '<', text "&lt;")]

/-- The further references in the text of an element. A carriage return written as it is would be
read as a line feed. -/
def textReferences : List (CodePoint × Text) :=
  [(ch '\'', text "&apos;"), (ch '"', text "&quot;"), (ch '\r', text "&#13;")]

/-- The further references in the value of an attribute. -/
def attributeReferences : List (CodePoint × Text) := [(ch '"', text "&quot;")]

/-- Puts references in one after another. -/
def Text.escapedWith (references : List (CodePoint × Text)) (s : Text) : Text :=
  (markupReferences ++ references).foldl (fun s entry => s.replaced entry.1 entry.2) s

namespace Element

/-- The element of a leaf at some depth. -/
def ofLeaf (depth columns : Nat) (leaf : Leaf) : Element :=
  ⟨leaf.tag, [], leaf.content? depth columns, [], []⟩

/-- The name of an element with its attributes, as they stand in its first tag. -/
def opening (element : Element) : Text :=
  element.tag ++ element.attributes.flatMap fun entry =>
    ch ' ' :: entry.1 ++ text "=\"" ++ entry.2.escapedWith attributeReferences ++ [ch '"']

/-- An element without text and children is written as one tag. -/
def isEmpty (element : Element) : Bool := element.head.isNone && element.children.isEmpty

mutual

/-- The number of elements, the element itself included. -/
def count : Element → Nat
  | ⟨_, _, _, children, _⟩ => countAll children + 1

def countAll : List Element → Nat
  | [] => 0
  | element :: rest => element.count + countAll rest

end

theorem count_eq (element : Element) : element.count = countAll element.children + 1 := by
  cases element
  rfl

end Element

end PropertyList
