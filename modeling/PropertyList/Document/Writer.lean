import PropertyList.Config
import PropertyList.Document.Element

/-!
Writing documents. `build` puts a tree into elements, and `writeElements` writes the elements out,
each with a stack of what is still to be done, so that the depth of a tree does not matter.
-/
namespace PropertyList

/-- Something that is still to be put into elements: a node at some depth, or the end of a container
that stands in `parent`. -/
inductive Pending where
  | node (node : Node) (depth : Nat)
  | close (parent : Draft) (depth : Nat)

namespace Pending

/-- The number of steps that something takes. -/
def steps : Pending → Nat
  | .node n _ => 2 * n.count
  | .close _ _ => 1

/-- The children of a container, one level deeper. -/
def children (depth : Nat) (nodes : List Node) : List Pending :=
  nodes.map fun n => .node n (depth + 1)

theorem stackSteps_children (depth : Nat) (nodes : List Node) :
    stackSteps steps (children depth nodes) = 2 * Node.countAll nodes := by
  induction nodes with
  | nil => rfl
  | cons n rest ih =>
    simp only [children] at ih
    simp only [children, List.map_cons, stackSteps, ih, steps, Node.countAll]
    omega

end Pending

/-- Puts what is on the stack into the element in hand. The end tag of a container lines up with its
first one. -/
def build (columns : Nat) (stack : List Pending) (draft : Draft) : Except Failure Element :=
  match stack with
  | [] => .ok draft.element
  | .close parent depth :: stack =>
    build columns stack (parent.addLine depth (draft.addText (tabs depth)).element)
  | .node (.leaf l) depth :: stack =>
    build columns stack (draft.addLine depth (.ofLeaf depth columns l))
  | .node (.container kind children) depth :: stack =>
    build columns (Pending.children depth children ++ .close draft depth :: stack)
      (.ofTag kind.tag [])
  | .node .bare _ :: _ => .error (.wrongType .leaf Node.bare.className)
termination_by stackSteps Pending.steps stack
decreasing_by
  · simp [stackSteps, Pending.steps]
  · simp [stackSteps, Pending.steps, Node.count]
  · simp [stackSteps, Pending.stackSteps_children, Pending.steps, Node.count]
    omega

/-- A text that grows at its end: its pieces, the last one in front. -/
abbrev Pieces := List Text

def Pieces.toText (pieces : Pieces) : Text := pieces.reverse.flatten

/-- Something that is still to be written: an element, or the end of one. -/
inductive Unwritten where
  | element (element : Element)
  | ending (element : Element)

namespace Unwritten

/-- The number of steps that something takes. -/
def steps : Unwritten → Nat
  | .element e => 2 * e.count
  | .ending _ => 1

def elements (elements : List Element) : List Unwritten := elements.map .element

theorem stackSteps_elements (elements : List Element) :
    stackSteps steps (Unwritten.elements elements) = 2 * Element.countAll elements := by
  induction elements with
  | nil => rfl
  | cons e rest ih =>
    simp only [Unwritten.elements] at ih
    simp only [Unwritten.elements, List.map_cons, stackSteps, ih, steps, Element.countAll]
    omega

end Unwritten

/-- Writes what is on the stack behind the pieces written. -/
def writeElements (stack : List Unwritten) (written : Pieces) : Pieces :=
  match stack with
  | [] => written
  | .ending e :: stack =>
    writeElements stack (e.tail.escapedWith textReferences :: closeTag e.tag :: written)
  | .element e :: stack =>
    if e.isEmpty then
      writeElements stack (e.tail.escapedWith textReferences :: emptyTag e.opening :: written)
    else
      writeElements (Unwritten.elements e.children ++ .ending e :: stack)
        ((e.head.getD []).escapedWith textReferences :: openTag e.opening :: written)
termination_by stackSteps Unwritten.steps stack
decreasing_by
  · simp [stackSteps, Unwritten.steps]
  · simp [stackSteps, Unwritten.steps, Element.count_eq]
  · simp [stackSteps, Unwritten.stackSteps_elements, Unwritten.steps, Element.count_eq]
    omega

def xmlDeclaration : Text := text "<?xml version=\"1.0\" encoding=\"UTF-8\"?>"

def documentType : Text :=
  text "<!DOCTYPE plist PUBLIC \"-//Apple Computer//DTD PLIST 1.0//EN\" " ++
    text "\"http://www.apple.com/DTDs/PropertyList-1.0.dtd\">"

/-- The document element, which holds nothing yet. -/
def emptyRoot : Draft := .ofTag (text "plist") [(text "version", text "1.0")]

/-- The document of a tree. -/
def write (config : Config) (tree : Node) : Except Failure Text := do
  let root ← build config.columns [.node tree 0] emptyRoot
  let written := writeElements [.element root]
    [text "\n", documentType, text "\n", xmlDeclaration]
  return Pieces.toText (text "\n" :: written)

end PropertyList
