import PropertyList.Failure
import PropertyList.Node.Check

/-!
Edits of a tree: a child put behind the others, or a value assigned to a field. An edit that fails
leaves the tree as it was.
-/
namespace PropertyList

inductive Edit where
  | append (child : Given Node)
  | assign (field : Text) (value : Value)

namespace Node

/-- Puts a child behind the children of a container. Other nodes take no children in. -/
def append (node : Node) (child : Given Node) : Except Failure Node :=
  match node with
  | .container kind children => do return .container kind (children ++ [← child.get .node])
  | node => .error (.noContainer node.title)

def edit (node : Node) : Edit → Except Failure Node
  | .append child => node.append child
  | .assign field value => titled node.title (node.assign field value)

/-- The child at an index. -/
def childAt (node : Node) (index : Int) : Except Failure Node :=
  match node.child? index with
  | some child => .ok child
  | none => .error (if fitsWord index then .noChild else .hugeIndex)

/-- The node at the end of a path. -/
def at? (node : Node) : List Int → Except Failure Node
  | [] => .ok node
  | index :: path => do (← node.childAt index).at? path

/-- The tree with the node at the end of a path edited. -/
def editAt (root : Node) (path : List Int) (edit : Edit) : Except Failure Node := do
  return root.replace path (← (← root.at? path).edit edit)

end Node

end PropertyList
