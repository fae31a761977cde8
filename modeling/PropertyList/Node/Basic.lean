import PropertyList.Leaf.Basic

/-!
Nodes of a property list: leaves, and containers that hold nodes in order. The children of a
dictionary alternate between keys and values by convention only. A bare node is of no kind; it can
be held, but not written.
-/
namespace PropertyList

inductive ContainerKind where
  | array
  | dict
  deriving DecidableEq, Repr

def ContainerKind.kind : ContainerKind → Kind
  | .array => .array
  | .dict => .dict

inductive Node where
  | leaf (leaf : Leaf)
  | container (kind : ContainerKind) (children : List Node)
  | bare
  deriving Repr

instance : Inhabited Node := ⟨.bare⟩

namespace Node

@[match_pattern]
abbrev array (children : List Node) : Node := .container .array children

@[match_pattern]
abbrev dict (children : List Node) : Node := .container .dict children

def kind? : Node → Option Kind
  | .leaf l => some l.kind
  | .container kind _ => some kind.kind
  | .bare => none

/-- The name under which a node stands in the titles of issues. -/
def title (node : Node) : Text :=
  match node.kind? with
  | some kind => kind.title
  | none => text "PlistNode"

/-- The type of a node, as messages show it. -/
def className (node : Node) : Text := text "<class 'plistxml.types." ++ node.title ++ text "'>"

def isContainer : Node → Bool
  | .container _ _ => true
  | _ => false

/-- The children of a container; a leaf has none. -/
def children : Node → List Node
  | .container _ children => children
  | _ => []

mutual

/-- A node that a property list admits, at every depth. -/
def Valid : Node → Prop
  | .leaf l => l.Valid
  | .container _ children => AllValid children
  | .bare => False

def AllValid : List Node → Prop
  | [] => True
  | node :: rest => node.Valid ∧ AllValid rest

end

mutual

/-- The number of nodes, the node itself included. -/
def count : Node → Nat
  | .leaf _ => 1
  | .container _ children => countAll children + 1
  | .bare => 1

def countAll : List Node → Nat
  | [] => 0
  | node :: rest => node.count + countAll rest

end

mutual

/-- Equality of nodes: the same kind, and equal payloads or children. -/
def same : Node → Node → Bool
  | .leaf a, .leaf b => a.same b
  | .container k as, .container l bs => k == l && sameAll as bs
  | .bare, .bare => true
  | _, _ => false

def sameAll : List Node → List Node → Bool
  | [], [] => true
  | a :: as, b :: bs => a.same b && sameAll as bs
  | _, _ => false

end

/-- Puts children behind the children of a container; all other nodes stay. -/
def appendAll (node : Node) (more : List Node) : Node :=
  match node with
  | .container kind children => .container kind (children ++ more)
  | node => node

/-- Children taken two at a time; the last one may lack a partner. -/
def pairs : List Node → List (Node × Option Node)
  | [] => []
  | [key] => [(key, none)]
  | key :: value :: rest => (key, some value) :: pairs rest

/-- The entries of a dictionary. -/
def items (node : Node) : List (Node × Option Node) := pairs node.children

/-- The position that an index means; a negative one counts from the end. -/
def position? (length : Nat) (index : Int) : Option Nat :=
  let i := if index < 0 then index + length else index
  if 0 ≤ i && i < length then some i.toNat else none

/-- The child at an index. -/
def child? (node : Node) (index : Int) : Option Node := do
  node.children[← position? node.children.length index]?

/-- The node with the descendant at the end of a path replaced. -/
def replace (node : Node) (path : List Int) (descendant : Node) : Node :=
  match path, node with
  | [], _ => descendant
  | index :: path, .container kind children =>
    match position? children.length index with
    | some i =>
      .container kind (children.modify i fun child => child.replace path descendant)
    | none => node
  | _, _ => node

end Node

/-- The number of steps that a stack takes, if `steps` counts those of each thing on it. Work on a
stack ends because every step lowers this number. -/
def stackSteps {α : Type} (steps : α → Nat) : List α → Nat
  | [] => 0
  | top :: rest => steps top + stackSteps steps rest

@[simp]
theorem stackSteps_append {α : Type} (steps : α → Nat) (a b : List α) :
    stackSteps steps (a ++ b) = stackSteps steps a + stackSteps steps b := by
  induction a with
  | nil => simp [stackSteps]
  | cons top rest ih => simp only [List.cons_append, stackSteps, ih, Nat.add_assoc]

end PropertyList
