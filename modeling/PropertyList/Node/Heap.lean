import PropertyList.Node.Check

/-!
Nodes with an identity. A program may hold one node in several places, as a child of several
containers or of itself; what it does to the node shows in all of them. Here every node has a cell of
its own, and a container holds its children by the places of their cells.

What is given for fields are objects of any type. A library converts them to what the fields are
declared as; here stands what the classes of the nodes declare, what they check beyond that, and when
a field is stored.
-/
namespace PropertyList

/-- The place of a cell. -/
abbrev Ref := Nat

/-- What a field is declared as. Texts have to stand in XML documents. -/
inductive Declared where
  | constant (value : Text)
  | boolean
  | integer (least greatest : Int)
  | real
  | text
  | bytes
  | children
  deriving DecidableEq, Repr

/-- What a field holds. -/
inductive Content where
  | boolean (value : Bool)
  | integer (value : Int)
  | real (value : Binary64)
  | text (value : Text)
  | bytes (value : Bytes)
  | children (refs : List Ref)
  deriving Repr

/-- Puts a child behind the others. -/
def Content.push (ref : Ref) : Content → Content
  | .children refs => .children (refs ++ [ref])
  | content => content

/-- A field of a class, with what it holds if nothing is given for it. -/
structure Field where
  name : Text
  declared : Declared
  initial : Content
  deriving Repr

/-- The fields of the class for a kind, in order. The first one is the tag. -/
def Kind.fields (kind : Kind) : List Field :=
  ⟨text "type", .constant kind.name, .text kind.name⟩ ::
    match kind with
    | .boolean => [⟨text "value", .boolean, .boolean false⟩]
    | .integer => [⟨text "value", .integer 0 maxInteger, .integer 0⟩]
    | .real => [⟨text "value", .real, .real .zero⟩]
    | .string => [⟨text "value", .text, .text []⟩]
    | .key => [⟨text "value", .text, .text []⟩]
    | .data => [⟨text "value", .bytes, .bytes []⟩]
    | .date => [⟨text "seconds", .integer minSeconds maxSeconds, .integer 0⟩,
        ⟨text "microseconds", .integer 0 maxMicroseconds, .integer 0⟩]
    | .array => [⟨text "children", .children, .children []⟩]
    | .dict => [⟨text "children", .children, .children []⟩]

/-- A node as it is stored: the kind that its class is for, and what its fields hold. A bare node has
the class that all others are derived from, which is for no kind. -/
structure Cell where
  kind? : Option Kind
  contents : List (Text × Content)
  deriving Repr

namespace Cell

def bare : Cell := ⟨none, []⟩

/-- The name of the class. -/
def title (cell : Cell) : Text :=
  match cell.kind? with
  | some kind => kind.title
  | none => Node.title .bare

def isContainer (cell : Cell) : Bool := (cell.kind?.bind Kind.container?).isSome

/-- The field of a name. -/
def field? (cell : Cell) (name : Text) : Option Field := do
  (← cell.kind?).fields.find? fun field => field.name == name

/-- Changes what a field holds. -/
def update (cell : Cell) (name : Text) (change : Content → Content) : Cell :=
  { cell with contents := cell.contents.map fun entry =>
      if entry.1 = name then (entry.1, change entry.2) else entry }

end Cell

/-- All nodes of a program, in the order in which they were made. -/
abbrev Heap := List Cell

/-- The node at a place. -/
def Heap.cellAt (heap : Heap) (ref : Ref) : Cell := (heap[ref]?).getD .bare

/-- A check of objects. It may make nodes, whether it succeeds or not. -/
def Check (α : Type) : Type := Heap → Except (List Issue) α × Heap

namespace Check

variable {α β : Type}

def ofExcept (result : Except (List Issue) α) : Check α := fun heap => (result, heap)

def map (f : α → β) (check : Check α) : Check β := fun heap =>
  ((check heap).1.map f, (check heap).2)

/-- A check with its issues moved one step further in. -/
def inside (step : Place) (check : Check α) : Check α := fun heap =>
  (issuesInside step (check heap).1, (check heap).2)

/-- Two checks. The second one is made even if the first one fails, and the issues are those of both. -/
def both (first : Check α) (second : Check β) : Check (α × β) := fun heap =>
  (PropertyList.both (first heap).1 (second (first heap).2).1, (second (first heap).2).2)

/-- Makes a node of a kind with the fields that were checked. -/
def making (kind : Kind) (check : Check (List (Text × Content))) : Check Ref := fun heap =>
  let reached := (check heap).2
  match (check heap).1 with
  | .ok contents => (.ok reached.length, reached ++ [⟨some kind, contents⟩])
  | .error issues => (.error issues, reached)

/-- Carries a check out. Its issues are reported under a title. -/
def run (title : Text) (check : Check α) : EStateM Failure Heap α := fun heap =>
  match titled title (check heap).1 with
  | .ok a => .ok a (check heap).2
  | .error failure => .error failure (check heap).2

end Check

/-- What an object that is given for a child stands for: a node, which is taken as it is, or the
fields of a new one of some kind. -/
inductive Child (Object : Type) where
  | node (ref : Ref)
  | made (kind : Kind) (given : List (Text × Object))

/-- A library that converts objects to what fields are declared as, or says what is wrong with them.
A constant is only compared. Whether an object stands for a child may depend on the nodes that there
are, and on the node whose field is assigned, if one is. -/
structure Checker (Object : Type) where
  isConstant : Text → Object → Bool
  boolean : Object → Except (List Issue) Bool
  integer : Object → Except (List Issue) Int
  real : Object → Except (List Issue) Binary64
  text : Object → Except (List Issue) Text
  bytes : Object → Except (List Issue) Bytes
  items : Object → Except (List Issue) (List Object)
  child : Option Ref → Heap → Object → Except (List Issue) (Child Object)
  /-- What is wrong with objects inside each other that are too deep. -/
  tooDeep : List Issue

section Fields

variable {Object : Type} (checker : Checker Object) (children : Object → Check (List Ref))

/-- The number that an object is converted to, if it is between two bounds. -/
def Checker.integerIn (least greatest : Int) (object : Object) : Except (List Issue) Int := do
  let n ← checker.integer object
  match rangeProblem? least greatest n with
  | some problem => .error [⟨[], problem⟩]
  | none => .ok n

/-- The text that an object is converted to, if XML documents admit its characters. -/
def Checker.xmlText (object : Object) : Except (List Issue) Text := do
  let s ← checker.text object
  match characterProblem? s with
  | some problem => .error [⟨[], problem⟩]
  | none => .ok s

/-- Checks what is given for a field. -/
def Declared.check : Declared → Object → Check Content
  | .constant s, object =>
    .ofExcept (if checker.isConstant s object then .ok (.text s)
      else .error [⟨[], .otherConstant s⟩])
  | .boolean, object => .ofExcept ((checker.boolean object).map .boolean)
  | .integer least greatest, object =>
    .ofExcept ((checker.integerIn least greatest object).map .integer)
  | .real, object => .ofExcept ((checker.real object).map .real)
  | .text, object => .ofExcept ((checker.xmlText object).map .text)
  | .bytes, object => .ofExcept ((checker.bytes object).map .bytes)
  | .children, object => (children object).map .children

def Field.check (field : Field) (given : List (Text × Object)) : Check Content :=
  match given.lookup field.name with
  | none => .ofExcept (.ok field.initial)
  | some object => (field.declared.check checker children object).inside (.field field.name)

/-- Checks all fields of a class. What is given under other names does not count. -/
def checkFields (given : List (Text × Object)) : List Field → Check (List (Text × Content))
  | [] => .ofExcept (.ok [])
  | field :: rest =>
    ((field.check checker children given).both (checkFields given rest)).map
      fun parts => (field.name, parts.1) :: parts.2

/-- Makes a node of its fields. -/
def Kind.make (kind : Kind) (given : List (Text × Object)) : Check Ref :=
  .making kind (checkFields checker children given kind.fields)

/-- Checks items, counted from `i`. -/
def checkAll (check : Object → Check Ref) : Nat → List Object → Check (List Ref)
  | _, [] => .ofExcept (.ok [])
  | i, object :: rest =>
    (((check object).inside (.index i)).both (checkAll check (i + 1) rest)).map
      fun parts => parts.1 :: parts.2

end Fields

namespace Checker

variable {Object : Type} (checker : Checker Object) (target : Option Ref)

/-- The node that an object stands for, made if it is a new one; `children` checks its children. -/
def childOf (children : Object → Check (List Ref)) (object : Object) : Check Ref := fun heap =>
  match checker.child target heap object with
  | .error issues => (.error issues, heap)
  | .ok (.node ref) => (.ok ref, heap)
  | .ok (.made kind given) =>
    ((kind.make checker children given).inside (.field kind.name)) heap

/-- The children that an object stands for, if the objects in it are no deeper than there is room. -/
def children : Nat → Object → Check (List Ref)
  | 0, _ => .ofExcept (.error checker.tooDeep)
  | room + 1, object =>
    match checker.items object with
    | .error issues => .ofExcept (.error issues)
    | .ok items => checkAll (checker.childOf target (children room)) 0 items

end Checker

/-- What a program does to its nodes. -/
inductive Command (Object : Type) where
  | construct (kind : Kind) (given : List (Text × Object))
  | constructBare
  | assign (target : Ref) (name : Text) (given : Object)
  | append (target : Ref) (child : Given Ref)

namespace Command

variable {Object : Type} (checker : Checker Object) (room : Nat)

/-- Carries a command out. The result is the place of the node that was made, changed or put into
another one. A field is checked before it is stored; a child that is put behind the others is looked
at for being a node only. -/
def run : Command Object → EStateM Failure Heap Ref
  | .construct kind given =>
    (kind.make checker (checker.children none room) given).run kind.title
  | .constructBare => do
    let heap ← get
    set (heap ++ [Cell.bare])
    return heap.length
  | .assign target name given => do
    let cell := (← get).cellAt target
    match cell.field? name with
    | none => throw (.invalid cell.title [⟨[.field name], .unknownField name⟩])
    | some field =>
      let children := checker.children (some target) room
      let content ← (field.check checker children [(field.name, given)]).run cell.title
      modify fun heap => heap.set target (cell.update name fun _ => content)
      return target
  | .append target child => do
    let cell := (← get).cellAt target
    if cell.isContainer then
      let ref ← MonadExcept.ofExcept (child.get .node)
      modify fun heap => heap.set target (cell.update (text "children") (Content.push ref))
      return ref
    else throw (.noContainer cell.title)

/-- The heap behind a command, whether it fails or not. -/
def after (command : Command Object) (heap : Heap) : Heap :=
  match command.run checker room heap with
  | .ok _ reached => reached
  | .error _ reached => reached

end Command

end PropertyList
