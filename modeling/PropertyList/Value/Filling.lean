import PropertyList.Value.OfNode

/-!
Values of nodes in containers that are filled in place. A container is given out while it is empty,
known by its address, and waits on a stack. The last one there is filled first: its children are put
into it in order, and the containers among them wait behind all others. A container whose key is set
once more is still filled, though nothing holds it any longer.
-/
namespace PropertyList

/-- What is put into a container: a value, or the container at an address. -/
inductive Part where
  | value (value : Value)
  | target (address : Nat)

/-- A container that waits to be filled, and the address of the target for its children. -/
structure Waiting where
  kind : ContainerKind
  children : List Node
  address : Nat

namespace Part

/-- The parts for slots, and the containers that wait for them at the next free addresses. -/
def ofSlots (next : Nat) : List Slot → List Part × List Waiting
  | [] => ([], [])
  | .filled v :: slots =>
    let (parts, waiting) := ofSlots next slots
    (.value v :: parts, waiting)
  | .awaiting kind children :: slots =>
    let (parts, waiting) := ofSlots (next + 1) slots
    (.target next :: parts, ⟨kind, children, next⟩ :: waiting)

/-- The value of a part, if those of the containers are known by address. -/
def read (values : List Value) : Part → Value
  | .value v => v
  | .target address => values.getD address .null

end Part

/-- A container that is filled in place. -/
inductive Target where
  | list (parts : List Part)
  | dict (entries : List (Text × Part))

namespace Target

def empty : ContainerKind → Target
  | .array => .list []
  | .dict => .dict []

/-- Sets an entry. A key that is there keeps its place and takes the new part. -/
def setPart (name : Text) (part : Part) : List (Text × Part) → List (Text × Part)
  | [] => [(name, part)]
  | entry :: rest =>
    if entry.1 = name then (entry.1, part) :: rest else entry :: setPart name part rest

/-- The container that a form becomes when parts are put into it one after another. -/
def ofParts (form : Form) (parts : List Part) : Target :=
  match form with
  | .list _ => .list parts
  | .dict slots =>
    .dict (((slots.map Prod.fst).zip parts).foldl (fun set entry => setPart entry.1 entry.2 set) [])

/-- The value of a container, if those of the containers in it are known by address. -/
def read (values : List Value) : Target → Value
  | .list parts => .list (parts.map (Part.read values))
  | .dict entries => .dict (entries.map fun entry => (.string entry.1, entry.2.read values))

/-- The values of all containers. A container holds only such as were given out after it, and
`before` counts those that were given out before all of these. -/
def values (before : Nat) : List Target → List Value
  | [] => []
  | target :: rest =>
    let behind := values (before + 1) rest
    target.read (List.replicate (before + 1) .null ++ behind) :: behind

end Target

namespace Waiting

def steps (waiting : Waiting) : Nat := 2 * Node.countAll waiting.children + 2

theorem stackSteps_ofSlots (next : Nat) (slots : List Slot) :
    stackSteps steps (Part.ofSlots next slots).2 = stackSteps FillTask.slotSteps slots := by
  fun_induction Part.ofSlots next slots with
  | case1 => rfl
  | case2 next v slots parts waiting heq ih => simpa [stackSteps, FillTask.slotSteps, heq] using ih
  | case3 next kind children slots parts waiting heq ih =>
    simpa [stackSteps, FillTask.slotSteps, steps, heq] using ih

theorem stackSteps_reverse {α : Type} (steps : α → Nat) (stack : List α) :
    stackSteps steps stack.reverse = stackSteps steps stack := by
  induction stack with
  | nil => rfl
  | cons top rest ih => simp [stackSteps, ih, Nat.add_comm]

end Waiting

namespace Target

/-- Fills what waits on the stack, and gives all targets in the order of their addresses. -/
def fillAll (targets : List Target) (stack : List Waiting) : Run (List Target) :=
  match stack with
  | [] => pure targets
  | top :: stack => do
    Value.inspect top.kind top.children
    let form := Form.ofChildren top.kind top.children
    let parts := (Part.ofSlots targets.length form.slots).1
    let waiting := (Part.ofSlots targets.length form.slots).2
    fillAll (targets.set top.address (ofParts form parts) ++ waiting.map fun w => empty w.kind)
      (waiting.reverse ++ stack)
termination_by stackSteps Waiting.steps stack
decreasing_by
  have h := FillTask.stackSteps_ofChildren top.kind top.children
  rw [stackSteps_append, Waiting.stackSteps_reverse, Waiting.stackSteps_ofSlots]
  simp only [stackSteps, Waiting.steps]
  omega

end Target

/-- The value of a node, in containers that are filled in place. -/
def Value.inPlace (node : Node) : Run Value :=
  match node with
  | .leaf l => pure l.value
  | .container kind children => do
    let targets ← Target.fillAll [.empty kind] [⟨kind, children, 0⟩]
    return Part.read (Target.values 0 targets) (.target 0)
  | .bare => Run.fail (.noNode node.className)

end PropertyList
