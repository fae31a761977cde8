import PropertyList.Leaf.Date
import PropertyList.Run
import PropertyList.Value.Basic

/-!
Plain values of nodes. `Node.value` gives the value by recursion. `Value.ofNode` finds the same value
with a stack of the containers that are still to be filled, the last one first, and leaves a notice
for every entry that it skips.
-/
namespace PropertyList

/-- The value of a leaf. A date is a moment in universal time. -/
def Leaf.value : Leaf → Value
  | .boolean b => .boolean b
  | .integer n => .integer n
  | .real x => .real x
  | .string s => .string s
  | .key s => .string s
  | .data b => .bytes b
  | .date t => .moment t.toMoment

namespace Node

/-- The text of a node that may be the key of an entry. -/
def keyText? : Node → Option Text
  | .leaf (.string s) => some s
  | .leaf (.key s) => some s
  | _ => none

mutual

/-- The value of a node. In a dictionary, an entry with another key than a text is left out, a last
key without a value has none, and a repeated key keeps its first place and takes the last value. -/
def value : Node → Value
  | .leaf l => l.value
  | .container .array children => .list (values children)
  | .container .dict children => Value.ofEntries (entries children)
  | .bare => .null

def values : List Node → List Value
  | [] => []
  | node :: rest => node.value :: values rest

def entries : List Node → List (Value × Value)
  | [] => []
  | [key] => (key.keyText?.map fun s => (Value.string s, Value.null)).toList
  | key :: node :: rest =>
    (key.keyText?.map fun s => (Value.string s, node.value)).toList ++ entries rest

end

end Node

/-- A place in a container that is being filled: a value, or a container still to be filled. -/
inductive Slot where
  | filled (value : Value)
  | awaiting (kind : ContainerKind) (children : List Node)

namespace Slot

/-- The slot of a node that has a value. -/
def ofNode : Node → Slot
  | .leaf l => .filled l.value
  | .container kind children => .awaiting kind children
  | .bare => .filled .null

/-- The slots of the entries of a dictionary. -/
def ofEntries : List Node → List (Text × Slot)
  | [] => []
  | [key] => (key.keyText?.map fun s => (s, Slot.filled .null)).toList
  | key :: node :: rest =>
    (key.keyText?.map fun s => (s, Slot.ofNode node)).toList ++ ofEntries rest

/-- Fills slots in order with the values in front of a list; the rest of the list remains. -/
def fill : List Slot → List Value → List Value × List Value
  | [], values => ([], values)
  | .filled v :: slots, values =>
    let (full, rest) := fill slots values
    (v :: full, rest)
  | .awaiting _ _ :: slots, values =>
    let (full, rest) := fill slots values.tail
    (values.headD .null :: full, rest)

end Slot

/-- A container that is being filled. -/
inductive Form where
  | list (slots : List Slot)
  | dict (slots : List (Text × Slot))

namespace Form

def ofChildren (kind : ContainerKind) (children : List Node) : Form :=
  match kind with
  | .array => .list (children.map Slot.ofNode)
  | .dict => .dict (Slot.ofEntries children)

def slots : Form → List Slot
  | .list slots => slots
  | .dict slots => slots.map Prod.snd

/-- The container with its slots filled, and the values that remain. -/
def close (form : Form) (values : List Value) : Value × List Value :=
  let (full, rest) := Slot.fill form.slots values
  match form with
  | .list _ => (.list full, rest)
  | .dict slots => (Value.ofEntries ((slots.map fun slot => .string slot.1).zip full), rest)

end Form

/-- Something still to be done: a container to be filled, or one whose parts are ready. -/
inductive FillTask where
  | fill (kind : ContainerKind) (children : List Node)
  | close (form : Form)

namespace FillTask

def steps : FillTask → Nat
  | .fill _ children => 2 * Node.countAll children + 2
  | .close _ => 1

/-- The containers that wait in slots, the last one first. -/
def awaited (slots : List Slot) : List FillTask :=
  slots.reverse.filterMap fun slot =>
    match slot with
    | .awaiting kind children => some (.fill kind children)
    | .filled _ => none

/-- The steps that a slot will take. -/
def slotSteps : Slot → Nat
  | .awaiting _ children => 2 * Node.countAll children + 2
  | .filled _ => 0

theorem stackSteps_awaited (slots : List Slot) :
    stackSteps steps (awaited slots) = stackSteps slotSteps slots := by
  induction slots with
  | nil => rfl
  | cons slot rest ih =>
    cases slot <;> simp_all [awaited, stackSteps, slotSteps, steps, List.filterMap_append]
    omega

theorem slotSteps_ofNode (node : Node) : slotSteps (Slot.ofNode node) ≤ 2 * node.count := by
  cases node <;> simp [Slot.ofNode, slotSteps, Node.count]
  omega

theorem stackSteps_map_ofNode (children : List Node) :
    stackSteps slotSteps (children.map Slot.ofNode) ≤ 2 * Node.countAll children := by
  induction children with
  | nil => simp [stackSteps]
  | cons node rest ih =>
    have h := slotSteps_ofNode node
    simp only [List.map_cons, stackSteps, Node.countAll]
    omega

theorem stackSteps_ofEntries (children : List Node) :
    stackSteps slotSteps ((Slot.ofEntries children).map Prod.snd) ≤
      2 * Node.countAll children := by
  fun_induction Slot.ofEntries children with
  | case1 => simp [stackSteps]
  | case2 key => cases h : key.keyText? <;> simp [stackSteps, slotSteps]
  | case3 key node rest ih =>
    have h := slotSteps_ofNode node
    cases hk : key.keyText? <;> simp_all [stackSteps, Node.countAll] <;> omega

theorem stackSteps_ofChildren (kind : ContainerKind) (children : List Node) :
    stackSteps slotSteps (Form.ofChildren kind children).slots ≤ 2 * Node.countAll children := by
  cases kind
  · exact stackSteps_map_ofNode children
  · exact stackSteps_ofEntries children

end FillTask

namespace Value

/-- What converting the own entries of a dictionary leaves and fails with. -/
def inspectEntries : List Node → Run Unit
  | [] => pure ()
  | [key] => inspectKey key
  | key :: child :: rest => do
    inspectKey key
    if key.keyText?.isSome && child.kind?.isNone then Run.fail (.noNode child.className)
    inspectEntries rest
where
  /-- A key that is no text is skipped with a notice. -/
  inspectKey (key : Node) : Run Unit :=
    if key.keyText?.isSome then pure ()
    else match key.kind? with
      | some kind => Run.noting (.skippedEntry kind.name) ()
      | none => Run.fail .noKind

/-- What converting the own entries of a container leaves and fails with. -/
def inspect (kind : ContainerKind) (children : List Node) : Run Unit :=
  match kind with
  | .dict => inspectEntries children
  | .array =>
    match children.find? fun child => child.kind?.isNone with
    | some child => Run.fail (.noNode child.className)
    | none => pure ()

/-- Does the tasks on the stack; the values of what is ready are kept, the last one in front. -/
def runTasks (tasks : List FillTask) (values : List Value) : Run Value :=
  match tasks with
  | [] => pure (values.headD .null)
  | .close form :: tasks =>
    let (value, rest) := form.close values
    runTasks tasks (value :: rest)
  | .fill kind children :: tasks => do
    inspect kind children
    let form := Form.ofChildren kind children
    runTasks (FillTask.awaited form.slots ++ .close form :: tasks) values
termination_by stackSteps FillTask.steps tasks
decreasing_by
  · simp [stackSteps, FillTask.steps]
  · have h := FillTask.stackSteps_ofChildren kind children
    rw [← FillTask.stackSteps_awaited] at h
    simp only [stackSteps_append, stackSteps, FillTask.steps]
    omega

/-- The value of a node. -/
def ofNode (node : Node) : Run Value :=
  match node with
  | .leaf l => pure l.value
  | .container kind children => runTasks [.fill kind children] []
  | .bare => Run.fail (.noNode node.className)

end Value

end PropertyList
