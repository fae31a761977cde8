import PropertyList.Document.Layout
import PropertyList.Proofs.Run
import PropertyList.Value.OfNode

/-! Values of nodes by recursion. The tasks for the containers in some slots put their values on the
stack, the last container first, so that closing the form finds them in the order of its slots. -/
namespace PropertyList

namespace Node

/-- What is said of a key in a dictionary: nothing if it is a text. -/
def keyNotices (key : Node) : List Notice :=
  if key.keyText?.isSome then [] else [.skippedEntry ((key.kind?.map Kind.name).getD [])]

/-- What is said of the keys of a dictionary, every second child from the first on. -/
def skipped : List Node → List Notice
  | [] => []
  | [key] => key.keyNotices
  | key :: _ :: rest => key.keyNotices ++ skipped rest

mutual

/-- What converting a node leaves: what is said of the keys of a dictionary, and then the notices of
the containers in a container, the last one first. -/
def notices : Node → List Notice
  | .leaf _ => []
  | .container .array children => noticesOfItems children
  | .container .dict children => skipped children ++ noticesOfEntries children
  | .bare => []

def noticesOfItems : List Node → List Notice
  | [] => []
  | node :: rest => noticesOfItems rest ++ node.notices

def noticesOfEntries : List Node → List Notice
  | [] => []
  | [_] => []
  | key :: node :: rest =>
    noticesOfEntries rest ++ if key.keyText?.isSome then node.notices else []

end

theorem isNone_kind? {node : Node} (h : node.isWritable = true) : node.kind?.isNone = false := by
  cases node with
  | leaf l => rfl
  | container kind children => rfl
  | bare => cases h

end Node

namespace Value

theorem inspectKey_eq {key : Node} (h : key.isWritable = true) :
    inspectEntries.inspectKey key = ⟨key.keyNotices, .ok ()⟩ := by
  obtain ⟨kind, hkind⟩ := Option.isSome_iff_exists.mp
    (Option.isNone_eq_false_iff.mp (Node.isNone_kind? h))
  unfold inspectEntries.inspectKey Node.keyNotices
  split
  · rfl
  · rw [hkind]
    rfl

theorem inspectEntries_eq (children : List Node) (h : Node.areWritable children = true) :
    inspectEntries children = ⟨Node.skipped children, .ok ()⟩ := by
  fun_induction Node.skipped children with
  | case1 => rfl
  | case2 key =>
    rw [Node.areWritable, Bool.and_eq_true] at h
    exact inspectKey_eq h.1
  | case3 key node rest ih =>
    rw [Node.areWritable, Node.areWritable, Bool.and_eq_true, Bool.and_eq_true] at h
    rw [inspectEntries, inspectKey_eq h.1, Node.isNone_kind? h.2.1, Bool.and_false, ih h.2.2]
    rfl

theorem inspect_array (children : List Node) (h : Node.areWritable children = true) :
    inspect .array children = pure () := by
  have hfind : (children.find? fun child => child.kind?.isNone) = none := by
    induction children with
    | nil => rfl
    | cons node rest ih =>
      rw [Node.areWritable, Bool.and_eq_true] at h
      simp [Node.isNone_kind? h.1, ih h.2]
  rw [inspect, hfind]

end Value

namespace Slot

/-- The value that a slot will hold. -/
def value : Slot → Value
  | .filled v => v
  | .awaiting kind children => Node.value (.container kind children)

/-- The value of the container in a slot. -/
def awaited : Slot → List Value
  | .filled _ => []
  | .awaiting kind children => [Node.value (.container kind children)]

def notices : Slot → List Notice
  | .filled _ => []
  | .awaiting kind children => Node.notices (.container kind children)

/-- Whether the task of a slot puts its value on the stack, whatever the other tasks are. -/
def Runs (slot : Slot) : Prop :=
  ∀ tasks values, Value.runTasks (FillTask.awaited [slot] ++ tasks) values =
    (⟨slot.notices, .ok ()⟩ : Run Unit) >>= fun _ => Value.runTasks tasks (slot.awaited ++ values)

theorem value_ofNode (node : Node) : (ofNode node).value = node.value := by
  cases node <;> rfl

theorem notices_ofNode (node : Node) : (ofNode node).notices = node.notices := by
  cases node <;> rfl

theorem runs_filled (v : Value) : Runs (.filled v) := by
  intro tasks values
  rfl

/-- The slots find the values of their containers in order. -/
theorem fill_flatMap (slots : List Slot) (values : List Value) :
    fill slots (slots.flatMap awaited ++ values) = (slots.map value, values) := by
  induction slots with
  | nil => rfl
  | cons slot slots ih =>
    cases slot with
    | filled v => simp [fill, ih, awaited, value]
    | awaiting kind children => simp [fill, ih, awaited, value]

end Slot

namespace FillTask

theorem awaited_cons (slot : Slot) (slots : List Slot) :
    awaited (slot :: slots) = awaited slots ++ awaited [slot] := by
  simp [awaited]

end FillTask

namespace Value

/-- The tasks for some slots put the values of their containers on the stack, in order. -/
theorem runTasks_awaited (slots : List Slot) (h : ∀ slot ∈ slots, slot.Runs)
    (tasks : List FillTask) (values : List Value) :
    runTasks (FillTask.awaited slots ++ tasks) values =
      (⟨slots.reverse.flatMap Slot.notices, .ok ()⟩ : Run Unit) >>= fun _ =>
        runTasks tasks (slots.flatMap Slot.awaited ++ values) := by
  induction slots generalizing tasks values with
  | nil => rfl
  | cons slot slots ih =>
    rw [List.forall_mem_cons] at h
    rw [FillTask.awaited_cons, List.append_assoc, ih h.2, h.1]
    simp [Run.bind_ok]

theorem values_eq_map (children : List Node) :
    Node.values children = (children.map Slot.ofNode).map Slot.value := by
  induction children with
  | nil => rfl
  | cons node children ih =>
    rw [Node.values, ih, List.map_cons, List.map_cons, Slot.value_ofNode]

theorem entries_eq_map (children : List Node) :
    Node.entries children =
      (Slot.ofEntries children).map fun slot => (.string slot.1, slot.2.value) := by
  fun_induction Slot.ofEntries children with
  | case1 => rfl
  | case2 key => cases h : key.keyText? <;> simp [Node.entries, h, Slot.value]
  | case3 key node rest ih =>
    cases h : key.keyText? <;> simp [Node.entries, h, ih, Slot.value_ofNode]

theorem noticesOfItems_eq (children : List Node) :
    Node.noticesOfItems children = (children.map Slot.ofNode).reverse.flatMap Slot.notices := by
  induction children with
  | nil => rfl
  | cons node children ih =>
    simp [Node.noticesOfItems, ih, Slot.notices_ofNode]

theorem noticesOfEntries_eq (children : List Node) :
    Node.noticesOfEntries children =
      ((Slot.ofEntries children).map Prod.snd).reverse.flatMap Slot.notices := by
  fun_induction Slot.ofEntries children with
  | case1 => rfl
  | case2 key => cases h : key.keyText? <;> simp [Node.noticesOfEntries, Slot.notices]
  | case3 key node rest ih =>
    cases h : key.keyText? <;> simp [Node.noticesOfEntries, h, ih, Slot.notices_ofNode]

/-- A form that finds the values of its containers becomes the value of the container. -/
theorem close_ofChildren (kind : ContainerKind) (children : List Node) (values : List Value) :
    (Form.ofChildren kind children).close
        ((Form.ofChildren kind children).slots.flatMap Slot.awaited ++ values) =
      (Node.value (.container kind children), values) := by
  rw [Form.close, Slot.fill_flatMap]
  cases kind with
  | array =>
    rw [Form.ofChildren, Node.value, values_eq_map]
    rfl
  | dict =>
    rw [Form.ofChildren, Node.value, entries_eq_map]
    simp only [Form.slots, List.zip_map', List.map_map]
    rfl

theorem inspect_eq (kind : ContainerKind) (children : List Node)
    (h : Node.areWritable children = true) :
    (inspect kind children >>= fun _ =>
        (⟨(Form.ofChildren kind children).slots.reverse.flatMap Slot.notices, .ok ()⟩ : Run Unit)) =
      ⟨Node.notices (.container kind children), .ok ()⟩ := by
  cases kind with
  | array =>
    rw [inspect_array children h, pure_bind, Node.notices, noticesOfItems_eq]
    rfl
  | dict =>
    rw [inspect, inspectEntries_eq children h, Node.notices, noticesOfEntries_eq]
    rfl

/-- The slots of a container are those of its children, and one for a missing value. -/
theorem mem_slots {kind : ContainerKind} {children : List Node} {slot : Slot}
    (h : slot ∈ (Form.ofChildren kind children).slots) :
    slot = .filled .null ∨ slot ∈ children.map Slot.ofNode := by
  cases kind with
  | array => exact .inr h
  | dict =>
    obtain ⟨entry, hentry, rfl⟩ := List.mem_map.mp h
    clear h
    fun_induction Slot.ofEntries children with
    | case1 => cases hentry
    | case2 key =>
      left
      cases hkey : key.keyText? <;> simp_all
    | case3 key node rest ih =>
      rcases List.mem_append.mp hentry with hfirst | hmore
      · right
        cases hkey : key.keyText? <;> simp_all
      · rcases ih hmore with hnull | hmem
        · exact .inl hnull
        · exact .inr (List.mem_cons_of_mem _ (List.mem_cons_of_mem _ hmem))

theorem runs_awaiting {kind : ContainerKind} {children : List Node}
    (h : Node.areWritable children = true)
    (hslots : ∀ slot ∈ children.map Slot.ofNode, slot.Runs) :
    Slot.Runs (.awaiting kind children) := by
  intro tasks values
  have hall : ∀ slot ∈ (Form.ofChildren kind children).slots, slot.Runs := by
    intro slot hslot
    rcases mem_slots hslot with rfl | hmem
    · exact Slot.runs_filled .null
    · exact hslots slot hmem
  have htask : FillTask.awaited [.awaiting kind children] = [.fill kind children] := rfl
  have hclose (more : List Value) : runTasks (.close (Form.ofChildren kind children) :: tasks)
      ((Form.ofChildren kind children).slots.flatMap Slot.awaited ++ more) =
        runTasks tasks (Node.value (.container kind children) :: more) := by
    rw [runTasks, close_ofChildren]
  rw [htask, List.singleton_append, runTasks, runTasks_awaited _ hall, hclose, ← bind_assoc,
    inspect_eq kind children h]
  rfl

end Value

namespace Slot

mutual

theorem runs_ofNode : (node : Node) → node.isWritable = true → (ofNode node).Runs
  | .leaf l, _ => runs_filled l.value
  | .container _ children, h => Value.runs_awaiting h (runs_map_ofNode children h)
  | .bare, h => Bool.noConfusion h

theorem runs_map_ofNode : (nodes : List Node) → Node.areWritable nodes = true →
    ∀ slot ∈ nodes.map ofNode, slot.Runs
  | [], _ => by simp
  | node :: rest, h => by
    rw [Node.areWritable, Bool.and_eq_true] at h
    rw [List.map_cons, List.forall_mem_cons]
    exact ⟨runs_ofNode node h.1, runs_map_ofNode rest h.2⟩

end

end Slot

/-- The value of a tree without bare nodes is the one that recursion gives. -/
theorem Value.ofNode_eq {node : Node} (h : node.isWritable = true) :
    ofNode node = ⟨node.notices, .ok node.value⟩ := by
  cases node with
  | leaf l => rfl
  | container kind children =>
    have hrun : runTasks [.fill kind children] [] = _ :=
      Slot.runs_ofNode (.container kind children) h [] []
    rw [ofNode, hrun, runTasks, Run.bind_ok, Slot.notices_ofNode, Run.pure_def]
    simp [Slot.ofNode, Slot.awaited]
  | bare => cases h

end PropertyList
