import Mathlib.Data.Nat.Notation
import Mathlib.Tactic.SplitIfs
import PropertyList.Proofs.Value.Entries
import PropertyList.Proofs.Value.OfNode
import PropertyList.Value.Filling

/-! Containers filled in place hold the values of the recursion. While some of them wait, every
address has a value that is foretold: for a container that waits, the value of its children, and for
one that is filled, what its parts read as. Filling the container on top keeps this. -/
namespace PropertyList

namespace Waiting

/-- The value that the container will have. -/
def value (w : Waiting) : Value := Node.value (.container w.kind w.children)

end Waiting

namespace Part

variable {next : ℕ} {slots : List Slot}

theorem map_address_ofSlots (next : ℕ) (slots : List Slot) :
    (ofSlots next slots).2.map Waiting.address = List.range' next (ofSlots next slots).2.length := by
  fun_induction ofSlots next slots with
  | case1 => rfl
  | case2 next v slots parts waiting heq ih => simpa [heq] using ih
  | case3 next kind children slots parts waiting heq ih => simpa [heq, List.range'_succ] using ih

theorem length_ofSlots (next : ℕ) (slots : List Slot) :
    (ofSlots next slots).2.length = (slots.flatMap Slot.awaited).length := by
  fun_induction ofSlots next slots with
  | case1 => rfl
  | case2 next v slots parts waiting heq ih => simpa [heq, Slot.awaited] using ih
  | case3 next kind children slots parts waiting heq ih => simpa [heq, Slot.awaited] using ih

/-- The containers that wait for slots get the values of the slots. -/
theorem getElem?_of_mem_ofSlots (before : List Value) (hnext : before.length = next) {w : Waiting}
    (hw : w ∈ (ofSlots next slots).2) :
    (before ++ slots.flatMap Slot.awaited)[w.address]? = some w.value := by
  fun_induction ofSlots next slots generalizing before with
  | case1 => cases hw
  | case2 next v slots parts waiting heq ih =>
    simp only [heq] at ih
    exact ih before hnext hw
  | case3 next kind children slots parts waiting heq ih =>
    simp only [heq] at ih
    rcases List.mem_cons.mp hw with rfl | hrest
    · simp [hnext, Slot.awaited, Waiting.value]
    · have h := ih (before ++ [Node.value (.container kind children)]) (by simp [hnext]) hrest
      simpa [Slot.awaited] using h

/-- The parts read as the values of the slots, once the values of the new containers are known. -/
theorem map_read_ofSlots (slots : List Slot) (before behind : List Value)
    (hnext : before.length = next) :
    (ofSlots next slots).1.map (read (before ++ slots.flatMap Slot.awaited ++ behind)) =
      slots.map Slot.value := by
  fun_induction ofSlots next slots generalizing before with
  | case1 => rfl
  | case2 next v slots parts waiting heq ih =>
    have h := ih before hnext
    rw [heq] at h
    simpa [Slot.awaited, read, Slot.value] using h
  | case3 next kind children slots parts waiting heq ih =>
    have h := ih (before ++ [Node.value (.container kind children)]) (by simp [hnext])
    rw [heq] at h
    subst hnext
    simpa [Slot.awaited, read, Slot.value] using h

theorem mem_ofSlots {address : ℕ} (h : .target address ∈ (ofSlots next slots).1) :
    next ≤ address ∧ address < next + (ofSlots next slots).2.length := by
  fun_induction ofSlots next slots with
  | case1 => cases h
  | case2 next v slots parts waiting heq ih =>
    rw [heq] at ih
    simp only [List.mem_cons, reduceCtorEq, false_or] at h
    exact ih h
  | case3 next kind children slots parts waiting heq ih =>
    simp only [heq] at ih
    simp only [List.mem_cons, target.injEq] at h
    rw [List.length_cons]
    rcases h with rfl | h
    · omega
    · have hrest := ih h
      omega

theorem read_congr {part : Part} {values others : List Value}
    (h : ∀ address, part = .target address → values[address]? = others[address]?) :
    part.read values = part.read others := by
  cases part with
  | value v => rfl
  | target address => rw [read, read, List.getD_eq_getElem?_getD, h address rfl,
      List.getD_eq_getElem?_getD]

end Part

namespace Target

def parts : Target → List Part
  | .list parts => parts
  | .dict entries => entries.map Prod.snd

theorem read_congr {target : Target} {values others : List Value}
    (h : ∀ address, .target address ∈ target.parts → values[address]? = others[address]?) :
    target.read values = target.read others := by
  have hpart (part : Part) (hpart : part ∈ target.parts) : part.read values = part.read others := by
    apply Part.read_congr
    rintro address rfl
    exact h address hpart
  cases target with
  | list parts => exact congrArg Value.list (List.map_congr_left hpart)
  | dict entries =>
    refine congrArg Value.dict (List.map_congr_left fun entry hentry => ?_)
    rw [hpart entry.2 (List.mem_map_of_mem hentry)]

theorem map_setPart (values : List Value) (name : Text) (part : Part)
    (set : List (Text × Part)) :
    (setPart name part set).map (fun entry => (Value.string entry.1, entry.2.read values)) =
      Value.setEntry (.string name) (part.read values)
        (set.map fun entry => (.string entry.1, entry.2.read values)) := by
  induction set with
  | nil => rfl
  | cons entry set ih =>
    rw [setPart, List.map_cons, Value.setEntry]
    simp only [Value.sameKey, beq_iff_eq]
    split_ifs
    · rfl
    · rw [List.map_cons, ih]

theorem setPart_subset (name : Text) (part : Part) (set : List (Text × Part)) :
    (setPart name part set).map Prod.snd ⊆ part :: set.map Prod.snd := by
  induction set with
  | nil => exact List.Subset.refl _
  | cons entry set ih =>
    rw [setPart]
    split_ifs
    · simp
    · simp only [List.map_cons, List.cons_subset, List.mem_cons, true_or, or_true, true_and]
      intro other hother
      rcases List.mem_cons.mp (ih hother) with rfl | hmem
      · exact List.mem_cons_self
      · exact List.mem_cons_of_mem _ (List.mem_cons_of_mem _ hmem)

variable {form : Form} {parts : List Part}

theorem parts_ofParts_subset (form : Form) (parts : List Part) :
    (ofParts form parts).parts ⊆ parts := by
  cases form with
  | list slots => exact List.Subset.refl _
  | dict slots =>
    have hfold (entries set : List (Text × Part)) :
        (entries.foldl (fun set entry => setPart entry.1 entry.2 set) set).map Prod.snd ⊆
          set.map Prod.snd ++ entries.map Prod.snd := by
      induction entries generalizing set with
      | nil => simp
      | cons entry entries ih =>
        intro part hpart
        rw [List.map_cons, List.mem_append, List.mem_cons]
        rcases List.mem_append.mp (ih _ hpart) with hset | hmore
        · rcases List.mem_cons.mp (setPart_subset _ _ _ hset) with rfl | hold
          · exact .inr (.inl rfl)
          · exact .inl hold
        · exact .inr (.inr hmore)
    intro part hpart
    have hmem := hfold _ [] hpart
    rw [List.map_nil, List.nil_append] at hmem
    obtain ⟨entry, hentry, rfl⟩ := List.mem_map.mp hmem
    exact (List.of_mem_zip hentry).2

/-- A target reads as the value of the container if its parts read as the values of the slots. -/
theorem read_ofParts {kind : ContainerKind} {children : List Node} {values : List Value}
    (h : parts.map (Part.read values) =
      (Form.ofChildren kind children).slots.map Slot.value) :
    (ofParts (Form.ofChildren kind children) parts).read values =
      Node.value (.container kind children) := by
  cases kind with
  | array =>
    rw [Form.ofChildren, ofParts, read, Node.value, Value.values_eq_map, h]
    rfl
  | dict =>
    have hfold (entries set : List (Text × Part)) :
        (entries.foldl (fun set entry => setPart entry.1 entry.2 set) set).map
            (fun entry => (Value.string entry.1, entry.2.read values)) =
          (entries.map fun entry => (Value.string entry.1, entry.2.read values)).foldl
            (fun set entry => Value.setEntry entry.1 entry.2 set)
            (set.map fun entry => (Value.string entry.1, entry.2.read values)) := by
      induction entries generalizing set with
      | nil => rfl
      | cons entry entries ih => rw [List.foldl_cons, ih, map_setPart, List.map_cons, List.foldl_cons]
    have hentries (slots : List (Text × Slot))
        (hslots : parts.map (Part.read values) = (slots.map Prod.snd).map Slot.value) :
        ((slots.map Prod.fst).zip parts).map
            (fun entry => (Value.string entry.1, entry.2.read values)) =
          slots.map fun slot => (.string slot.1, slot.2.value) := by
      have hmap : ((slots.map Prod.fst).map Value.string).zip (parts.map (Part.read values)) =
          ((slots.map Prod.fst).zip parts).map (Prod.map Value.string (Part.read values)) :=
        List.zip_map
      rw [hslots, List.map_map, List.map_map, List.zip_map'] at hmap
      exact hmap.symm
    rw [Form.ofChildren, ofParts, read, hfold, hentries _ h, Node.value, Value.entries_eq_map]
    rfl

/-- All parts of a target at an address lie behind it, among the first `count` addresses. -/
def HoldsBehind (target : Target) (address count : ℕ) : Prop :=
  ∀ other, .target other ∈ target.parts → address < other ∧ other < count

end Target

/-- The values that targets will have when all that waits is filled. A container that waits has the
value of its children, and one that does not reads as its value already. -/
structure Foretells (values : List Value) (targets : List Target) (stack : List Waiting) :
    Prop where
  length_eq : values.length = targets.length
  distinct : (stack.map Waiting.address).Nodup
  waiting : ∀ w ∈ stack, values[w.address]? = some w.value
  filled : ∀ address target, targets[address]? = some target →
    address ∉ stack.map Waiting.address →
      values[address]? = some (target.read values) ∧ target.HoldsBehind address targets.length

namespace Foretells

variable {values : List Value} {targets : List Target} {stack : List Waiting}

theorem address_lt {w : Waiting} (h : Foretells values targets stack) (hw : w ∈ stack) :
    w.address < targets.length := by
  rw [← h.length_eq]
  exact (List.getElem?_eq_some_iff.mp (h.waiting w hw)).1

theorem read_append {address : ℕ} {target : Target} (htarget : targets[address]? = some target)
    (h : Foretells values targets stack) (haddress : address ∉ stack.map Waiting.address)
    (more : List Value) : target.read (values ++ more) = target.read values := by
  apply Target.read_congr
  intro other hother
  have hless := ((h.filled address target htarget haddress).2 other hother).2
  exact List.getElem?_append_left (h.length_eq ▸ hless)

section

variable {top : Waiting} {slots : List Slot}

/-- The container on top is filled, and the containers among its children wait. -/
theorem fill (h : Foretells values targets (top :: stack))
    (hslots : slots = (Form.ofChildren top.kind top.children).slots) :
    Foretells (values ++ slots.flatMap Slot.awaited)
      (targets.set top.address
          (.ofParts (Form.ofChildren top.kind top.children) (Part.ofSlots targets.length slots).1) ++
        (Part.ofSlots targets.length slots).2.map fun w => .empty w.kind)
      ((Part.ofSlots targets.length slots).2.reverse ++ stack) := by
  have hnew := Part.map_address_ofSlots targets.length slots
  have hold : ∀ w ∈ stack, w.address < targets.length := fun w hw =>
    h.address_lt (List.mem_cons_of_mem _ hw)
  refine ⟨?_, ?_, ?_, ?_⟩
  · rw [List.length_append, List.length_append, List.length_set, List.length_map, h.length_eq,
      Part.length_ofSlots]
  · rw [List.map_append, List.map_reverse, hnew, List.nodup_append]
    refine ⟨List.reverse_perm _ |>.nodup_iff.mpr List.nodup_range', (List.nodup_cons.mp h.distinct).2, ?_⟩
    rintro address haddress other hother rfl
    obtain ⟨w, hw, rfl⟩ := List.mem_map.mp hother
    rw [List.mem_reverse, List.mem_range'_1] at haddress
    have hless := hold w hw
    omega
  · intro w hw
    rcases List.mem_append.mp hw with hfresh | hstack
    · exact Part.getElem?_of_mem_ofSlots values h.length_eq (List.mem_reverse.mp hfresh)
    · rw [List.getElem?_append_left (h.length_eq ▸ hold w hstack)]
      exact h.waiting w (List.mem_cons_of_mem _ hstack)
  · intro address target htarget haddress
    rw [List.map_append, List.map_reverse, hnew, List.mem_append, List.mem_reverse,
      List.mem_range'_1, not_or] at haddress
    have hless : address < targets.length := by
      have hbound := (List.getElem?_eq_some_iff.mp htarget).1
      rw [List.length_append, List.length_set, List.length_map] at hbound
      omega
    rw [List.getElem?_append_left (by rw [List.length_set]; exact hless)] at htarget
    rw [List.getElem?_append_left (h.length_eq ▸ hless), List.length_append, List.length_set,
      List.length_map]
    by_cases htop : address = top.address
    · subst htop
      rw [List.getElem?_set_self hless] at htarget
      cases htarget
      have hread := Part.map_read_ofSlots slots values [] h.length_eq
      rw [List.append_nil, hslots] at hread
      constructor
      · rw [hslots, Target.read_ofParts hread]
        exact h.waiting top List.mem_cons_self
      · intro other hother
        have hnew := Part.mem_ofSlots (Target.parts_ofParts_subset _ _ hother)
        omega
    · rw [List.getElem?_set_ne (Ne.symm htop)] at htarget
      have hidle : address ∉ (top :: stack).map Waiting.address := by
        rw [List.map_cons, List.mem_cons, not_or]
        exact ⟨htop, haddress.2⟩
      obtain ⟨hvalue, hbehind⟩ := h.filled address target htarget hidle
      rw [h.read_append htarget hidle]
      refine ⟨hvalue, fun other hother => ?_⟩
      have hother := hbehind other hother
      omega

end

end Foretells

namespace Target

/-- Targets that hold only later ones are read from the last to the first. -/
theorem values_eq_drop {values : List Value} {before : ℕ} {targets : List Target}
    (hlength : values.length = before + targets.length)
    (h : ∀ i target, targets[i]? = some target →
      values[before + i]? = some (target.read values) ∧
        ∀ other, .target other ∈ target.parts → before + i < other) :
    Target.values before targets = values.drop before := by
  induction targets generalizing before with
  | nil => exact (List.drop_eq_nil_of_le (Nat.le_of_eq hlength)).symm
  | cons target targets ih =>
    obtain ⟨hvalue, hlater⟩ := h 0 target rfl
    have hbehind : Target.values (before + 1) targets = values.drop (before + 1) := by
      apply ih
      · rw [hlength, List.length_cons]
        omega
      · intro i other hother
        have hnext := h (i + 1) other hother
        rw [← Nat.add_assoc, Nat.add_right_comm] at hnext
        exact hnext
    have hread : target.read (List.replicate (before + 1) .null ++ values.drop (before + 1)) =
        target.read values := by
      apply read_congr
      intro other hother
      have hless := hlater other hother
      rw [List.getElem?_append_right (by rw [List.length_replicate]; omega), List.length_replicate,
        List.getElem?_drop, Nat.add_sub_cancel' (by omega)]
    obtain ⟨hbound, hsame⟩ := List.getElem?_eq_some_iff.mp hvalue
    rw [Target.values, hbehind, hread, ← hsame]
    exact (List.drop_eq_getElem_cons hbound).symm

/-- When nothing waits any more, the targets have the values that were foretold. -/
theorem values_of_foretells {values : List Value} {targets : List Target}
    (h : Foretells values targets []) : Target.values 0 targets = values := by
  rw [values_eq_drop (by rw [h.length_eq, Nat.zero_add]), List.drop_zero]
  intro i target htarget
  obtain ⟨hvalue, hbehind⟩ := h.filled i target htarget List.not_mem_nil
  rw [Nat.zero_add]
  exact ⟨hvalue, fun other hother => (hbehind other hother).1⟩

end Target

namespace Waiting

def notices (w : Waiting) : List Notice := Node.notices (.container w.kind w.children)

theorem flatMap_notices_ofSlots (next : ℕ) (slots : List Slot) :
    (Part.ofSlots next slots).2.reverse.flatMap notices = slots.reverse.flatMap Slot.notices := by
  fun_induction Part.ofSlots next slots with
  | case1 => rfl
  | case2 next v slots parts waiting heq ih => simpa [heq, Slot.notices] using ih
  | case3 next kind children slots parts waiting heq ih =>
    simpa [heq, Slot.notices, notices] using ih

end Waiting

namespace Node

theorem isWritable_of_mem {nodes : List Node} (h : areWritable nodes = true) :
    ∀ node ∈ nodes, node.isWritable = true := by
  induction nodes with
  | nil => exact fun node hnode => nomatch hnode
  | cons node nodes ih =>
    rw [areWritable, Bool.and_eq_true] at h
    rw [List.forall_mem_cons]
    exact ⟨h.1, ih h.2⟩

end Node

theorem Part.mem_of_mem_ofSlots {next : ℕ} {slots : List Slot} {w : Waiting}
    (hw : w ∈ (ofSlots next slots).2) : .awaiting w.kind w.children ∈ slots := by
  fun_induction ofSlots next slots with
  | case1 => cases hw
  | case2 next v slots parts waiting heq ih =>
    simp only [heq] at ih
    exact List.mem_cons_of_mem _ (ih hw)
  | case3 next kind children slots parts waiting heq ih =>
    simp only [heq] at ih
    rcases List.mem_cons.mp hw with rfl | hrest
    · exact List.mem_cons_self
    · exact List.mem_cons_of_mem _ (ih hrest)

/-- The containers among writable children have writable children. -/
theorem areWritable_of_mem_ofSlots {next : ℕ} {kind : ContainerKind} {children : List Node}
    (h : Node.areWritable children = true) {w : Waiting}
    (hw : w ∈ (Part.ofSlots next (Form.ofChildren kind children).slots).2) :
    Node.areWritable w.children = true := by
  rcases Value.mem_slots (Part.mem_of_mem_ofSlots hw) with hnull | hmem
  · cases hnull
  · obtain ⟨node, hnode, hslot⟩ := List.mem_map.mp hmem
    have hwritable := Node.isWritable_of_mem h node hnode
    cases node with
    | container kind children =>
      cases hslot
      exact hwritable
    | _ => cases hslot

/-- A run over the stack fills all containers that wait. -/
theorem Target.fillAll_eq {values : List Value} {targets : List Target} {stack : List Waiting}
    (h : Foretells values targets stack)
    (hstack : ∀ w ∈ stack, Node.areWritable w.children = true) :
    ∃ more found, fillAll targets stack = ⟨stack.flatMap Waiting.notices, .ok found⟩ ∧
      Foretells (values ++ more) found [] := by
  fun_induction fillAll targets stack generalizing values with
  | case1 targets =>
    refine ⟨[], targets, rfl, ?_⟩
    rw [List.append_nil]
    exact h
  | case2 targets top stack ih =>
    rw [List.forall_mem_cons] at hstack
    obtain ⟨htop, hstack⟩ := hstack
    obtain ⟨more, found, hrun, hfound⟩ := ih (h.fill rfl) fun w hw =>
      (List.mem_append.mp hw).elim
        (fun hnew => areWritable_of_mem_ofSlots htop (List.mem_reverse.mp hnew)) (hstack w)
    rw [List.append_assoc] at hfound
    refine ⟨_, found, ?_, hfound⟩
    rw [hrun, List.flatMap_append, Waiting.flatMap_notices_ofSlots]
    -- the notices of the children come behind those of the container itself
    calc
      _ = Value.inspect top.kind top.children >>= fun _ =>
            (⟨(Form.ofChildren top.kind top.children).slots.reverse.flatMap Slot.notices, .ok ()⟩ :
              Run Unit) >>= fun _ => ⟨stack.flatMap Waiting.notices, .ok found⟩ := rfl
      _ = ⟨(top :: stack).flatMap Waiting.notices, .ok found⟩ := by
        rw [← bind_assoc, Value.inspect_eq _ _ htop]
        rfl

/-- The value that a tree without bare nodes has in containers filled in place. -/
theorem Value.inPlace_eq {node : Node} (h : node.isWritable = true) :
    Value.inPlace node = ⟨node.notices, .ok node.value⟩ := by
  cases node with
  | leaf l => rfl
  | container kind children =>
    have hstart : Foretells [Node.value (.container kind children)] [.empty kind]
        [⟨kind, children, 0⟩] := by
      refine ⟨rfl, List.pairwise_singleton _ _, ?_, ?_⟩
      · intro w hw
        rw [List.mem_singleton.mp hw]
        rfl
      · intro address target htarget haddress
        have hzero := (List.getElem?_eq_some_iff.mp htarget).1
        simp only [List.map_cons, List.map_nil, List.mem_singleton, List.length_singleton] at *
        omega
    have hchildren : ∀ w ∈ [(⟨kind, children, 0⟩ : Waiting)], Node.areWritable w.children = true := by
      intro w hw
      rw [List.mem_singleton.mp hw]
      exact h
    obtain ⟨more, found, hrun, hfound⟩ := Target.fillAll_eq hstart hchildren
    rw [inPlace, hrun, Run.bind_ok, Target.values_of_foretells hfound]
    simp [Part.read, Waiting.notices, Run.pure_def]
  | bare => cases h

/-- A tree without bare nodes has the value that recursion gives, in containers that are filled in
place as with a stack of tasks. The value of a dictionary has every text among its keys once, at the
place of the first such key, with the value that stands behind the last one. -/
theorem Value.ofNode_eq_recursion {node : Node} (h : node.isWritable = true) :
    inPlace node = ⟨node.notices, .ok node.value⟩ ∧
      ofNode node = ⟨node.notices, .ok node.value⟩ ∧
      ∀ children, ∃ entries, Node.value (.dict children) = .dict entries ∧
        entries.map Prod.fst = (Node.keyTexts children).eraseDups.map .string ∧
        ∀ name, entry? name entries = entry? name (Node.entries children).reverse :=
  ⟨inPlace_eq h, ofNode_eq h, Node.exists_value_dict⟩

/-- A dictionary in which a key is set once more behind an entry that is skipped. The list that it
held first is filled all the same, and what is said there comes last. -/
theorem Value.ofNode_eq_recursion_repeated :
    inPlace (.dict [.leaf (.key (text "a")), .dict [.leaf (.integer 1), .leaf (.integer 2)],
        .array [], .array [.leaf (.boolean true)],
        .leaf (.string (text "b")), .leaf (.integer 3),
        .leaf (.key (text "a")), .array [.dict [], .leaf (.data [7])],
        .leaf (.key (text "c"))]) =
      ⟨[.skippedEntry (text "array"), .skippedEntry (text "integer")],
        .ok (.dict [(.string (text "a"), .list [.dict [], .bytes [7]]),
          (.string (text "b"), .integer 3), (.string (text "c"), .null)])⟩ :=
  (ofNode_eq_recursion (by decide)).1

end PropertyList
