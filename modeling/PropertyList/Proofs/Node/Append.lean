import Mathlib.Data.Int.Notation
import PropertyList.Node.Edit
import PropertyList.Proofs.Document.Writer
import PropertyList.Proofs.Value.Placed

/-! Two ways into a container. A child that is put behind the others is looked at for being a node
only; what a container is made from is looked at for its kind too. The two admit the same nodes but
for the bare one, which no document can hold. -/
namespace PropertyList

/-- An object that is given for a node. -/
def Value.given : Value → Given Node
  | .node n => .wanted n
  | value => .other value.className

theorem exists_write_iff (config : Config) {tree : Node} :
    (∃ document, write config tree = .ok document) ↔ tree.isWritable = true := by
  cases h : tree.isWritable with
  | true => simp [write_eq_ok config h]
  | false => simp [write_eq_error config h]

namespace Node

/-- A container made from a list of objects. -/
def construct (kind : ContainerKind) (items : List Value) : Except Failure Node :=
  titled kind.kind.title (ofFields kind.kind [(.string (text "children"), .list items)])

variable {kind : ContainerKind} {children : List Node}

theorem childOf_node {n : Node} (h : n.kind?.isSome = true) : childOf (.node n) = .ok n := by
  rw [childOf, if_pos h]

/-- What is no node passes as a child only if it is a dictionary. -/
theorem exists_dict_of_childOf {x : Value} {n : Node} (hx : ∀ n, x ≠ .node n)
    (h : childOf x = .ok n) : ∃ entries, x = .dict entries := by
  cases x with
  | node n => exact absurd rfl (hx n)
  | dict entries => exact ⟨entries, rfl⟩
  | _ =>
    rw [childOf] at h
    · cases h
    all_goals simp

/-- Nodes of some kind pass as children, so that all depends on what comes behind them. -/
theorem childrenFrom_append (hchildren : ∀ child ∈ children, child.kind?.isSome = true) (i : ℕ)
    (x : Value) :
    childrenFrom i (children.map .node ++ [x]) =
      (issuesInside (.index (i + children.length)) (childOf x)).map fun n => children ++ [n] := by
  induction children generalizing i with
  | nil =>
    rw [List.map_nil, List.nil_append, childrenFrom, childrenFrom, List.length_nil, Nat.add_zero]
    cases childOf x <;> rfl
  | cons child children ih =>
    obtain ⟨hchild, hrest⟩ := List.forall_mem_cons.mp hchildren
    rw [List.map_cons, List.cons_append, childrenFrom, childOf_node hchild, ih hrest,
      List.length_cons, Nat.add_right_comm, ← Nat.add_assoc]
    cases childOf x <;> rfl

theorem construct_append (hchildren : ∀ child ∈ children, child.kind?.isSome = true) (x : Value) :
    construct kind (children.map .node ++ [x]) =
      titled kind.kind.title
        ((issuesInside (.field (text "children"))
          (issuesInside (.index children.length) (childOf x))).map
            fun n => container kind (children ++ [n])) := by
  have hkind : kind.kind.container? = some kind := by cases kind <;> rfl
  have hfield : childrenField [(.string (text "children"), .list (children.map .node ++ [x]))] =
      issuesInside (.field (text "children")) ((issuesInside (.index children.length)
        (childOf x)).map fun n => children ++ [n]) := by
    rw [childrenField, if_pos rfl, childListOf, childrenFrom_append hchildren, Nat.zero_add]
  have hentry : Value.entry? (text "type")
      [(.string (text "children"), .list (children.map .node ++ [x]))] = none := rfl
  have hnamed : areNamed [(.string (text "children"), .list (children.map .node ++ [x]))] = true :=
    rfl
  rw [construct, ofFields, hkind]
  dsimp only
  rw [containerOf]
  dsimp only
  rw [hnamed, hentry, hfield]
  cases childOf x <;> rfl

/-- A container is made of children and an object behind them just if the object passes as a child. -/
theorem construct_append_eq_ok (hchildren : ∀ child ∈ children, child.kind?.isSome = true)
    {x : Value} {tree : Node} :
    construct kind (children.map .node ++ [x]) = .ok tree ↔
      ∃ n, childOf x = .ok n ∧ container kind (children ++ [n]) = tree := by
  rw [construct_append hchildren, titled_eq_ok, except_map_eq_ok]
  simp only [issuesInside_eq_ok]

theorem construct_append_bare (hchildren : ∀ child ∈ children, child.kind?.isSome = true) :
    construct kind (children.map .node ++ [.node .bare]) =
      .error (.invalid kind.kind.title
        [⟨[.field (text "children"), .index children.length], .noTag⟩]) := by
  rw [construct_append hchildren]
  rfl

section Writable

variable {b : Bool}

theorem areWritable_modify {nodes : List Node} {i : ℕ} {child : Node} {f : Node → Node}
    (hchild : nodes[i]? = some child) (hf : (f child).isWritable = (child.isWritable && b)) :
    areWritable (nodes.modify i f) = (areWritable nodes && b) := by
  induction nodes generalizing i with
  | nil => cases hchild
  | cons node nodes ih =>
    cases i with
    | zero =>
      cases hchild
      rw [List.modify_zero_cons, areWritable, areWritable, hf, Bool.and_right_comm]
    | succ i =>
      rw [List.modify_succ_cons, areWritable, areWritable, ih hchild, Bool.and_assoc]

/-- A path begins at the position of a child. -/
theorem exists_child_of_at? {root target : Node} {index : ℤ} {path : List ℤ}
    (h : root.at? (index :: path) = .ok target) :
    ∃ kind children i child, root = .container kind children ∧
      position? children.length index = some i ∧ children[i]? = some child ∧
        child.at? path = .ok target := by
  obtain ⟨child, hat, htarget⟩ := except_bind_eq_ok.mp h
  unfold childAt at hat
  split at hat
  · rename_i hfound
    cases hat
    obtain ⟨i, hposition, hchild⟩ := Option.bind_eq_some_iff.mp hfound
    cases root with
    | container kind children => exact ⟨kind, children, i, child, rfl, hposition, hchild, htarget⟩
    | leaf l => cases hchild
    | bare => cases hchild
  · cases hat

/-- What a new node at the end of a path takes away, it takes away from the whole tree. -/
theorem isWritable_replace {root target new : Node} {path : List ℤ}
    (hat : root.at? path = .ok target) (hnew : new.isWritable = (target.isWritable && b)) :
    (root.replace path new).isWritable = (root.isWritable && b) := by
  induction path generalizing root with
  | nil =>
    cases hat
    exact hnew
  | cons index path ih =>
    obtain ⟨kind, children, i, child, rfl, hposition, hchild, htarget⟩ := exists_child_of_at? hat
    rw [replace, hposition]
    exact areWritable_modify hchild (ih htarget)

end Writable

/-- A run of appends: nodes are put, one after another, into containers that the tree then holds. -/
inductive Grows : Node → List Node → Node → Prop
  | done (root : Node) : Grows root [] root
  | step {root next final child : Node} {added : List Node} {path : List ℤ}
      (hedit : root.editAt path (.append (.wanted child)) = .ok next)
      (h : Grows next added final) : Grows root (child :: added) final

theorem isWritable_of_append {node new child : Node}
    (h : node.edit (.append (.wanted child)) = .ok new) :
    new.isWritable = (node.isWritable && child.isWritable) := by
  cases node with
  | container kind children =>
    cases h
    rw [isWritable, areWritable_append, areWritable, areWritable, Bool.and_true, isWritable]
  | leaf l => cases h
  | bare => cases h

theorem isWritable_editAt_append {root next child : Node} {path : List ℤ}
    (h : root.editAt path (.append (.wanted child)) = .ok next) :
    next.isWritable = (root.isWritable && child.isWritable) := by
  obtain ⟨target, hat, hedit⟩ := except_bind_eq_ok.mp h
  obtain ⟨new, hnew, hreplace⟩ := except_bind_eq_ok.mp hedit
  cases hreplace
  exact isWritable_replace hat (isWritable_of_append hnew)

theorem Grows.isWritable_iff {root final : Node} {added : List Node} (h : Grows root added final) :
    final.isWritable = true ↔
      root.isWritable = true ∧ ∀ child ∈ added, child.isWritable = true := by
  induction h with
  | done root => simp
  | step hedit _ ih =>
    rw [ih, isWritable_editAt_append hedit, Bool.and_eq_true, List.forall_mem_cons, and_assoc]

/-- Behind children of some kind, a node of some kind comes in by both ways, with the same result. A
bare node can be put behind them, but no container is made with it. What is no node cannot be put
behind them, and a container is made with it only if it is a dictionary that a node is made of. Hence
the tree behind a run of appends, and the node of a value, can be written just if the nodes can that
went in as they are. Where records are dumped as their fields, these are the ones outside of records,
and those in members of enumerations. -/
theorem append_eq_construct (hchildren : ∀ child ∈ children, child.kind?.isSome = true) :
    (∀ n : Node, n.kind?.isSome = true →
      (container kind children).edit (.append (.wanted n)) =
          .ok (container kind (children ++ [n])) ∧
        construct kind ((children ++ [n]).map .node) = .ok (container kind (children ++ [n]))) ∧
    ((container kind children).edit (.append (.wanted bare)) =
        .ok (container kind (children ++ [bare])) ∧
      construct kind ((children ++ [bare]).map .node) =
        .error (.invalid kind.kind.title
          [⟨[.field (text "children"), .index children.length], .noTag⟩])) ∧
    (∀ x : Value, (∀ n, x ≠ .node n) →
      (container kind children).edit (.append x.given) = .error (.wrongType .node x.className) ∧
        ∀ tree, construct kind (children.map .node ++ [x]) = .ok tree →
          ∃ entries n, x = .dict entries ∧ childOf x = .ok n ∧
            tree = container kind (children ++ [n])) ∧
    (∀ (config : Config) (root final : Node) (added : List Node), root.Grows added final →
      ((∃ document, write config final = .ok document) ↔
        ∀ n ∈ root :: added, ∃ document, write config n = .ok document)) ∧
    ∀ (config : Config) (host : Host) (room : ℕ) (v : Value) (tree : Node),
      ofValue host room v = .ok tree →
        ((∃ document, write config tree = .ok document) ↔
          ∀ n, v.Places host n → ∃ document, write config n = .ok document) ∧
        (v.DumpedBy host →
          ((∃ document, write config tree = .ok document) ↔
            ∀ n ∈ v.placed false, ∃ document, write config n = .ok document)) := by
  refine ⟨?_, ⟨rfl, ?_⟩, ?_, ?_, ?_⟩
  · intro n hn
    rw [List.map_append]
    exact ⟨rfl, (construct_append_eq_ok hchildren).mpr ⟨n, childOf_node hn, rfl⟩⟩
  · rw [List.map_append]
    exact construct_append_bare hchildren
  · intro x hx
    constructor
    · cases x with
      | node n => exact absurd rfl (hx n)
      | _ => rfl
    · intro tree htree
      obtain ⟨n, hn, rfl⟩ := (construct_append_eq_ok hchildren).mp htree
      obtain ⟨entries, hentries⟩ := exists_dict_of_childOf hx hn
      exact ⟨entries, n, hentries, hn, rfl⟩
  · intro config root final added hgrows
    simp only [exists_write_iff, List.forall_mem_cons]
    exact hgrows.isWritable_iff
  · intro config host room v tree htree
    simp only [exists_write_iff]
    refine ⟨isWritable_ofValue room v tree htree, fun hdump => ?_⟩
    exact isWritable_ofValueIn false v tree (ofValueIn_of_ofValue hdump htree)

/-- A bare node goes into an empty array, and into a dictionary made from a value, and is then in the
way of the document. -/
theorem append_eq_construct_bare :
    (array []).edit (.append (.wanted bare)) = .ok (array [bare]) ∧
      construct .array [.node bare] = .error (.invalid (text "Array")
        [⟨[.field (text "children"), .index 0], .noTag⟩]) ∧
      (¬∃ document, write .default (array [bare]) = .ok document) ∧
      ¬∃ tree document,
        ofValue .plain 20 (.dict [(.string (text "a"), .node bare)]) = .ok tree ∧
          write .default tree = .ok document := by
  obtain ⟨-, ⟨hedit, hconstruct⟩, -, hgrows, hvalue⟩ :=
    @append_eq_construct .array [] (by simp)
  have hbare : ¬∃ document, write .default bare = .ok document := by
    simp [exists_write_iff, isWritable]
  refine ⟨hedit, hconstruct, ?_, ?_⟩
  · intro hwrite
    have hstep : (array []).editAt [] (.append (.wanted bare)) = .ok (array [bare]) := hedit
    have hrun : Grows (array []) [bare] (array [bare]) := .step hstep (.done _)
    exact hbare ((hgrows .default _ _ _ hrun).mp hwrite bare (by simp))
  · rintro ⟨tree, document, htree, hwrite⟩
    have hplaced := (hvalue .default .plain 20 _ tree htree).1.mp ⟨document, hwrite⟩ bare
    exact hbare (hplaced (.entry (List.mem_singleton_self _) (.node bare)))

end Node

end PropertyList
