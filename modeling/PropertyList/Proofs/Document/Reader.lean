import PropertyList.Document.Reader
import PropertyList.Proofs.Run

/-! The reader with a stack finds the nodes that recursion gives. The nodes of the items in hand
go behind the nodes read, and the open containers do not matter meanwhile. A container that is the
root takes in all top-level nodes behind it, in order. -/
namespace PropertyList
open Markup

variable {strict : Bool}

theorem walk_nil_nil (read : List Node) : walk strict [] read [] = pure read.reverse := by
  rw [walk]

theorem walk_nil_cons (read : List Node) (c : OpenContainer) (stack : List OpenContainer) :
    walk strict [] read (c :: stack) =
      walk strict c.rest (.container c.kind read.reverse :: c.before) stack := by
  rw [walk]

theorem walk_text (s : Text) (rest : List Item) (read : List Node) (stack : List OpenContainer) :
    walk strict (.text s :: rest) read stack = walk strict rest read stack := by
  rw [walk]

theorem walk_container {tag : Text} {kind : ContainerKind} (h : containerOfTag? tag = some kind)
    (attributes : List Attribute) (content rest : List Item) (read : List Node)
    (stack : List OpenContainer) :
    walk strict (.element tag attributes content :: rest) read stack =
      walk strict content [] (⟨kind, read, rest⟩ :: stack) := by
  rw [walk, h]

theorem walk_leaf {tag : Text} (h : containerOfTag? tag = none) (attributes : List Attribute)
    (content rest : List Item) (read : List Node) (stack : List OpenContainer) :
    walk strict (.element tag attributes content :: rest) read stack = (do
      let node ← readElement strict tag (innerTextOf content)
      walk strict rest (node.toList ++ read) stack) := by
  rw [walk, h]

theorem nodesOf_nil : nodesOf strict [] = pure [] := by
  rw [nodesOf]

theorem nodesOf_text (s : Text) (rest : List Item) :
    nodesOf strict (.text s :: rest) = nodesOf strict rest := by
  rw [nodesOf, Item.nodes]
  simp

theorem nodesOf_container {tag : Text} {kind : ContainerKind} (h : containerOfTag? tag = some kind)
    (attributes : List Attribute) (content rest : List Item) :
    nodesOf strict (.element tag attributes content :: rest) = (do
      let children ← nodesOf strict content
      let nodes ← nodesOf strict rest
      pure (.container kind children :: nodes)) := by
  rw [nodesOf, Item.nodes, h]
  simp

theorem nodesOf_leaf {tag : Text} (h : containerOfTag? tag = none) (attributes : List Attribute)
    (content rest : List Item) :
    nodesOf strict (.element tag attributes content :: rest) = (do
      let node ← readElement strict tag (innerTextOf content)
      let nodes ← nodesOf strict rest
      pure (node.toList ++ nodes)) := by
  rw [nodesOf, Item.nodes, h]
  simp

/-- The nodes of two contents in a row. -/
theorem nodesOf_append (items more : List Item) :
    nodesOf strict (items ++ more) = (do
      let nodes ← nodesOf strict items
      let others ← nodesOf strict more
      pure (nodes ++ others)) := by
  induction items with
  | nil => simp [nodesOf_nil]
  | cons item items ih =>
    rw [List.cons_append, nodesOf, nodesOf, ih]
    simp only [bind_assoc, pure_bind, List.append_assoc]

theorem toList_reverse {α : Type} (a : Option α) : a.toList.reverse = a.toList := by
  cases a <;> rfl

/-- Walking through items reads their nodes, and then goes on behind them. -/
theorem walk_eq_bind (items : List Item) (read : List Node) (stack : List OpenContainer) :
    walk strict items read stack = (do
      let nodes ← nodesOf strict items
      walk strict [] (nodes.reverse ++ read) stack) := by
  match items with
  | [] => rw [nodesOf_nil, pure_bind, List.reverse_nil, List.nil_append]
  | .text s :: rest => rw [walk_text, nodesOf_text, walk_eq_bind rest]
  | .element tag attributes content :: rest =>
    cases h : containerOfTag? tag with
    | some kind =>
      have hrest (children : List Node) := walk_eq_bind rest (.container kind children :: read) stack
      rw [walk_container h, nodesOf_container h, walk_eq_bind content]
      simp only [bind_assoc, pure_bind, walk_nil_cons, List.append_nil, List.reverse_reverse, hrest,
        List.reverse_cons, List.append_assoc, List.singleton_append]
    | none =>
      have hrest (node : Option Node) := walk_eq_bind rest (node.toList ++ read) stack
      rw [walk_leaf h, nodesOf_leaf h]
      simp only [bind_assoc, pure_bind, hrest, List.reverse_append, toList_reverse,
        List.append_assoc]
termination_by countOf items
decreasing_by
  all_goals simp only [countOf, Item.count]
  all_goals omega

/-- The stack does not change what is read. -/
theorem walk_eq_nodesOf (items : List Item) : walk strict items [] [] = nodesOf strict items := by
  rw [walk_eq_bind]
  simp only [walk_nil_nil, List.append_nil, List.reverse_reverse, bind_pure]

/-- What is said of a top-level node that is left out. -/
def Notice.discarded (node : Node) : Notice :=
  .discardedValue ((node.kind?.map Kind.name).getD [])

/-- What top-level nodes come to: the first is the root, and the others are the last children of a
container, are left out behind a leaf, and are a fault for a strict reader. -/
def gathered (strict : Bool) (tag : Text) : List Node → Run (Option Node)
  | [] => pure none
  | [root] => pure (some root)
  | root :: second :: others =>
    if strict then Run.fault (.secondValue tag)
    else if root.isContainer then pure (some (root.appendAll (second :: others)))
    else ⟨(second :: others).map Notice.discarded, .ok (some root)⟩

theorem Node.appendAll_nil (node : Node) : node.appendAll [] = node := by
  cases node <;> simp [appendAll]

theorem Node.appendAll_of_not_isContainer {node : Node} (h : ¬node.isContainer = true)
    (more : List Node) : node.appendAll more = node := by
  cases node with
  | container kind children => exact absurd rfl h
  | leaf l => rfl
  | bare => rfl

/-- A container takes in what follows. -/
theorem gatherBehind_of_isContainer {root : Node} (h : root.isContainer = true) (tag : Text)
    (taken others : List Node) :
    gatherBehind false tag root taken others = pure (root.appendAll (taken.reverse ++ others)) := by
  induction others generalizing taken with
  | nil => rw [gatherBehind, List.append_nil]
  | cons node others ih =>
    rw [gatherBehind, if_neg Bool.false_ne_true, if_pos h, ih, List.reverse_cons,
      List.append_assoc, List.singleton_append]

/-- Nothing changes a leaf. -/
theorem gatherBehind_of_not_isContainer {root : Node} (h : ¬root.isContainer = true) (tag : Text)
    (taken others : List Node) :
    gatherBehind false tag root taken others = ⟨others.map Notice.discarded, .ok root⟩ := by
  induction others with
  | nil => rw [gatherBehind, Node.appendAll_of_not_isContainer h, Run.pure_def, List.map_nil]
  | cons node others ih =>
    rw [gatherBehind, if_neg Bool.false_ne_true, if_neg h, ih]
    rfl

theorem gather_eq (tag : Text) (nodes : List Node) :
    gather strict tag nodes = gathered strict tag nodes := by
  match strict, nodes with
  | _, [] => rfl
  | _, [root] =>
    rw [gather, gatherBehind, pure_bind, List.reverse_nil, Node.appendAll_nil, gathered]
  | true, _ :: _ :: _ => rfl
  | false, root :: second :: others =>
    rw [gather, gathered, if_neg Bool.false_ne_true]
    by_cases hroot : root.isContainer = true
    · rw [if_pos hroot, gatherBehind_of_isContainer hroot, pure_bind]
      rfl
    · rw [if_neg hroot, gatherBehind_of_not_isContainer hroot, Run.bind_ok, Run.pure_def,
        List.append_nil]

/-- A single node is the root, whoever reads it. -/
theorem gather_singleton (tag : Text) (root : Node) :
    gather strict tag [root] = pure (some root) := by
  rw [gather_eq, gathered]

theorem cutInput_natCast (input : Bytes) (n : Nat) : cutInput input (some n) = .ok (input.take n) := by
  rw [cutInput, if_neg (by omega), Int.toNat_natCast]

end PropertyList
