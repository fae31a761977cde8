import PropertyList.Proofs.Value.Paired

/-! Records unfolded into the dictionaries of their fields. A record without nodes has the node of
the dictionary that it unfolds into. The nodes in a record are spelled out as dictionaries of their
own fields, so that a record with nodes has another one. -/
namespace PropertyList

namespace Value

mutual

/-- The nodes in a value, but for those in members of enumerations. -/
def nodes : Value → List Node
  | .list items => nodesOfItems items
  | .tuple items => nodesOfItems items
  | .dict entries => nodesOfEntries entries
  | .record _ fields => nodesOfFields fields
  | .node n => [n]
  | _ => []

def nodesOfItems : List Value → List Node
  | [] => []
  | v :: rest => v.nodes ++ nodesOfItems rest

def nodesOfEntries : List (Value × Value) → List Node
  | [] => []
  | (_, v) :: rest => v.nodes ++ nodesOfEntries rest

def nodesOfFields : List (Text × Value) → List Node
  | [] => []
  | (_, v) :: rest => v.nodes ++ nodesOfFields rest

end

variable {put other : Node → Value}

mutual

/-- A value unfolds in one way only, but for the nodes in it. -/
theorem unfolded_congr : (v : Value) → (∀ n ∈ v.nodes, put n = other n) →
    v.unfolded put = v.unfolded other
  | .list items, h => by rw [unfolded, unfolded, unfoldedAll_congr items h]
  | .tuple items, h => by rw [unfolded, unfolded, unfoldedAll_congr items h]
  | .dict entries, h => by rw [unfolded, unfolded, unfoldedEntries_congr entries h]
  | .record _ fields, h => by rw [unfolded, unfolded, unfoldedFields_congr fields h]
  | .node n, h => h n (List.mem_singleton_self n)
  | .null, _ => rfl
  | .boolean _, _ => rfl
  | .integer _, _ => rfl
  | .real _, _ => rfl
  | .string _, _ => rfl
  | .bytes _, _ => rfl
  | .byteArray _, _ => rfl
  | .moment _, _ => rfl
  | .day _, _ => rfl
  | .enumeration _ _, _ => rfl
  | .foreign _, _ => rfl

theorem unfoldedAll_congr : (items : List Value) → (∀ n ∈ nodesOfItems items, put n = other n) →
    unfoldedAll put items = unfoldedAll other items
  | [], _ => rfl
  | v :: rest, h => by
    rw [nodesOfItems, List.forall_mem_append] at h
    rw [unfoldedAll, unfoldedAll, unfolded_congr v h.1, unfoldedAll_congr rest h.2]

theorem unfoldedEntries_congr : (entries : List (Value × Value)) →
    (∀ n ∈ nodesOfEntries entries, put n = other n) →
      unfoldedEntries put entries = unfoldedEntries other entries
  | [], _ => rfl
  | (key, v) :: rest, h => by
    rw [nodesOfEntries, List.forall_mem_append] at h
    rw [unfoldedEntries, unfoldedEntries, unfolded_congr v h.1, unfoldedEntries_congr rest h.2]

theorem unfoldedFields_congr : (fields : List (Text × Value)) →
    (∀ n ∈ nodesOfFields fields, put n = other n) →
      unfoldedFields put fields = unfoldedFields other fields
  | [], _ => rfl
  | (name, v) :: rest, h => by
    rw [nodesOfFields, List.forall_mem_append] at h
    by_cases hv : v = .null
    · rw [hv, unfoldedFields_null, unfoldedFields_null, unfoldedFields_congr rest h.2]
    · rw [unfoldedFields_of_ne_null hv, unfoldedFields_of_ne_null hv, unfolded_congr v h.1,
        unfoldedFields_congr rest h.2]

end

end Value

namespace Node

/-- A container is spelled out as a dictionary with its children, spelled out, in an array. -/
theorem spelled_container_cases {kind : ContainerKind} {nodes : List Node} {tree : Node}
    (h : spelled (.container kind nodes) = .ok tree) :
    ∃ name children, spelledAll nodes = .ok children ∧
      tree = .dict [.leaf (.key (text "type")), name, .leaf (.key (text "children")),
        .array children] := by
  obtain ⟨first, second, hfirst, hsecond, rfl⟩ := except_both_eq_ok.mp h
  obtain ⟨name, -, -, rfl⟩ := entryOf_eq_ok hfirst
  obtain ⟨array, harray, -, rfl⟩ := entryOf_eq_ok hsecond
  obtain ⟨children, hchildren, hok⟩ := except_bind_eq_ok.mp harray
  cases arrayOf_eq_ok hok
  exact ⟨name, children, hchildren, rfl⟩

mutual

/-- A node that is spelled out has no fewer nodes in it than before. -/
theorem count_le_of_spelled : (node : Node) → (tree : Node) → node.spelled = .ok tree →
    node.count ≤ tree.count
  | .leaf l, tree, _ => by cases tree <;> simp [count]
  | .container kind nodes, tree, h => by
    obtain ⟨name, children, hchildren, rfl⟩ := spelled_container_cases h
    have hle := countAll_le_of_spelledAll nodes children hchildren
    simp only [count, countAll]
    omega
  | .bare, tree, _ => by cases tree <;> simp [count]

theorem countAll_le_of_spelledAll : (nodes : List Node) → (children : List Node) →
    spelledAll nodes = .ok children → countAll nodes ≤ countAll children
  | [], _, _ => Nat.zero_le _
  | node :: rest, children, h => by
    obtain ⟨first, others, hfirst, hothers, rfl⟩ := except_both_eq_ok.mp h
    exact Nat.add_le_add (count_le_of_spelled node first hfirst)
      (countAll_le_of_spelledAll rest others hothers)

end

/-- No node is spelled out as itself. -/
theorem ne_of_spelled {node tree : Node} (h : node.spelled = .ok tree) : node ≠ tree := by
  rintro rfl
  cases node with
  | leaf l =>
    obtain ⟨entries, hentries⟩ : ∃ entries, l.spelledValue = .dict entries := ⟨_, rfl⟩
    rw [spelled_leaf l, hentries, ofValueIn, except_map_eq_ok] at h
    obtain ⟨children, -, hdict⟩ := h
    cases hdict
  | container kind nodes =>
    -- the children are now in an array of their own, behind other nodes
    obtain ⟨name, children, hchildren, heq⟩ := spelled_container_cases h
    have hle := countAll_le_of_spelledAll nodes children hchildren
    have hcount := congrArg count heq
    simp only [count, countAll] at hcount
    omega
  | bare => cases h

mutual

/-- Inside a record, a value has the node of what it unfolds into just if there are no nodes in it. -/
theorem ofValueIn_unfolded_iff : (v : Value) → (tree : Node) → ofValueIn true v = .ok tree →
    (ofValueIn false (v.unfolded .node) = .ok tree ↔ v.nodes = [])
  | .list items, tree, hok => by
    obtain ⟨children, hchildren, harray⟩ := except_bind_eq_ok.mp hok
    cases arrayOf_eq_ok harray
    rw [Value.unfolded, Value.nodes, ofValueIn, ← itemNodes_unfolded_iff items children hchildren]
    exact bind_arrayOf_eq_ok harray
  | .tuple items, tree, hok => by
    obtain ⟨children, hchildren, harray⟩ := except_bind_eq_ok.mp hok
    cases arrayOf_eq_ok harray
    rw [Value.unfolded, Value.nodes, ofValueIn, ← itemNodes_unfolded_iff items children hchildren]
    exact bind_arrayOf_eq_ok harray
  | .dict entries, tree, hok => by
    obtain ⟨children, hchildren, rfl⟩ := except_map_eq_ok.mp hok
    rw [Value.unfolded, Value.nodes, ofValueIn,
      ← entryNodes_unfolded_iff entries children hchildren, except_map_eq_ok]
    simp only [container.injEq, true_and, exists_eq_right]
  | .record _ fields, tree, hok => by
    obtain ⟨children, hchildren, rfl⟩ := except_map_eq_ok.mp hok
    rw [Value.unfolded, Value.nodes, ofValueIn,
      ← fieldNodes_unfolded_iff fields children hchildren, except_map_eq_ok]
    simp only [container.injEq, true_and, exists_eq_right]
  | .node n, tree, hok => by
    have hne : n ≠ tree := ne_of_spelled hok
    rw [Value.unfolded, Value.nodes, ofValueIn, if_neg Bool.false_ne_true]
    exact iff_of_false (fun heq => hne (Except.ok.inj heq)) (List.cons_ne_nil n [])
  | .null, _, hok => iff_of_true hok rfl
  | .boolean _, _, hok => iff_of_true hok rfl
  | .integer _, _, hok => iff_of_true hok rfl
  | .real _, _, hok => iff_of_true hok rfl
  | .string _, _, hok => iff_of_true hok rfl
  | .bytes _, _, hok => iff_of_true hok rfl
  | .byteArray _, _, hok => iff_of_true hok rfl
  | .moment _, _, hok => iff_of_true hok rfl
  | .day _, _, hok => iff_of_true hok rfl
  | .enumeration _ _, _, hok => iff_of_true hok rfl
  | .foreign _, _, hok => iff_of_true hok rfl

theorem itemNodes_unfolded_iff : (items : List Value) → (children : List Node) →
    itemNodes true items = .ok children →
      (itemNodes false (Value.unfoldedAll .node items) = .ok children ↔
        Value.nodesOfItems items = [])
  | [], _, hok => iff_of_true hok rfl
  | v :: rest, children, hok => by
    obtain ⟨node, others, hnode, hothers, rfl⟩ := except_both_eq_ok.mp hok
    rw [Value.unfoldedAll, itemNodes_cons_eq_ok, Value.nodesOfItems, List.append_eq_nil_iff,
      ofValueIn_unfolded_iff v node hnode, itemNodes_unfolded_iff rest others hothers]

theorem entryNodes_unfolded_iff : (entries : List (Value × Value)) → (children : List Node) →
    entryNodes true entries = .ok children →
      (entryNodes false (Value.unfoldedEntries .node entries) = .ok children ↔
        Value.nodesOfEntries entries = [])
  | [], _, hok => iff_of_true hok rfl
  | (key, v) :: rest, children, hok => by
    cases key with
    | string name =>
      obtain ⟨node, others, hnode, hothers, hname, rfl⟩ := entryOf_append_eq_ok hok
      rw [Value.unfoldedEntries, entryNodes_cons_eq_ok hname, Value.nodesOfEntries,
        List.append_eq_nil_iff, ofValueIn_unfolded_iff v node hnode,
        entryNodes_unfolded_iff rest others hothers]
    | _ => cases hok

theorem fieldNodes_unfolded_iff : (fields : List (Text × Value)) → (children : List Node) →
    fieldNodes fields = .ok children →
      (entryNodes false (Value.unfoldedFields .node fields) = .ok children ↔
        Value.nodesOfFields fields = [])
  | [], _, hok => iff_of_true hok rfl
  | (name, v) :: rest, children, hok => by
    by_cases hv : v = .null
    · subst hv
      rw [fieldNodes_null] at hok
      rw [Value.unfoldedFields_null, fieldNodes_unfolded_iff rest children hok]
      rfl
    · rw [fieldNodes_of_ne_null hv] at hok
      obtain ⟨node, others, hnode, hothers, hname, rfl⟩ := entryOf_append_eq_ok hok
      rw [Value.unfoldedFields_of_ne_null hv, entryNodes_cons_eq_ok hname, Value.nodesOfFields,
        List.append_eq_nil_iff, ofValueIn_unfolded_iff v node hnode,
        fieldNodes_unfolded_iff rest others hothers]

end

section Record

variable {host : Host} {type : ClassName} {fields : List (Text × Value)}

/-- Beyond the calls for a single value, a record and what it is dumped as take the same room. -/
theorem ofValue_record_eq {entries : List (Value × Value)}
    (hdump : host.dump type fields = .ok entries) {most room : ℕ}
    (hcalls : ∀ v, host.calls v ≤ most) (hroom : most < room) :
    ofValue host room (.record type fields) = ofValue host room (.dict entries) := by
  cases room with
  | zero => omega
  | succ room =>
    have hfree (v : Value) : ¬ room < host.calls v := by
      have := hcalls v
      omega
    rw [ofValue_record (hfree _), ofValue_dict (hfree _), hdump]
    rfl

/-- A record that is dumped as its fields has the node of the dictionary that it unfolds into with its
nodes spelled out, and fails as this dictionary does. Without nodes in it, this is the dictionary of
its fields. Where both have a node, these are the same one just if the record holds no nodes. -/
theorem ofValue_record_unfolded (h : (Value.record type fields).DumpedBy host) :
    (∀ most room, (∀ v, host.calls v ≤ most) → most < room →
      ofValue host room (.record type fields) =
          ofValue host room (.dict (Value.unfoldedFields spelledValue fields)) ∧
        (Value.nodesOfFields fields = [] → ofValue host room (.record type fields) =
          ofValue host room (.dict (Value.unfoldedFields .node fields)))) ∧
    ∀ room tree, ofValue host room (.record type fields) = .ok tree →
      ∀ room' other, ofValue host room' (.dict (Value.unfoldedFields .node fields)) = .ok other →
        (tree = other ↔ Value.nodesOfFields fields = []) := by
  refine ⟨?_, ?_⟩
  · intro most room hcalls hroom
    have hspelled := ofValue_record_eq h.1 hcalls hroom
    refine ⟨hspelled, fun hnone => ?_⟩
    rw [hspelled, Value.dumpedFields,
      Value.unfoldedFields_congr fields (fun n hn => by simp [hnone] at hn)]
  · intro room tree htree room' other hother
    have hput (n : Node) : (Value.node n).DumpedBy host := trivial
    have hentries : (Value.dict (Value.unfoldedFields .node fields)).DumpedBy host :=
      Value.entriesDumpedBy_unfoldedFields hput fields h.2
    have hfields := ofValueIn_unfolded_iff (.record type fields) tree (ofValueIn_of_ofValue h htree)
    have hdirect := ofValueIn_of_ofValue hentries hother
    rw [Value.nodes, Value.unfolded, hdirect, Except.ok.injEq] at hfields
    rw [← hfields, eq_comm]

end Record

/-- A bag with a text in a node. -/
theorem ofValue_record_unfolded_bag :
    ofValue .plain 20 (.record ⟨[], text "Bag"⟩ [(text "a", .node (.leaf (.string (text "x")))),
        (text "b", .null)]) =
      .ok (.dict [.leaf (.key (text "a")), .dict [
        .leaf (.key (text "type")), .leaf (.string (text "string")),
        .leaf (.key (text "value")), .leaf (.string (text "x"))]]) ∧
    ofValue .plain 20 (.dict (Value.unfoldedFields .node
        [(text "a", .node (.leaf (.string (text "x")))), (text "b", .null)])) ≠
      .ok (.dict [.leaf (.key (text "a")), .dict [
        .leaf (.key (text "type")), .leaf (.string (text "string")),
        .leaf (.key (text "value")), .leaf (.string (text "x"))]]) := by
  have hbag : ofValue .plain 20 (.record ⟨[], text "Bag"⟩ [
      (text "a", .node (.leaf (.string (text "x")))), (text "b", .null)]) =
        .ok (.dict [.leaf (.key (text "a")), .dict [
          .leaf (.key (text "type")), .leaf (.string (text "string")),
          .leaf (.key (text "value")), .leaf (.string (text "x"))]]) := rfl
  refine ⟨hbag, ?_⟩
  intro hdict
  have hnone := ((ofValue_record_unfolded (Value.dumpedBy_plain _)).2 20 _ hbag 20 _ hdict).mp rfl
  cases hnone

end Node

end PropertyList
