import PropertyList.Proofs.Leaf.Moment
import PropertyList.Proofs.Value.Fold
import PropertyList.Proofs.Value.OfNode
import PropertyList.Proofs.Value.Regular

/-! Values that come back from their nodes. A value that has a node comes back in a normal form, in
which there are no tuples, byte arrays, days, members of enumerations and records any more. -/
namespace PropertyList

namespace Value

mutual

/-- What a value comes back as: a tuple as a list, a byte array as bytes, a day as its first moment,
a moment in universal time, a member of an enumeration as its value, and a record as the dictionary
of its fields that have a value. -/
def normal : Value → Value
  | .byteArray b => .bytes b
  | .moment m => .moment m.universal
  | .day d => .moment ⟨d, .midnight, some 0⟩
  | .list items => .list (normalAll items)
  | .tuple items => .list (normalAll items)
  | .dict entries => .dict (normalEntries entries)
  | .enumeration _ v => v.normal
  | .record _ fields => .dict (normalFields fields)
  | .node n => n.value
  | v => v

def normalAll : List Value → List Value
  | [] => []
  | v :: rest => v.normal :: normalAll rest

def normalEntries : List (Value × Value) → List (Value × Value)
  | [] => []
  | (key, v) :: rest => (key, v.normal) :: normalEntries rest

def normalFields : List (Text × Value) → List (Value × Value)
  | [] => []
  | (name, v) :: rest =>
    match v with
    | .null => normalFields rest
    | v => (.string name, v.normal) :: normalFields rest

end

theorem map_fst_normalEntries (entries : List (Value × Value)) :
    (normalEntries entries).map Prod.fst = entries.map Prod.fst := by
  induction entries with
  | nil => rfl
  | cons entry entries ih => rw [normalEntries, List.map_cons, List.map_cons, ih]

theorem normalFields_null (name : Text) (fields : List (Text × Value)) :
    normalFields ((name, .null) :: fields) = normalFields fields := by
  rw [normalFields]

theorem normalFields_of_ne_null {v : Value} (h : v ≠ .null) (name : Text)
    (fields : List (Text × Value)) :
    normalFields ((name, v) :: fields) = (.string name, v.normal) :: normalFields fields := by
  rw [normalFields]
  exact h

theorem map_fst_normalFields_sublist (fields : List (Text × Value)) :
    ((normalFields fields).map Prod.fst).Sublist
      (fields.map fun field => Value.string field.1) := by
  induction fields with
  | nil => exact .slnil
  | cons field fields ih =>
    obtain ⟨name, v⟩ := field
    rw [List.map_cons]
    by_cases hv : v = .null
    · rw [hv, normalFields_null]
      exact ih.cons _
    · rw [normalFields_of_ne_null hv, List.map_cons]
      exact ih.cons_cons _

/-- Different texts are different keys. -/
theorem pairwise_map_string {names : List Text} :
    (names.map string).Pairwise (fun a b => a.sameKey b = false) ↔ names.Nodup := by
  simp only [List.pairwise_map, sameKey, beq_eq_false_iff_ne, ne_eq, List.Nodup]

/-- The fields of a record have different names, and so do the entries that they become. -/
theorem pairwise_normalFields {fields : List (Text × Value)} (h : (fields.map Prod.fst).Nodup) :
    ((normalFields fields).map Prod.fst).Pairwise fun a b => a.sameKey b = false := by
  have hnames := pairwise_map_string.mpr h
  rw [List.map_map] at hnames
  exact List.Pairwise.sublist (map_fst_normalFields_sublist fields) hnames

theorem setEntry_of_forall {key value : Value} {entries : List (Value × Value)}
    (h : ∀ k ∈ entries.map Prod.fst, k.sameKey key = false) :
    setEntry key value entries = entries ++ [(key, value)] := by
  induction entries with
  | nil => rfl
  | cons entry entries ih =>
    rw [List.map_cons, List.forall_mem_cons] at h
    rw [setEntry, h.1, if_neg Bool.false_ne_true, ih h.2, List.cons_append]

/-- Entries with different keys are the dictionary that they are set one after another to. -/
theorem ofEntries_of_pairwise {entries : List (Value × Value)}
    (h : (entries.map Prod.fst).Pairwise fun a b => a.sameKey b = false) :
    ofEntries entries = .dict entries := by
  have hfold (set : List (Value × Value))
      (hset : ((set ++ entries).map Prod.fst).Pairwise fun a b => a.sameKey b = false) :
      entries.foldl (fun set entry => setEntry entry.1 entry.2 set) set = set ++ entries := by
    induction entries generalizing set with
    | nil => rw [List.foldl_nil, List.append_nil]
    | cons entry entries ih =>
      have hnew : ∀ k ∈ set.map Prod.fst, k.sameKey entry.1 = false := by
        rw [List.map_append, List.pairwise_append] at hset
        intro k hk
        exact hset.2.2 k hk entry.1 (List.mem_cons_self ..)
      rw [List.foldl_cons, setEntry_of_forall hnew]
      rw [← List.singleton_append, ← List.append_assoc] at hset
      rw [ih (List.Pairwise.of_cons h) _ hset, List.append_assoc, List.singleton_append]
  rw [ofEntries, hfold [] h, List.nil_append]

end Value

namespace Node

theorem ofText_eq_ok {s : Text} {tree : Node} :
    ofText s = .ok tree ↔ s.isXml = true ∧ .leaf (.string s) = tree := by
  rw [ofText, except_map_eq_ok]
  simp only [titled_eq_ok, Leaf.ofString_eq_ok, and_assoc, exists_and_left, exists_eq_left']

theorem ofKeyText_eq_ok {s : Text} {tree : Node} :
    ofKeyText s = .ok tree ↔ s.isXml = true ∧ .leaf (.key s) = tree := by
  rw [ofKeyText, except_map_eq_ok]
  simp only [titled_eq_ok, Leaf.ofKey_eq_ok, and_assoc, exists_and_left, exists_eq_left']

theorem ofInteger_eq_ok {n : ℤ} {tree : Node} (h : ofInteger n = .ok tree) :
    0 ≤ n ∧ n ≤ maxInteger ∧ tree = .leaf (.integer n.toNat) := by
  unfold ofInteger at h
  split_ifs at h with hrange
  · simp only [Bool.and_eq_true, decide_eq_true_eq] at hrange
    cases h
    exact ⟨hrange.1, hrange.2, rfl⟩

theorem ofMoment_eq_ok {m : Moment} {tree : Node} (h : ofMoment m = .ok tree) :
    ∃ t : Timestamp, tree = .leaf (.date t) ∧ t.Valid ∧ t.toMoment = m.universal := by
  obtain ⟨leaf, hleaf, rfl⟩ := except_map_eq_ok.mp h
  obtain ⟨t, rfl, hvalid, htime⟩ := Timestamp.ofMoment_eq_ok (titled_eq_ok.mp hleaf)
  exact ⟨t, rfl, hvalid, htime⟩

theorem exists_ofMoment_iff {m : Moment} :
    (∃ tree, ofMoment m = .ok tree) ↔ m.inCalendar = true := by
  rw [← Timestamp.exists_ofMoment_iff]
  constructor
  · rintro ⟨tree, htree⟩
    obtain ⟨leaf, hleaf, -⟩ := except_map_eq_ok.mp htree
    exact ⟨leaf, titled_eq_ok.mp hleaf⟩
  · rintro ⟨leaf, hleaf⟩
    exact ⟨.leaf leaf, except_map_eq_ok.mpr ⟨leaf, titled_eq_ok.mpr hleaf, rfl⟩⟩

theorem arrayOf_eq_ok {nodes : List Node} {tree : Node} (h : arrayOf nodes = .ok tree) :
    tree = .array nodes := by
  dsimp only [arrayOf] at h
  split_ifs at h
  · cases h
    rfl

theorem entryOf_eq_ok {name : Text} {value : Except Failure Node} {entry : List Node}
    (h : entryOf name value = .ok entry) :
    ∃ node, value = .ok node ∧ name.isXml = true ∧ entry = [.leaf (.key name), node] := by
  obtain ⟨key, node, hkey, hnode, rfl⟩ := except_both_eq_ok.mp h
  obtain ⟨hxml, rfl⟩ := ofKeyText_eq_ok.mp hkey
  exact ⟨node, hnode, hxml, rfl⟩

/-- The children of a dictionary with an entry in front are its key, its value and the others. -/
theorem entryOf_append_eq_ok {name : Text} {value : Except Failure Node}
    {rest : Except Failure (List Node)} {children : List Node}
    (h : (do let entry ← entryOf name value; return entry ++ (← rest)) = .ok children) :
    ∃ node others, value = .ok node ∧ rest = .ok others ∧ name.isXml = true ∧
      children = .leaf (.key name) :: node :: others := by
  obtain ⟨entry, others, hentry, hothers, rfl⟩ := except_both_eq_ok.mp h
  obtain ⟨node, hnode, hxml, rfl⟩ := entryOf_eq_ok hentry
  exact ⟨node, others, hnode, hothers, hxml, rfl⟩

/-- A node that comes back as the normal form of a value. It is converted without a notice if the
value may hold no nodes. -/
structure IsNodeOf (nodes : Bool) (tree : Node) (v : Value) : Prop where
  valid : tree.Valid
  value_eq : tree.value = v.normal
  quiet : nodes = false → tree.notices = []

/-- Nodes that come back as the items of a list. -/
structure AreItemsOf (nodes : Bool) (children : List Node) (items : List Value) : Prop where
  valid : AllValid children
  values_eq : values children = Value.normalAll items
  quiet : nodes = false → noticesOfItems children = []

/-- Nodes that come back as the entries of a dictionary, all of which have texts for keys. -/
structure AreEntriesOf (nodes : Bool) (children : List Node) (entries : List (Value × Value)) :
    Prop where
  valid : AllValid children
  entries_eq : Node.entries children = entries
  skipped_eq : skipped children = []
  quiet : nodes = false → noticesOfEntries children = []

variable {nodes : Bool}

theorem AreItemsOf.array {children : List Node} {items : List Value} {v : Value}
    (h : AreItemsOf nodes children items) (hv : v.normal = .list (Value.normalAll items)) :
    IsNodeOf nodes (.array children) v where
  valid := h.valid
  value_eq := by rw [value, h.values_eq, hv]
  quiet := by
    intro hnodes
    rw [notices, h.quiet hnodes]

theorem AreEntriesOf.dict {children : List Node} {entries : List (Value × Value)} {v : Value}
    (h : AreEntriesOf nodes children entries) (hv : v.normal = .dict entries)
    (hkeys : (entries.map Prod.fst).Pairwise fun a b => a.sameKey b = false) :
    IsNodeOf nodes (.dict children) v where
  valid := h.valid
  value_eq := by rw [value, h.entries_eq, Value.ofEntries_of_pairwise hkeys, hv]
  quiet := by
    intro hnodes
    rw [notices, h.skipped_eq, h.quiet hnodes, List.nil_append]

theorem areEntriesOf_nil : AreEntriesOf nodes [] [] :=
  ⟨trivial, rfl, rfl, fun _ => rfl⟩

theorem AreEntriesOf.cons {name : Text} {node : Node} {v : Value} {children : List Node}
    {entries : List (Value × Value)} (hname : name.isXml = true) (hnode : IsNodeOf nodes node v)
    (h : AreEntriesOf nodes children entries) :
    AreEntriesOf nodes (.leaf (.key name) :: node :: children)
      ((.string name, v.normal) :: entries) where
  valid := ⟨hname, hnode.valid, h.valid⟩
  entries_eq := by
    rw [Node.entries, h.entries_eq, hnode.value_eq]
    rfl
  skipped_eq := by
    rw [skipped, h.skipped_eq]
    rfl
  quiet := by
    intro hnodes
    rw [noticesOfEntries, h.quiet hnodes, hnode.quiet hnodes]
    rfl

mutual

/-- The node of a regular value is valid, and comes back as the normal form of the value. -/
theorem isNodeOf_ofValueIn (nodes inRecord : Bool) : (v : Value) → v.Regular nodes →
    (inRecord = true → nodes = false) → (tree : Node) → ofValueIn inRecord v = .ok tree →
      IsNodeOf nodes tree v
  | .node n, h, hrecord, tree, hok => by
    rw [Value.Regular] at h
    obtain ⟨rfl, hvalid⟩ := h
    have hout : inRecord = false := by simpa using hrecord
    rw [ofValueIn, hout] at hok
    cases hok
    exact ⟨hvalid, rfl, by simp⟩
  | .record type fields, h, _, tree, hok => by
    rw [Value.Regular] at h
    obtain ⟨children, hchildren, rfl⟩ := except_map_eq_ok.mp hok
    have hfields := areEntriesOf_fieldNodes fields h.2 children hchildren
    have hwhole := hfields.dict (v := .record type fields) rfl (Value.pairwise_normalFields h.1)
    exact ⟨hwhole.valid, hwhole.value_eq, fun _ => hwhole.quiet rfl⟩
  | .enumeration _ v, h, _, tree, hok => by
    rw [Value.Regular] at h
    rw [ofValueIn] at hok
    have hv := isNodeOf_ofValueIn nodes false v h (by simp) tree hok
    exact ⟨hv.valid, hv.value_eq, hv.quiet⟩
  | .boolean b, _, _, tree, hok => by
    cases hok
    exact ⟨trivial, rfl, fun _ => rfl⟩
  | .integer n, _, _, tree, hok => by
    obtain ⟨hzero, hmax, rfl⟩ := ofInteger_eq_ok hok
    exact ⟨Int.toNat_le.mpr hmax, congrArg Value.integer (Int.toNat_of_nonneg hzero),
      fun _ => rfl⟩
  | .real x, _, _, tree, hok => by
    cases hok
    exact ⟨trivial, rfl, fun _ => rfl⟩
  | .string s, _, _, tree, hok => by
    obtain ⟨hxml, rfl⟩ := ofText_eq_ok.mp hok
    exact ⟨hxml, rfl, fun _ => rfl⟩
  | .bytes b, _, _, tree, hok => by
    cases hok
    exact ⟨trivial, rfl, fun _ => rfl⟩
  | .byteArray b, _, _, tree, hok => by
    cases hok
    exact ⟨trivial, rfl, fun _ => rfl⟩
  | .moment m, _, _, tree, hok => by
    obtain ⟨t, rfl, hvalid, htime⟩ := ofMoment_eq_ok hok
    refine ⟨hvalid, ?_, fun _ => rfl⟩
    rw [value, Leaf.value, htime, Value.normal]
  | .day d, h, _, tree, hok => by
    rw [Value.Regular] at h
    obtain ⟨t, rfl, hvalid, htime⟩ := ofMoment_eq_ok hok
    refine ⟨hvalid, ?_, fun _ => rfl⟩
    have hmidnight : Clock.midnight.exists? = true := by decide
    rw [value, Leaf.value, htime, Value.normal, Moment.universal_of_offset h hmidnight rfl]
  | .dict entries, h, hrecord, tree, hok => by
    rw [Value.Regular] at h
    obtain ⟨children, hchildren, rfl⟩ := except_map_eq_ok.mp hok
    have hentries := areEntriesOf_entryNodes nodes inRecord entries h.2 hrecord children hchildren
    refine hentries.dict rfl ?_
    rw [Value.map_fst_normalEntries]
    exact h.1
  | .list items, h, hrecord, tree, hok => by
    rw [Value.Regular] at h
    obtain ⟨children, hchildren, harray⟩ := except_bind_eq_ok.mp hok
    rw [arrayOf_eq_ok harray]
    exact (areItemsOf_itemNodes nodes inRecord items h hrecord children hchildren).array rfl
  | .tuple items, h, hrecord, tree, hok => by
    rw [Value.Regular] at h
    obtain ⟨children, hchildren, harray⟩ := except_bind_eq_ok.mp hok
    rw [arrayOf_eq_ok harray]
    exact (areItemsOf_itemNodes nodes inRecord items h hrecord children hchildren).array rfl
  | .null, _, _, tree, hok => by cases hok
  | .foreign _, _, _, tree, hok => by cases hok

theorem areItemsOf_itemNodes (nodes inRecord : Bool) : (items : List Value) →
    Value.AllRegular nodes items → (inRecord = true → nodes = false) → (children : List Node) →
      itemNodes inRecord items = .ok children → AreItemsOf nodes children items
  | [], _, _, children, hok => by
    cases hok
    exact ⟨trivial, rfl, fun _ => rfl⟩
  | v :: rest, h, hrecord, children, hok => by
    rw [Value.AllRegular] at h
    obtain ⟨node, others, hnode, hothers, rfl⟩ := except_both_eq_ok.mp hok
    have hfirst := isNodeOf_ofValueIn nodes inRecord v h.1 hrecord node hnode
    have hrest := areItemsOf_itemNodes nodes inRecord rest h.2 hrecord others hothers
    refine ⟨⟨hfirst.valid, hrest.valid⟩, ?_, ?_⟩
    · rw [values, Value.normalAll, hfirst.value_eq, hrest.values_eq]
    · intro hnodes
      rw [noticesOfItems, hrest.quiet hnodes, hfirst.quiet hnodes, List.nil_append]

theorem areEntriesOf_entryNodes (nodes inRecord : Bool) : (entries : List (Value × Value)) →
    Value.EntriesRegular nodes entries → (inRecord = true → nodes = false) →
      (children : List Node) → entryNodes inRecord entries = .ok children →
        AreEntriesOf nodes children (Value.normalEntries entries)
  | [], _, _, children, hok => by
    cases hok
    exact areEntriesOf_nil
  | (key, v) :: rest, h, hrecord, children, hok => by
    rw [Value.EntriesRegular] at h
    cases key with
    | string name =>
      obtain ⟨node, others, hnode, hothers, hname, rfl⟩ := entryOf_append_eq_ok hok
      exact (areEntriesOf_entryNodes nodes inRecord rest h.2 hrecord others hothers).cons hname
        (isNodeOf_ofValueIn nodes inRecord v h.1 hrecord node hnode)
    | _ => cases hok

theorem areEntriesOf_fieldNodes : (fields : List (Text × Value)) → Value.FieldsRegular fields →
    (children : List Node) → fieldNodes fields = .ok children →
      AreEntriesOf false children (Value.normalFields fields)
  | [], _, children, hok => by
    cases hok
    exact areEntriesOf_nil
  | (name, v) :: rest, h, children, hok => by
    rw [Value.FieldsRegular] at h
    by_cases hv : v = .null
    · rw [hv, fieldNodes_null] at hok
      rw [hv, Value.normalFields_null]
      exact areEntriesOf_fieldNodes rest h.2 children hok
    · rw [fieldNodes_of_ne_null hv] at hok
      obtain ⟨node, others, hnode, hothers, hname, rfl⟩ := entryOf_append_eq_ok hok
      rw [Value.normalFields_of_ne_null hv]
      exact (areEntriesOf_fieldNodes rest h.2 others hothers).cons hname
        (isNodeOf_ofValueIn false true v h.1 (fun _ => rfl) node hnode)

end

end Node

end PropertyList
