import PropertyList.Proofs.Value.Entries
import PropertyList.Proofs.Value.Room
import PropertyList.Proofs.Value.Typing

/-! Trees that values come from. The value of a tree has this tree as its node again if all
dictionaries in the tree are paired: keys and values alternate, no key stands twice, and there are
no keys elsewhere. No other tree is found again. -/
namespace PropertyList.Node

def isKey (node : Node) : Bool := node.kind? == some .key

theorem isKey_iff {node : Node} : node.isKey = true ↔ ∃ name, node = .leaf (.key name) := by
  rcases node with l | ⟨kind, children⟩ | _
  · cases l <;> simp [isKey, kind?, Leaf.kind]
  · cases kind <;> simp [isKey, kind?, ContainerKind.kind]
  · simp [isKey, kind?]

mutual

/-- Whether the dictionaries in a tree are paired, and there are no keys elsewhere. In a paired
dictionary every second child from the first on is a key, and no two of these have one text. -/
def isPaired : Node → Bool
  | .leaf l => !(Node.leaf l).isKey
  | .container .array children => arePaired children
  | .container .dict children => decide (keyTexts children).Nodup && entriesPaired children
  | .bare => false

def arePaired : List Node → Bool
  | [] => true
  | node :: rest => node.isPaired && arePaired rest

def entriesPaired : List Node → Bool
  | [] => true
  | [_] => false
  | key :: node :: rest => key.isKey && node.isPaired && entriesPaired rest

end

variable {inRecord : Bool} {entries : List (Value × Value)} {children : List Node}

/-- The children for some entries are none, or the key and the value of the first one in front of
those for the others. -/
theorem entryNodes_cases (h : entryNodes inRecord entries = .ok children) :
    (entries = [] ∧ children = []) ∨
    ∃ name v rest node others, entries = (.string name, v) :: rest ∧
      children = .leaf (.key name) :: node :: others ∧
      ofValueIn inRecord v = .ok node ∧ entryNodes inRecord rest = .ok others ∧
      name.isXml = true := by
  cases entries with
  | nil =>
    cases h
    exact .inl ⟨rfl, rfl⟩
  | cons entry rest =>
    obtain ⟨key, v⟩ := entry
    cases key with
    | string name =>
      obtain ⟨node, others, hnode, hothers, hname, rfl⟩ := entryOf_append_eq_ok h
      exact .inr ⟨name, v, rest, node, others, rfl, rfl, hnode, hothers, hname⟩
    | _ => cases h

theorem entryNodes_cons_eq_ok {name : Text} (hname : name.isXml = true) {v : Value} {node : Node} :
    entryNodes inRecord ((.string name, v) :: entries) = .ok (.leaf (.key name) :: node :: children) ↔
      ofValueIn inRecord v = .ok node ∧ entryNodes inRecord entries = .ok children := by
  constructor
  · intro hok
    obtain ⟨hnil, -⟩ | ⟨name, v, rest, first, others, hentries, hchildren, hnode, hrest, -⟩ :=
      entryNodes_cases hok
    · cases hnil
    · cases hentries
      cases hchildren
      exact ⟨hnode, hrest⟩
  · rintro ⟨hnode, hrest⟩
    rw [entryNodes, hnode, entryOf_of_isXml hname, hrest]
    rfl

theorem itemNodes_cons_eq_ok {v : Value} {items : List Value} {node : Node} :
    itemNodes inRecord (v :: items) = .ok (node :: children) ↔
      ofValueIn inRecord v = .ok node ∧ itemNodes inRecord items = .ok children := by
  rw [itemNodes, except_both_eq_ok]
  constructor
  · rintro ⟨first, others, hnode, hrest, hpair⟩
    cases hpair
    exact ⟨hnode, hrest⟩
  · rintro ⟨hnode, hrest⟩
    exact ⟨node, children, hnode, hrest, rfl⟩

theorem bind_arrayOf_eq_ok {nodes : Except Failure (List Node)}
    (h : arrayOf children = .ok (.array children)) :
    nodes >>= arrayOf = .ok (.array children) ↔ nodes = .ok children := by
  rw [except_bind_eq_ok]
  constructor
  · rintro ⟨others, hothers, harray⟩
    cases arrayOf_eq_ok harray
    exact hothers
  · intro hnodes
    exact ⟨children, hnodes, h⟩

theorem map_fst_of_entryNodes (h : entryNodes inRecord entries = .ok children) :
    entries.map Prod.fst = (keyTexts children).map Value.string := by
  induction entries generalizing children with
  | nil =>
    cases h
    rfl
  | cons entry entries ih =>
    obtain ⟨hnil, -⟩ | ⟨name, v, rest, node, others, heq, rfl, -, hothers, -⟩ := entryNodes_cases h
    · cases hnil
    · cases heq
      rw [List.map_cons, ih hothers]
      rfl

/-- A valid dictionary that is made of the entries of its value has no key twice. -/
theorem nodup_of_entryNodes (hchildren : AllValid children)
    (hvalue : value (.dict children) = .dict entries)
    (h : entryNodes inRecord entries = .ok children) : (keyTexts children).Nodup := by
  have hregular := regular_value (.dict children) hchildren
  rw [hvalue, Value.Regular, map_fst_of_entryNodes h, Value.pairwise_map_string] at hregular
  exact hregular.1

/-- If no key of a dictionary stands twice, its value has the entries in it. -/
theorem value_dict_of_nodup (h : (keyTexts children).Nodup) :
    value (.dict children) = .dict (Node.entries children) := by
  apply Value.ofEntries_of_pairwise
  rw [map_fst_entries, Value.pairwise_map_string]
  exact h

/-- A leaf other than a key is the node of its value. -/
theorem ofValueIn_leafValue (inRecord : Bool) {l : Leaf} (h : l.Valid)
    (hkey : ¬(Node.leaf l).isKey = true) :
    ofValueIn inRecord l.value = .ok (.leaf l) := by
  cases l with
  | integer n => exact ofInteger_of_le (Int.natCast_nonneg n) (Int.ofNat_le.mpr h)
  | string s => exact ofText_of_isXml h
  | key s => exact absurd rfl hkey
  | date t =>
    rw [Leaf.value, ofValueIn, ofMoment, Timestamp.ofMoment_toMoment h]
    rfl
  | _ => rfl

mutual

/-- Just the paired ones among the valid trees are the nodes of their values. -/
theorem ofValueIn_value_iff : (node : Node) → node.Valid →
    (ofValueIn false node.value = .ok node ↔ node.isPaired = true)
  | .leaf l, h => by
    rw [value, isPaired, Bool.not_eq_true', ← Bool.not_eq_true]
    constructor
    · intro hok hkey
      obtain ⟨name, hname⟩ := isKey_iff.mp hkey
      cases hname
      obtain ⟨-, hstring⟩ := ofText_eq_ok.mp hok
      cases hstring
    · intro hkey
      exact ofValueIn_leafValue false h hkey
  | .array children, h => by
    rw [value, ofValueIn, isPaired, ← itemNodes_values_iff children h]
    exact bind_arrayOf_eq_ok (arrayOf_of_allValid h)
  | .dict children, h => by
    rw [isPaired, Bool.and_eq_true, decide_eq_true_eq, ← entryNodes_entries_iff children h]
    by_cases hnodup : (keyTexts children).Nodup
    · rw [value_dict_of_nodup hnodup, ofValueIn, except_map_eq_ok]
      simp [hnodup]
    · -- a key that stands twice is set only once, and the entries are others than the children
      obtain ⟨set, hset, -⟩ := exists_value_dict children
      rw [hset, ofValueIn, except_map_eq_ok]
      constructor
      · rintro ⟨nodes, hnodes, hdict⟩
        cases hdict
        exact absurd (nodup_of_entryNodes h hset hnodes) hnodup
      · rintro ⟨hkeys, -⟩
        exact absurd hkeys hnodup

theorem itemNodes_values_iff : (nodes : List Node) → AllValid nodes →
    (itemNodes false (values nodes) = .ok nodes ↔ arePaired nodes = true)
  | [], _ => by simp [itemNodes, values, arePaired]
  | node :: rest, h => by
    rw [arePaired, Bool.and_eq_true, ← ofValueIn_value_iff node h.1,
      ← itemNodes_values_iff rest h.2, values, itemNodes_cons_eq_ok]

theorem entryNodes_entries_iff : (nodes : List Node) → AllValid nodes →
    (entryNodes false (Node.entries nodes) = .ok nodes ↔ entriesPaired nodes = true)
  | [], _ => by simp [entryNodes, Node.entries, entriesPaired]
  | [key], _ => by
    constructor
    · intro hok
      obtain ⟨-, hnil⟩ | ⟨name, v, rest, node, others, -, heq, -, -⟩ := entryNodes_cases hok
      · cases hnil
      · cases heq
    · intro hpaired
      cases hpaired
  | key :: node :: rest, h => by
    rw [entriesPaired, Bool.and_eq_true, Bool.and_eq_true, ← ofValueIn_value_iff node h.2.1,
      ← entryNodes_entries_iff rest h.2.2]
    by_cases hkey : key.isKey = true
    · obtain ⟨name, rfl⟩ := isKey_iff.mp hkey
      have hentries : Node.entries (.leaf (.key name) :: node :: rest) =
          (.string name, node.value) :: Node.entries rest := rfl
      rw [hentries, entryNodes_cons_eq_ok h.1, and_iff_right hkey]
    · constructor
      · intro hok
        obtain ⟨-, hnil⟩ | ⟨name, v, more, first, others, -, heq, -, -⟩ := entryNodes_cases hok
        · cases hnil
        · cases heq
          exact absurd rfl hkey
      · rintro ⟨⟨hkey', -⟩, -⟩
        exact absurd hkey' hkey

end

section Room

variable (host : Host)

mutual

/-- There are no records in the value of a node. -/
theorem dumpedBy_value : (node : Node) → node.value.DumpedBy host
  | .leaf l => by cases l <;> trivial
  | .array children => allDumpedBy_values children
  | .dict children => by
    have hentries := Value.entriesDumpedBy_iff.mp (entriesDumpedBy_entries children)
    exact Value.entriesDumpedBy_iff.mpr (Value.forall_mem_foldl_setEntry (by simp) hentries)
  | .bare => trivial

theorem allDumpedBy_values : (nodes : List Node) → Value.AllDumpedBy host (values nodes)
  | [] => trivial
  | node :: rest => ⟨dumpedBy_value node, allDumpedBy_values rest⟩

theorem entriesDumpedBy_entries : (nodes : List Node) →
    Value.EntriesDumpedBy host (Node.entries nodes)
  | [] => trivial
  | [key] => by
    cases hkey : key.keyText? <;> simp [Node.entries, hkey, Value.EntriesDumpedBy, Value.DumpedBy]
  | key :: node :: rest => by
    have hnode := dumpedBy_value node
    have hrest := entriesDumpedBy_entries rest
    cases hkey : key.keyText? <;> simp [Node.entries, hkey, Value.EntriesDumpedBy, hnode, hrest]

end

end Room

/-- An array in an array, a number of times, each time behind some other nodes. -/
def nested (front : List Node) : ℕ → Node
  | 0 => .array []
  | n + 1 => .array (front ++ [nested front n])

section Nested

variable {front : List Node} (depth : ℕ)

end Nested

end PropertyList.Node
