import PropertyList.Document.Writer
import PropertyList.Proofs.Value.Normal
import PropertyList.Proofs.Value.Room

/-! Which nodes of values can be written. A node that stands in a value outside of records is taken
as it is, so that one of no kind is in the way of the document; inside a record it is spelled out. -/
namespace PropertyList

namespace Node

theorem areWritable_append (front back : List Node) :
    areWritable (front ++ back) = (areWritable front && areWritable back) := by
  induction front with
  | nil => rfl
  | cons node front ih => rw [List.cons_append, areWritable, areWritable, ih, Bool.and_assoc]

theorem isWritable_of_ofText {s : Text} {tree : Node} (h : ofText s = .ok tree) :
    tree.isWritable = true := by
  obtain ⟨-, rfl⟩ := ofText_eq_ok.mp h
  rfl

theorem isWritable_of_ofInteger {n : ℤ} {tree : Node} (h : ofInteger n = .ok tree) :
    tree.isWritable = true := by
  obtain ⟨-, -, rfl⟩ := ofInteger_eq_ok h
  rfl

theorem isWritable_of_ofMoment {m : Moment} {tree : Node} (h : ofMoment m = .ok tree) :
    tree.isWritable = true := by
  obtain ⟨t, rfl, -⟩ := ofMoment_eq_ok h
  rfl

theorem isWritable_of_ofScalar {v : Value} {tree : Node} (h : ofScalar v = .ok tree) :
    tree.isWritable = true := by
  cases v with
  | integer n => exact isWritable_of_ofInteger h
  | string s => exact isWritable_of_ofText h
  | moment m => exact isWritable_of_ofMoment h
  | day d => exact isWritable_of_ofMoment h
  | boolean _ | real _ | bytes _ | byteArray _ =>
    cases h
    rfl
  | _ => cases h

theorem areWritable_entry_iff {key : Leaf} {node : Node} {others : List Node} :
    areWritable (.leaf key :: node :: others) = true ↔
      node.isWritable = true ∧ areWritable others = true := by
  rw [areWritable, isWritable, Bool.true_and, areWritable, Bool.and_eq_true]

/-- An entry can be written if its value can. -/
theorem areWritable_entryOf {name : Text} {value : Except Failure Node} {entry : List Node}
    (h : entryOf name value = .ok entry) (hvalue : ∀ node, value = .ok node → node.isWritable = true) :
    areWritable entry = true := by
  obtain ⟨node, hnode, -, rfl⟩ := entryOf_eq_ok h
  rw [areWritable, areWritable, hvalue node hnode]
  rfl

theorem isWritable_of_spelled_leaf {l : Leaf} {tree : Node} (h : spelled (.leaf l) = .ok tree) :
    tree.isWritable = true := by
  cases l with
  | date t =>
    obtain ⟨kind, hkind, h⟩ := except_bind_eq_ok.mp h
    obtain ⟨seconds, microseconds, hseconds, hmicroseconds, rfl⟩ := except_both_eq_ok.mp h
    rw [isWritable, areWritable_append, areWritable_append,
      areWritable_entryOf hkind fun _ => isWritable_of_ofText,
      areWritable_entryOf hseconds fun _ => isWritable_of_ofInteger,
      areWritable_entryOf hmicroseconds fun _ => isWritable_of_ofInteger]
    rfl
  | _ =>
    obtain ⟨kind, value, hkind, hvalue, rfl⟩ := except_both_eq_ok.mp h
    rw [isWritable, areWritable_append, areWritable_entryOf hkind fun _ => isWritable_of_ofText,
      areWritable_entryOf hvalue fun _ => isWritable_of_ofScalar]
    rfl

mutual

/-- A node that is spelled out can be written, whatever it holds. -/
theorem isWritable_of_spelled : (node : Node) → (tree : Node) → node.spelled = .ok tree →
    tree.isWritable = true
  | .leaf _, _, h => isWritable_of_spelled_leaf h
  | .container kind nodes, tree, h => by
    obtain ⟨first, second, hfirst, hsecond, rfl⟩ := except_both_eq_ok.mp h
    have hkind := areWritable_entryOf hfirst fun _ => isWritable_of_ofText
    have hchildren := areWritable_entryOf hsecond fun array harray => by
      obtain ⟨children, hchildren, hok⟩ := except_bind_eq_ok.mp harray
      rw [arrayOf_eq_ok hok, isWritable]
      exact areWritable_of_spelledAll nodes children hchildren
    rw [isWritable, areWritable_append, hkind, hchildren]
    rfl
  | .bare, tree, h => by
    cases h
    rfl

theorem areWritable_of_spelledAll : (nodes : List Node) → (children : List Node) →
    spelledAll nodes = .ok children → areWritable children = true
  | [], children, h => by
    cases h
    rfl
  | node :: rest, children, h => by
    obtain ⟨first, others, hfirst, hothers, rfl⟩ := except_both_eq_ok.mp h
    rw [areWritable, isWritable_of_spelled node first hfirst,
      areWritable_of_spelledAll rest others hothers]
    rfl

end

end Node

namespace Value

mutual

/-- The nodes in a value that are taken as they are: those outside of records, and those in members
of enumerations. -/
def placed (inRecord : Bool) : Value → List Node
  | .node n => if inRecord then [] else [n]
  | .enumeration _ v => placed false v
  | .list items => placedItems inRecord items
  | .tuple items => placedItems inRecord items
  | .dict entries => placedEntries inRecord entries
  | .record _ fields => placedFields fields
  | _ => []

def placedItems (inRecord : Bool) : List Value → List Node
  | [] => []
  | item :: rest => item.placed inRecord ++ placedItems inRecord rest

def placedEntries (inRecord : Bool) : List (Value × Value) → List Node
  | [] => []
  | (_, value) :: rest => value.placed inRecord ++ placedEntries inRecord rest

def placedFields : List (Text × Value) → List Node
  | [] => []
  | (_, value) :: rest => value.placed true ++ placedFields rest

end

end Value

namespace Node

mutual

/-- The node of a value can be written just if all nodes can that are taken as they are. -/
theorem isWritable_ofValueIn (inRecord : Bool) : (v : Value) → (tree : Node) →
    ofValueIn inRecord v = .ok tree →
      (tree.isWritable = true ↔ ∀ n ∈ v.placed inRecord, n.isWritable = true)
  | .boolean _, tree, h => by
    cases h
    simp [Value.placed, isWritable]
  | .integer _, tree, h => by
    simp [Value.placed, isWritable_of_ofInteger h]
  | .real _, tree, h => by
    cases h
    simp [Value.placed, isWritable]
  | .string _, tree, h => by
    simp [Value.placed, isWritable_of_ofText h]
  | .bytes _, tree, h => by
    cases h
    simp [Value.placed, isWritable]
  | .byteArray _, tree, h => by
    cases h
    simp [Value.placed, isWritable]
  | .moment _, tree, h => by
    simp [Value.placed, isWritable_of_ofMoment h]
  | .day _, tree, h => by
    simp [Value.placed, isWritable_of_ofMoment h]
  | .enumeration _ v, tree, h => isWritable_ofValueIn false v tree h
  | .list items, tree, h => by
    obtain ⟨children, hchildren, hok⟩ := except_bind_eq_ok.mp h
    rw [arrayOf_eq_ok hok, isWritable, Value.placed]
    exact areWritable_itemNodes inRecord items children hchildren
  | .tuple items, tree, h => by
    obtain ⟨children, hchildren, hok⟩ := except_bind_eq_ok.mp h
    rw [arrayOf_eq_ok hok, isWritable, Value.placed]
    exact areWritable_itemNodes inRecord items children hchildren
  | .dict entries, tree, h => by
    obtain ⟨children, hchildren, rfl⟩ := except_map_eq_ok.mp h
    exact areWritable_entryNodes inRecord entries children hchildren
  | .record _ fields, tree, h => by
    obtain ⟨children, hchildren, rfl⟩ := except_map_eq_ok.mp h
    exact areWritable_fieldNodes fields children hchildren
  | .node n, tree, h => by
    cases inRecord with
    | true => simp [Value.placed, isWritable_of_spelled n tree h]
    | false =>
      cases h
      simp [Value.placed]
  | .null, _, h => by cases h
  | .foreign _, _, h => by cases h

theorem areWritable_itemNodes (inRecord : Bool) : (items : List Value) → (children : List Node) →
    itemNodes inRecord items = .ok children →
      (areWritable children = true ↔
        ∀ n ∈ Value.placedItems inRecord items, n.isWritable = true)
  | [], children, h => by
    cases h
    simp [Value.placedItems, areWritable]
  | item :: rest, children, h => by
    obtain ⟨first, others, hfirst, hothers, rfl⟩ := except_both_eq_ok.mp h
    rw [areWritable, Bool.and_eq_true, Value.placedItems, List.forall_mem_append,
      isWritable_ofValueIn inRecord item first hfirst,
      areWritable_itemNodes inRecord rest others hothers]

theorem areWritable_entryNodes (inRecord : Bool) : (entries : List (Value × Value)) →
    (children : List Node) → entryNodes inRecord entries = .ok children →
      (areWritable children = true ↔
        ∀ n ∈ Value.placedEntries inRecord entries, n.isWritable = true)
  | [], children, h => by
    cases h
    simp [Value.placedEntries, areWritable]
  | (key, value) :: rest, children, h => by
    cases key with
    | string name =>
      rw [entryNodes] at h
      obtain ⟨node, others, hnode, hothers, -, rfl⟩ := entryOf_append_eq_ok h
      rw [areWritable_entry_iff, Value.placedEntries, List.forall_mem_append,
        isWritable_ofValueIn inRecord value node hnode,
        areWritable_entryNodes inRecord rest others hothers]
    | _ => cases h

theorem areWritable_fieldNodes : (fields : List (Text × Value)) → (children : List Node) →
    fieldNodes fields = .ok children →
      (areWritable children = true ↔ ∀ n ∈ Value.placedFields fields, n.isWritable = true)
  | [], children, h => by
    cases h
    simp [Value.placedFields, areWritable]
  | (name, value) :: rest, children, h => by
    rw [Value.placedFields, List.forall_mem_append]
    by_cases hvalue : value = .null
    · rw [hvalue, fieldNodes_null] at h
      rw [hvalue, areWritable_fieldNodes rest children h]
      simp [Value.placed]
    · rw [fieldNodes_of_ne_null hvalue] at h
      obtain ⟨node, others, hnode, hothers, -, rfl⟩ := entryOf_append_eq_ok h
      rw [areWritable_entry_iff, isWritable_ofValueIn true value node hnode,
        areWritable_fieldNodes rest others hothers]

end

end Node

/-! However records are dumped, the nodes that are taken as they are decide. -/

namespace Value

/-- Whether a node is taken as it is where it stands in a value: in a member of an enumeration, in a
list, a tuple or a dictionary, or in what a record is dumped as. -/
inductive Places (host : Host) : Value → Node → Prop
  | node (n : Node) : Places host (.node n) n
  | enumeration {type : ClassName} {v : Value} {n : Node} (h : Places host v n) :
      Places host (.enumeration type v) n
  | item {items : List Value} {v : Value} {n : Node} (hv : v ∈ items) (h : Places host v n) :
      Places host (.list items) n
  | component {items : List Value} {v : Value} {n : Node} (hv : v ∈ items) (h : Places host v n) :
      Places host (.tuple items) n
  | entry {entries : List (Value × Value)} {entry : Value × Value} {n : Node}
      (hentry : entry ∈ entries) (h : Places host entry.2 n) : Places host (.dict entries) n
  | field {type : ClassName} {fields : List (Text × Value)} {entries : List (Value × Value)}
      {entry : Value × Value} {n : Node} (hdump : host.dump type fields = .ok entries)
      (hentry : entry ∈ entries) (h : Places host entry.2 n) : Places host (.record type fields) n

/-- Whether all nodes can be written that are taken as they are. -/
def PlacesWritable (host : Host) (v : Value) : Prop :=
  ∀ n, v.Places host n → n.isWritable = true

section Places

variable {host : Host} {type : ClassName} {items : List Value} {entries : List (Value × Value)}

theorem placesWritable_node {n : Node} :
    (node n).PlacesWritable host ↔ n.isWritable = true := by
  constructor
  · exact fun h => h n (.node n)
  · rintro h _ ⟨⟩
    exact h

theorem placesWritable_enumeration {v : Value} :
    (enumeration type v).PlacesWritable host ↔ v.PlacesWritable host := by
  constructor
  · exact fun h n hn => h n (.enumeration hn)
  · rintro h n (_ | hn)
    exact h n hn

theorem placesWritable_list :
    (list items).PlacesWritable host ↔ ∀ v ∈ items, v.PlacesWritable host := by
  constructor
  · exact fun h v hv n hn => h n (.item hv hn)
  · rintro h n (_ | _ | ⟨hv, hn⟩)
    exact h _ hv n hn

theorem placesWritable_tuple :
    (tuple items).PlacesWritable host ↔ ∀ v ∈ items, v.PlacesWritable host := by
  constructor
  · exact fun h v hv n hn => h n (.component hv hn)
  · rintro h n (_ | _ | _ | ⟨hv, hn⟩)
    exact h _ hv n hn

theorem placesWritable_dict :
    (dict entries).PlacesWritable host ↔ ∀ entry ∈ entries, entry.2.PlacesWritable host := by
  constructor
  · exact fun h entry hentry n hn => h n (.entry hentry hn)
  · rintro h n (_ | _ | _ | _ | ⟨hentry, hn⟩)
    exact h _ hentry n hn

theorem placesWritable_record {fields : List (Text × Value)}
    (hdump : host.dump type fields = .ok entries) :
    (record type fields).PlacesWritable host ↔ ∀ entry ∈ entries, entry.2.PlacesWritable host := by
  constructor
  · exact fun h entry hentry n hn => h n (.field hdump hentry hn)
  · rintro h n (_ | _ | _ | _ | _ | ⟨hother, hentry, hn⟩)
    rw [hdump] at hother
    cases hother
    exact h _ hentry n hn

end Places

end Value

namespace Node

section Writable

variable {host : Host} {room : ℕ} {tree : Node}

theorem areWritable_mapM {convert : Value → Except Failure Node} {items : List Value}
    {nodes : List Node}
    (h : ∀ v ∈ items, ∀ tree, convert v = .ok tree →
      (tree.isWritable = true ↔ v.PlacesWritable host))
    (hok : items.mapM convert = .ok nodes) :
    areWritable nodes = true ↔ ∀ v ∈ items, v.PlacesWritable host := by
  induction items generalizing nodes with
  | nil =>
    cases hok
    simp [areWritable]
  | cons v rest ih =>
    rw [List.forall_mem_cons] at h
    rw [List.mapM_cons] at hok
    obtain ⟨node, others, hnode, hothers, rfl⟩ := except_both_eq_ok.mp hok
    rw [areWritable, Bool.and_eq_true, h.1 node hnode, ih h.2 hothers, List.forall_mem_cons]

theorem areWritable_ofEntries {convert : Value → Except Failure Node}
    {entries : List (Value × Value)} {children : List Node}
    (h : ∀ entry ∈ entries, ∀ tree, convert entry.2 = .ok tree →
      (tree.isWritable = true ↔ entry.2.PlacesWritable host))
    (hok : ofEntries convert entries = .ok children) :
    areWritable children = true ↔ ∀ entry ∈ entries, entry.2.PlacesWritable host := by
  induction entries generalizing children with
  | nil =>
    cases hok
    simp [areWritable]
  | cons entry rest ih =>
    obtain ⟨key, v⟩ := entry
    rw [List.forall_mem_cons] at h
    cases key with
    | string name =>
      rw [ofEntries] at hok
      obtain ⟨node, others, hnode, hothers, -, rfl⟩ := entryOf_append_eq_ok hok
      rw [areWritable_entry_iff, h.1 node hnode, ih h.2 hothers, List.forall_mem_cons]
    | _ => cases hok

theorem isWritable_ofItems {items : List Value}
    (h : ∀ room' v tree, room = room' + 1 → ofValue host room' v = .ok tree →
      (tree.isWritable = true ↔ v.PlacesWritable host))
    (hok : ofItems host room items >>= arrayOf = .ok tree) :
    tree.isWritable = true ↔ ∀ v ∈ items, v.PlacesWritable host := by
  obtain ⟨nodes, hnodes, harray⟩ := except_bind_eq_ok.mp hok
  rw [arrayOf_eq_ok harray, isWritable]
  cases room with
  | zero => cases hnodes
  | succ room => exact areWritable_mapM (fun v _ tree => h room v tree rfl) hnodes

theorem isWritable_ofMapping {entries : List (Value × Value)}
    (h : ∀ room' v tree, room = room' + 1 → ofValue host room' v = .ok tree →
      (tree.isWritable = true ↔ v.PlacesWritable host))
    (hok : ofMapping host room entries = .ok tree) :
    tree.isWritable = true ↔ ∀ entry ∈ entries, entry.2.PlacesWritable host := by
  cases room with
  | zero => cases hok
  | succ room =>
    obtain ⟨children, hchildren, rfl⟩ := except_map_eq_ok.mp hok
    exact areWritable_ofEntries (fun entry _ tree => h room entry.2 tree rfl) hchildren

end Writable

/-- The node of a value can be written just if all nodes can that are taken as they are, whatever
records are dumped as. The induction is on the room. -/
theorem isWritable_ofValue {host : Host} (room : ℕ) (v : Value) (tree : Node)
    (hok : ofValue host room v = .ok tree) :
    tree.isWritable = true ↔ v.PlacesWritable host := by
  induction room using Nat.strongRecOn generalizing v tree with
  | ind _ ih =>
  obtain ⟨room, rfl, hcalls⟩ := exists_room_of_ofValue hok
  have hparts (room' : ℕ) (v : Value) (tree : Node) (hroom : room = room' + 1) :=
    ih room' (by omega) v tree
  cases v with
  | node n =>
    rw [ofValue, if_neg hcalls] at hok
    cases hok
    exact Value.placesWritable_node.symm
  | enumeration type v =>
    rw [ofValue_enumeration hcalls] at hok
    rw [ih room (by omega) v tree hok, Value.placesWritable_enumeration]
  | list items =>
    rw [ofValue_list hcalls] at hok
    rw [isWritable_ofItems hparts hok, Value.placesWritable_list]
  | tuple items =>
    rw [ofValue_tuple hcalls] at hok
    rw [isWritable_ofItems hparts hok, Value.placesWritable_tuple]
  | dict entries =>
    rw [ofValue_dict hcalls] at hok
    rw [isWritable_ofMapping hparts hok, Value.placesWritable_dict]
  | record type fields =>
    rw [ofValue_record hcalls] at hok
    obtain ⟨entries, hdump, hmapping⟩ := except_bind_eq_ok.mp hok
    rw [isWritable_ofMapping hparts hmapping, Value.placesWritable_record hdump]
  | _ =>
    simp only [ofValue, if_neg hcalls] at hok
    refine iff_of_true (isWritable_of_ofScalar hok) ?_
    rintro n ⟨⟩

end Node

end PropertyList
