import PropertyList.Proofs.Leaf.Date
import PropertyList.Value.OfNode

/-! Regular values, which programs can hold: their days and moments exist, and no dictionary has two
entries for a key. The value of a valid node is one of them. -/
namespace PropertyList.Value

mutual

/-- Whether the days and moments in a value exist, and no dictionary or record has a key twice.
Valid nodes may stand in it if they are admitted, but never inside a record. -/
def Regular (nodes : Bool) : Value → Prop
  | .moment m => m.day.exists? = true ∧ m.clock.exists? = true
  | .day d => d.exists? = true
  | .list items => AllRegular nodes items
  | .tuple items => AllRegular nodes items
  | .dict entries =>
    (entries.map Prod.fst).Pairwise (fun a b => a.sameKey b = false) ∧
      EntriesRegular nodes entries
  | .enumeration _ v => Regular nodes v
  | .record _ fields => (fields.map Prod.fst).Nodup ∧ FieldsRegular fields
  | .node n => nodes = true ∧ n.Valid
  | _ => True

def AllRegular (nodes : Bool) : List Value → Prop
  | [] => True
  | v :: rest => v.Regular nodes ∧ AllRegular nodes rest

def EntriesRegular (nodes : Bool) : List (Value × Value) → Prop
  | [] => True
  | (_, v) :: rest => v.Regular nodes ∧ EntriesRegular nodes rest

def FieldsRegular : List (Text × Value) → Prop
  | [] => True
  | (_, v) :: rest => v.Regular false ∧ FieldsRegular rest

end

theorem allRegular_iff {nodes : Bool} {items : List Value} :
    AllRegular nodes items ↔ ∀ v ∈ items, v.Regular nodes := by
  induction items with
  | nil => simp [AllRegular]
  | cons v rest ih => rw [AllRegular, ih, List.forall_mem_cons]

theorem entriesRegular_iff {nodes : Bool} {entries : List (Value × Value)} :
    EntriesRegular nodes entries ↔ ∀ entry ∈ entries, entry.2.Regular nodes := by
  induction entries with
  | nil => simp [EntriesRegular]
  | cons entry entries ih => rw [EntriesRegular, ih, List.forall_mem_cons]

theorem mem_setEntry {key value : Value} {entries : List (Value × Value)}
    {entry : Value × Value} (h : entry ∈ setEntry key value entries) :
    entry.2 = value ∨ entry ∈ entries := by
  induction entries with
  | nil => exact .inl (congrArg Prod.snd (List.mem_singleton.mp h))
  | cons first entries ih =>
    rw [setEntry] at h
    split_ifs at h
    · rcases List.mem_cons.mp h with rfl | hmem
      · exact .inl rfl
      · exact .inr (List.mem_cons_of_mem _ hmem)
    · rcases List.mem_cons.mp h with rfl | hmem
      · exact .inr (List.mem_cons_self ..)
      · exact (ih hmem).imp_right (List.mem_cons_of_mem _)

/-- A key keeps its place, or becomes the last one. -/
theorem map_fst_setEntry (key value : Value) (entries : List (Value × Value)) :
    (setEntry key value entries).map Prod.fst = entries.map Prod.fst ∨
      (∀ k ∈ entries.map Prod.fst, k.sameKey key = false) ∧
        (setEntry key value entries).map Prod.fst = entries.map Prod.fst ++ [key] := by
  induction entries with
  | nil => exact .inr ⟨by simp, rfl⟩
  | cons first entries ih =>
    rw [setEntry]
    split_ifs with hsame
    · exact .inl rfl
    · rcases ih with heq | ⟨hother, heq⟩
      · left
        rw [List.map_cons, heq, List.map_cons]
      · right
        rw [List.map_cons, List.map_cons, heq, List.forall_mem_cons]
        exact ⟨⟨Bool.eq_false_iff.mpr hsame, hother⟩, rfl⟩

theorem pairwise_setEntry (key value : Value) {entries : List (Value × Value)}
    (h : (entries.map Prod.fst).Pairwise fun a b => a.sameKey b = false) :
    ((setEntry key value entries).map Prod.fst).Pairwise fun a b => a.sameKey b = false := by
  rcases map_fst_setEntry key value entries with heq | ⟨hother, heq⟩
  · rw [heq]
    exact h
  · rw [heq, List.pairwise_append]
    refine ⟨h, List.pairwise_singleton _ _, ?_⟩
    intro k hk other hkey
    rw [List.mem_singleton.mp hkey]
    exact hother k hk

theorem pairwise_foldl_setEntry {entries set : List (Value × Value)}
    (hset : (set.map Prod.fst).Pairwise fun a b => a.sameKey b = false) :
    ((entries.foldl (fun set entry => setEntry entry.1 entry.2 set) set).map Prod.fst).Pairwise
      fun a b => a.sameKey b = false := by
  induction entries generalizing set with
  | nil => exact hset
  | cons entry entries ih => exact ih (pairwise_setEntry entry.1 entry.2 hset)

/-- The values in a dictionary are some of those that are set. -/
theorem forall_mem_foldl_setEntry {P : Value → Prop} {entries set : List (Value × Value)}
    (hset : ∀ entry ∈ set, P entry.2) (h : ∀ entry ∈ entries, P entry.2) :
    ∀ entry ∈ entries.foldl (fun set entry => setEntry entry.1 entry.2 set) set, P entry.2 := by
  induction entries generalizing set with
  | nil => exact hset
  | cons entry entries ih =>
    rw [List.forall_mem_cons] at h
    refine ih (fun other hother => ?_) h.2
    rcases mem_setEntry hother with hvalue | hmem
    · rw [hvalue]
      exact h.1
    · exact hset other hmem

/-- Entries set one after another make up a regular dictionary. -/
theorem regular_ofEntries {nodes : Bool} {entries : List (Value × Value)}
    (h : EntriesRegular nodes entries) : (ofEntries entries).Regular nodes :=
  ⟨pairwise_foldl_setEntry List.Pairwise.nil,
    entriesRegular_iff.mpr (forall_mem_foldl_setEntry (by simp) (entriesRegular_iff.mp h))⟩

end Value

theorem Leaf.regular_value {leaf : Leaf} (h : leaf.Valid) : leaf.value.Regular false := by
  cases leaf with
  | date t => exact Timestamp.exists?_toMoment h
  | _ => trivial

namespace Node

theorem allValid_append {a b : List Node} (ha : AllValid a) (hb : AllValid b) :
    AllValid (a ++ b) := by
  induction a with
  | nil => exact hb
  | cons node a ih => exact ⟨ha.1, ih ha.2⟩

mutual

/-- The value of a valid node is regular, and holds no nodes. -/
theorem regular_value : (node : Node) → node.Valid → node.value.Regular false
  | .leaf _, h => Leaf.regular_value h
  | .container .array children, h => allRegular_values children h
  | .container .dict children, h => Value.regular_ofEntries (entriesRegular_entries children h)
  | .bare, h => h.elim

theorem allRegular_values : (nodes : List Node) → AllValid nodes →
    Value.AllRegular false (values nodes)
  | [], _ => trivial
  | node :: rest, h => ⟨regular_value node h.1, allRegular_values rest h.2⟩

theorem entriesRegular_entries : (nodes : List Node) → AllValid nodes →
    Value.EntriesRegular false (entries nodes)
  | [], _ => trivial
  | [key], _ => by
    cases hkey : key.keyText? <;> simp [entries, hkey, Value.EntriesRegular, Value.Regular]
  | key :: node :: rest, h => by
    have hnode := regular_value node h.2.1
    have hrest := entriesRegular_entries rest h.2.2
    cases hkey : key.keyText? <;> simp [entries, hkey, Value.EntriesRegular, hnode, hrest]

end

end PropertyList.Node
