import PropertyList.Proofs.Value.Room
import PropertyList.Proofs.Value.Typing

/-! Values that have nodes. Whether a value has one can be told from the value alone, part by part,
and a value that has a node comes back from it in its normal form. -/
namespace PropertyList

namespace Value

mutual

/-- Whether a property list can stand for a value. A field of a record may have no value. -/
def isRepresentable : Value → Bool
  | .boolean _ => true
  | .integer n => 0 ≤ n && n ≤ maxInteger
  | .real _ => true
  | .string s => s.isXml
  | .bytes _ => true
  | .byteArray _ => true
  | .moment m => m.inCalendar
  | .day _ => true
  | .enumeration _ v => v.isRepresentable
  | .list items => areRepresentable items
  | .tuple items => areRepresentable items
  | .dict entries => entriesRepresentable entries
  | .record _ fields => fieldsRepresentable fields
  | .node _ => true
  | .null => false
  | .foreign _ => false

def areRepresentable : List Value → Bool
  | [] => true
  | v :: rest => v.isRepresentable && areRepresentable rest

def entriesRepresentable : List (Value × Value) → Bool
  | [] => true
  | (.string name, v) :: rest => name.isXml && v.isRepresentable && entriesRepresentable rest
  | _ :: _ => false

def fieldsRepresentable : List (Text × Value) → Bool
  | [] => true
  | (name, v) :: rest =>
    (v matches .null || name.isXml && v.isRepresentable) && fieldsRepresentable rest

end

theorem fieldsRepresentable_null (name : Text) (fields : List (Text × Value)) :
    fieldsRepresentable ((name, .null) :: fields) = fieldsRepresentable fields := by
  rw [fieldsRepresentable, Bool.true_or, Bool.true_and]

theorem fieldsRepresentable_of_ne_null {v : Value} (h : v ≠ .null) (name : Text)
    (fields : List (Text × Value)) :
    fieldsRepresentable ((name, v) :: fields) =
      (name.isXml && v.isRepresentable && fieldsRepresentable fields) := by
  rw [fieldsRepresentable, Bool.false_or]
  exact h

end Value

namespace Node

theorem exists_ofInteger_iff {n : ℤ} :
    (∃ tree, ofInteger n = .ok tree) ↔ (decide (0 ≤ n) && decide (n ≤ maxInteger)) = true := by
  rw [Bool.and_eq_true, decide_eq_true_eq, decide_eq_true_eq]
  constructor
  · rintro ⟨tree, htree⟩
    obtain ⟨hzero, hmax, -⟩ := ofInteger_eq_ok htree
    exact ⟨hzero, hmax⟩
  · rintro ⟨hzero, hmax⟩
    exact ⟨_, ofInteger_of_le hzero hmax⟩

theorem exists_ofText_iff {s : Text} : (∃ tree, ofText s = .ok tree) ↔ s.isXml = true := by
  simp only [ofText_eq_ok, exists_and_left, exists_eq', and_true]

theorem exists_entryOf_iff {name : Text} {value : Except Failure Node} :
    (∃ entry, entryOf name value = .ok entry) ↔ name.isXml = true ∧ ∃ node, value = .ok node := by
  constructor
  · rintro ⟨entry, hentry⟩
    obtain ⟨node, hnode, hname, -⟩ := entryOf_eq_ok hentry
    exact ⟨hname, node, hnode⟩
  · rintro ⟨hname, node, rfl⟩
    exact ⟨_, entryOf_of_isXml hname node⟩

/-- Nodes make up an array where all of them are valid. -/
theorem exists_arrayOf_iff {nodes : Except Failure (List Node)}
    (h : ∀ children, nodes = .ok children → AllValid children) :
    (∃ tree, nodes >>= arrayOf = .ok tree) ↔ ∃ children, nodes = .ok children := by
  rw [exists_except_bind_iff]
  refine exists_congr fun children => and_iff_left_of_imp fun hchildren => ?_
  exact ⟨_, arrayOf_of_allValid (h children hchildren)⟩

mutual

/-- The regular values that have nodes are the representable ones. -/
theorem exists_ofValueIn_iff (nodes inRecord : Bool) : (v : Value) → v.Regular nodes →
    (inRecord = true → nodes = false) →
      ((∃ tree, ofValueIn inRecord v = .ok tree) ↔ v.isRepresentable = true)
  | .boolean _, _, _ => by simp [ofValueIn, Value.isRepresentable]
  | .integer n, _, _ => by rw [ofValueIn, Value.isRepresentable, exists_ofInteger_iff]
  | .real _, _, _ => by simp [ofValueIn, Value.isRepresentable]
  | .string s, _, _ => by rw [ofValueIn, Value.isRepresentable, exists_ofText_iff]
  | .bytes _, _, _ => by simp [ofValueIn, Value.isRepresentable]
  | .byteArray _, _, _ => by simp [ofValueIn, Value.isRepresentable]
  | .moment m, _, _ => by rw [ofValueIn, Value.isRepresentable, exists_ofMoment_iff]
  | .day d, h, _ => by
    rw [Value.Regular] at h
    rw [ofValueIn, Value.isRepresentable, exists_ofMoment_iff, Moment.inCalendar_midnight h]
  | .enumeration _ v, h, _ => by
    rw [Value.Regular] at h
    rw [ofValueIn, Value.isRepresentable]
    exact exists_ofValueIn_iff nodes false v h (by simp)
  | .list items, h, hrecord => by
    rw [Value.Regular] at h
    have hvalid children := areItemsOf_itemNodes nodes inRecord items h hrecord children
    rw [ofValueIn, Value.isRepresentable, ← exists_itemNodes_iff nodes inRecord items h hrecord]
    exact exists_arrayOf_iff fun children hchildren => (hvalid children hchildren).valid
  | .tuple items, h, hrecord => by
    rw [Value.Regular] at h
    have hvalid children := areItemsOf_itemNodes nodes inRecord items h hrecord children
    rw [ofValueIn, Value.isRepresentable, ← exists_itemNodes_iff nodes inRecord items h hrecord]
    exact exists_arrayOf_iff fun children hchildren => (hvalid children hchildren).valid
  | .dict entries, h, hrecord => by
    rw [Value.Regular] at h
    rw [ofValueIn, Value.isRepresentable, exists_except_map_iff]
    exact exists_entryNodes_iff nodes inRecord entries h.2 hrecord
  | .record _ fields, h, _ => by
    rw [Value.Regular] at h
    rw [ofValueIn, Value.isRepresentable, exists_except_map_iff]
    exact exists_fieldNodes_iff fields h.2
  | .node n, h, hrecord => by
    rw [Value.Regular] at h
    obtain ⟨rfl, -⟩ := h
    have hout : inRecord = false := by simpa using hrecord
    simp [ofValueIn, Value.isRepresentable, hout]
  | .null, _, _ => by simp [ofValueIn, Value.isRepresentable]
  | .foreign _, _, _ => by simp [ofValueIn, Value.isRepresentable]

theorem exists_itemNodes_iff (nodes inRecord : Bool) : (items : List Value) →
    Value.AllRegular nodes items → (inRecord = true → nodes = false) →
      ((∃ children, itemNodes inRecord items = .ok children) ↔
        Value.areRepresentable items = true)
  | [], _, _ => by simp [itemNodes, Value.areRepresentable]
  | v :: rest, h, hrecord => by
    rw [Value.AllRegular] at h
    rw [itemNodes, exists_except_both_iff, Value.areRepresentable, Bool.and_eq_true,
      exists_ofValueIn_iff nodes inRecord v h.1 hrecord,
      exists_itemNodes_iff nodes inRecord rest h.2 hrecord]

theorem exists_entryNodes_iff (nodes inRecord : Bool) : (entries : List (Value × Value)) →
    Value.EntriesRegular nodes entries → (inRecord = true → nodes = false) →
      ((∃ children, entryNodes inRecord entries = .ok children) ↔
        Value.entriesRepresentable entries = true)
  | [], _, _ => by simp [entryNodes, Value.entriesRepresentable]
  | (key, v) :: rest, h, hrecord => by
    rw [Value.EntriesRegular] at h
    cases key with
    | string name =>
      rw [entryNodes, exists_except_both_iff, exists_entryOf_iff, Value.entriesRepresentable,
        Bool.and_eq_true, Bool.and_eq_true, exists_ofValueIn_iff nodes inRecord v h.1 hrecord,
        exists_entryNodes_iff nodes inRecord rest h.2 hrecord]
    | _ => simp [entryNodes, Value.entriesRepresentable]

theorem exists_fieldNodes_iff : (fields : List (Text × Value)) → Value.FieldsRegular fields →
    ((∃ children, fieldNodes fields = .ok children) ↔ Value.fieldsRepresentable fields = true)
  | [], _ => by simp [fieldNodes, Value.fieldsRepresentable]
  | (name, v) :: rest, h => by
    rw [Value.FieldsRegular] at h
    by_cases hv : v = .null
    · rw [hv, fieldNodes_null, Value.fieldsRepresentable_null]
      exact exists_fieldNodes_iff rest h.2
    · rw [fieldNodes_of_ne_null hv, exists_except_both_iff, exists_entryOf_iff,
        Value.fieldsRepresentable_of_ne_null hv, Bool.and_eq_true, Bool.and_eq_true,
        exists_ofValueIn_iff false true v h.1 (fun _ => rfl), exists_fieldNodes_iff rest h.2]

end

end Node

namespace Value

/-- Of the regular values whose records are dumped as their fields, just the representable ones have
nodes, if there is room for the calls that this takes. Each value that has a node comes back from it in
its normal form, and had room for its height; a representable one has no node for too little room
alone. The moment in universal time that a moment comes back as is the same instant. -/
theorem exists_ofValue_iff {host : Host} {room : ℕ} {v : Value} (h : v.Regular true)
    (hdump : v.DumpedBy host) :
    (∀ most, (∀ w, host.calls w ≤ most) → v.height false + most ≤ room →
      ((∃ tree, Node.ofValue host room v = .ok tree) ↔ v.isRepresentable = true)) ∧
    (∀ tree, Node.ofValue host room v = .ok tree →
      v.isRepresentable = true ∧ v.height false ≤ room ∧
        (Value.ofNode tree).outcome = .ok v.normal) ∧
    (∀ failure, v.isRepresentable = true → Node.ofValue host room v = .error failure →
      failure = .callLimit host.excess) ∧
    ∀ m : Moment, m.inCalendar = true →
      m.universal.instant = m.instant ∧ m.universal.offset = some 0 ∧
        m.universal.day.exists? = true ∧ m.universal.clock.exists? = true := by
  have hdirect := Node.exists_ofValueIn_iff true false v h (by simp)
  refine ⟨?_, ?_, ?_, ?_⟩
  · intro most hcalls hroom
    rw [Node.ofValue_eq hdump hcalls hroom, hdirect]
  · intro tree hok
    have hnode := Node.ofValueIn_of_ofValue hdump hok
    have htree := Node.isNodeOf_ofValueIn true false v h (by simp) tree hnode
    refine ⟨hdirect.mp ⟨tree, hnode⟩, Node.height_le_of_ofValue room v tree hdump hok, ?_⟩
    rw [Value.ofNode_eq (Node.isWritable_of_valid tree htree.valid), htree.value_eq]
  · intro failure hv herror
    obtain ⟨tree, htree⟩ := hdirect.mpr hv
    exact Node.ofValue_eq_error hdump htree herror
  · intro m hm
    obtain ⟨leaf, hleaf⟩ := Timestamp.exists_ofMoment_iff.mpr hm
    obtain ⟨hinstant, hexists⟩ := Timestamp.instant_universal hleaf
    exact ⟨hinstant, Moment.offset_universal m, hexists⟩

/-- A dictionary with a node, a record, a day and a moment before year 1 where it is made, and a
moment before year 1 in universal time. -/
theorem exists_ofValue_iff_trip :
    (∃ tree, Node.ofValue .plain 20 (.dict [(.string (text "stops"), .tuple [
        .enumeration ⟨[], text "Stop"⟩ (.boolean true),
        .node (.dict [.leaf (.string (text "a")), .leaf (.data [7])])]),
        (.string (text "trip"), .record ⟨[], text "Trip"⟩ [(text "note", .null),
          (text "start", .day ⟨2024, 2, 29⟩)]),
        (.string (text "end"), .moment ⟨⟨9999, 12, 31⟩, ⟨22, 0, 0, 1⟩, some (-3600000000)⟩)]) =
          .ok tree ∧
      (Value.ofNode tree).outcome = .ok (.dict [
        (.string (text "stops"), .list [.boolean true, .dict [(.string (text "a"), .bytes [7])]]),
        (.string (text "trip"), .dict [
          (.string (text "start"), .moment ⟨⟨2024, 2, 29⟩, .midnight, some 0⟩)]),
        (.string (text "end"), .moment ⟨⟨9999, 12, 31⟩, ⟨23, 0, 0, 1⟩, some 0⟩)])) ∧
    ¬∃ tree, Node.ofValue .plain 20 (.list [.moment ⟨⟨1, 1, 1⟩, .midnight, some 1⟩]) =
      .ok tree := by
  have hback {v w : Value} (h : v.Regular true) (hroom : v.height false + 7 ≤ 20)
      (hv : v.isRepresentable = true) (hnormal : v.normal = w) :
      ∃ tree, Node.ofValue .plain 20 v = .ok tree ∧ (Value.ofNode tree).outcome = .ok w := by
    obtain ⟨hiff, hnode, -⟩ := exists_ofValue_iff h (dumpedBy_plain v)
    obtain ⟨tree, htree⟩ := (hiff 7 (fun _ => Nat.le_refl 7) hroom).mpr hv
    exact ⟨tree, htree, hnormal ▸ (hnode tree htree).2.2⟩
  refine ⟨hback ?_ (by decide) (by decide) rfl, ?_⟩
  · refine ⟨by decide, ⟨trivial, ⟨rfl, ?_⟩, trivial⟩, ?_, ⟨by decide, by decide⟩, trivial⟩
    · exact ⟨rfl, trivial, trivial⟩
    · exact ⟨by decide, trivial, rfl, trivial⟩
  · have hregular : Value.Regular true (.list [.moment ⟨⟨1, 1, 1⟩, .midnight, some 1⟩]) :=
      ⟨⟨by decide, by decide⟩, trivial⟩
    rintro ⟨tree, htree⟩
    have hv := ((exists_ofValue_iff hregular (dumpedBy_plain _)).2.1 tree htree).1
    revert hv
    decide

theorem areRepresentable_iff {items : List Value} :
    areRepresentable items = true ↔ ∀ v ∈ items, v.isRepresentable = true := by
  induction items with
  | nil => simp [areRepresentable]
  | cons v rest ih => rw [areRepresentable, Bool.and_eq_true, ih, List.forall_mem_cons]

theorem isRepresentable_nested {front : List Value} (h : areRepresentable front = true)
    (depth : ℕ) : (nested front depth).isRepresentable = true := by
  induction depth with
  | zero => rfl
  | succ depth ih =>
    rw [nested, isRepresentable, areRepresentable_iff, List.forall_mem_append,
      List.forall_mem_singleton]
    exact ⟨areRepresentable_iff.mp h, ih⟩

theorem regular_nested {nodes : Bool} {front : List Value} (h : AllRegular nodes front)
    (depth : ℕ) : (nested front depth).Regular nodes := by
  induction depth with
  | zero => trivial
  | succ depth ih =>
    rw [nested, Regular, allRegular_iff, List.forall_mem_append, List.forall_mem_singleton]
    exact ⟨allRegular_iff.mp h, ih⟩

/-- Lists inside each other for which there is too little room, though a property list can stand for
them. -/
theorem nested_lists_lack_room :
    (nested [.string (text "x"), .dict [(.string (text "x"), .boolean true)]]
        495).Regular false ∧
      (nested [.string (text "x"), .dict [(.string (text "x"), .boolean true)]]
        495).isRepresentable = true ∧
      ∀ tree, Node.ofValue .plain 996
        (nested [.string (text "x"), .dict [(.string (text "x"), .boolean true)]] 495) ≠
          .ok tree := by
  have hfront : AllRegular false [.string (text "x"),
      .dict [(.string (text "x"), .boolean true)]] :=
    ⟨trivial, ⟨List.pairwise_singleton _ _, trivial, trivial⟩, trivial⟩
  exact ⟨regular_nested hfront 495, isRepresentable_nested (by decide) 495,
    Node.ofValue_nested_ne_ok (fun _ => Nat.le_refl 7) _ 495 996 (by decide)⟩

end Value

end PropertyList
