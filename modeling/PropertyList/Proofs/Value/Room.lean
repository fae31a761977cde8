import Mathlib.Data.Nat.Notation
import Mathlib.Tactic.SplitIfs
import PropertyList.Proofs.Run
import PropertyList.Proofs.Value.Fold

/-! Room for the calls of a conversion. Two calls inside each other are for a container, one for it
and one that goes through its parts, and one is for any other value. If there is room for them, and
for the calls that a single value takes at most, the node of a value is the one that recursion on the
value alone gives; if not, the only other outcome is that the room did not suffice. -/
namespace PropertyList

namespace Node

mutual

/-- The height of the dictionary of the fields of a node. -/
def spelledHeight : Node → ℕ
  | .leaf _ => 3
  | .container _ children => 4 + spelledHeights children
  | .bare => 2

def spelledHeights : List Node → ℕ
  | [] => 0
  | node :: rest => max node.spelledHeight (spelledHeights rest)

end

end Node

namespace Value

mutual

/-- The calls inside each other that the conversion of a value takes, inside a record or outside,
beside those that return before a part is looked at. -/
def height (inRecord : Bool) : Value → ℕ
  | .list items => 2 + heights inRecord items
  | .tuple items => 2 + heights inRecord items
  | .dict entries => 2 + entryHeights inRecord entries
  | .record _ fields => 2 + fieldHeights fields
  | .enumeration _ v => 1 + v.height false
  | .node n => if inRecord then n.spelledHeight else 1
  | _ => 1

def heights (inRecord : Bool) : List Value → ℕ
  | [] => 0
  | v :: rest => max (v.height inRecord) (heights inRecord rest)

def entryHeights (inRecord : Bool) : List (Value × Value) → ℕ
  | [] => 0
  | (_, v) :: rest => max (v.height inRecord) (entryHeights inRecord rest)

def fieldHeights : List (Text × Value) → ℕ
  | [] => 0
  | (_, v) :: rest =>
    match v with
    | .null => fieldHeights rest
    | v => max (v.height true) (fieldHeights rest)

end

mutual

/-- Whether all records in a value are dumped as the dictionaries of their fields, since these are
declared as what they hold. -/
def DumpedBy (host : Host) : Value → Prop
  | .list items => AllDumpedBy host items
  | .tuple items => AllDumpedBy host items
  | .dict entries => EntriesDumpedBy host entries
  | .record type fields =>
    host.dump type fields = .ok (dumpedFields fields) ∧ FieldsDumpedBy host fields
  | .enumeration _ v => v.DumpedBy host
  | _ => True

def AllDumpedBy (host : Host) : List Value → Prop
  | [] => True
  | v :: rest => v.DumpedBy host ∧ AllDumpedBy host rest

def EntriesDumpedBy (host : Host) : List (Value × Value) → Prop
  | [] => True
  | (_, v) :: rest => v.DumpedBy host ∧ EntriesDumpedBy host rest

def FieldsDumpedBy (host : Host) : List (Text × Value) → Prop
  | [] => True
  | (_, v) :: rest => v.DumpedBy host ∧ FieldsDumpedBy host rest

end

end Value

/-- A host that dumps all records as the dictionaries of their fields. -/
def Host.plain : Host where
  dump _ fields := .ok (Value.dumpedFields fields)
  calls _ := 7
  excess := []

namespace Value

mutual

theorem dumpedBy_plain : (v : Value) → v.DumpedBy .plain
  | .list items => allDumpedBy_plain items
  | .tuple items => allDumpedBy_plain items
  | .dict entries => entriesDumpedBy_plain entries
  | .record _ fields => ⟨rfl, fieldsDumpedBy_plain fields⟩
  | .enumeration _ v => dumpedBy_plain v
  | .null => trivial
  | .boolean _ => trivial
  | .integer _ => trivial
  | .real _ => trivial
  | .string _ => trivial
  | .bytes _ => trivial
  | .byteArray _ => trivial
  | .moment _ => trivial
  | .day _ => trivial
  | .node _ => trivial
  | .foreign _ => trivial

theorem allDumpedBy_plain : (items : List Value) → AllDumpedBy .plain items
  | [] => trivial
  | v :: rest => ⟨dumpedBy_plain v, allDumpedBy_plain rest⟩

theorem entriesDumpedBy_plain : (entries : List (Value × Value)) → EntriesDumpedBy .plain entries
  | [] => trivial
  | (_, v) :: rest => ⟨dumpedBy_plain v, entriesDumpedBy_plain rest⟩

theorem fieldsDumpedBy_plain : (fields : List (Text × Value)) → FieldsDumpedBy .plain fields
  | [] => trivial
  | (_, v) :: rest => ⟨dumpedBy_plain v, fieldsDumpedBy_plain rest⟩

end

theorem allDumpedBy_iff {host : Host} {items : List Value} :
    AllDumpedBy host items ↔ ∀ v ∈ items, v.DumpedBy host := by
  induction items with
  | nil => simp [AllDumpedBy]
  | cons v rest ih => rw [AllDumpedBy, ih, List.forall_mem_cons]

theorem entriesDumpedBy_iff {host : Host} {entries : List (Value × Value)} :
    EntriesDumpedBy host entries ↔ ∀ entry ∈ entries, entry.2.DumpedBy host := by
  induction entries with
  | nil => simp [EntriesDumpedBy]
  | cons entry rest ih => rw [EntriesDumpedBy, ih, List.forall_mem_cons]

theorem height_pos (inRecord : Bool) (v : Value) : 0 < v.height inRecord := by
  have hspelled (n : Node) : 0 < n.spelledHeight := by
    cases n <;> simp only [Node.spelledHeight] <;> omega
  cases v with
  | node n =>
    rw [height]
    split_ifs
    · exact hspelled n
    · exact Nat.one_pos
  | _ =>
    simp only [height]
    omega

theorem fieldHeights_null (name : Text) (fields : List (Text × Value)) :
    fieldHeights ((name, .null) :: fields) = fieldHeights fields := by
  rw [fieldHeights]

theorem fieldHeights_of_ne_null {v : Value} (h : v ≠ .null) (name : Text)
    (fields : List (Text × Value)) :
    fieldHeights ((name, v) :: fields) = max (v.height true) (fieldHeights fields) := by
  rw [fieldHeights]
  exact h

theorem unfoldedFields_null (put : Node → Value) (name : Text) (fields : List (Text × Value)) :
    unfoldedFields put ((name, .null) :: fields) = unfoldedFields put fields := by
  rw [unfoldedFields]

theorem unfoldedFields_of_ne_null {v : Value} (h : v ≠ .null) (put : Node → Value) (name : Text)
    (fields : List (Text × Value)) :
    unfoldedFields put ((name, v) :: fields) =
      (.string name, v.unfolded put) :: unfoldedFields put fields := by
  rw [unfoldedFields]
  exact h

end Value

/-! What a record is dumped as has the same node, height and records in it. -/

namespace Node

mutual

theorem height_spelledValue : (node : Node) → node.spelledValue.height false = node.spelledHeight
  | .leaf l => by cases l <;> rfl
  | .container kind children => by
    rw [spelledValue, spelledHeight, ← heights_spelledValues children]
    simp only [Value.height, Value.entryHeights]
    omega
  | .bare => rfl

theorem heights_spelledValues : (children : List Node) →
    Value.heights false (spelledValues children) = spelledHeights children
  | [] => rfl
  | node :: rest => by
    rw [spelledValues, Value.heights, spelledHeights, height_spelledValue node,
      heights_spelledValues rest]

end

variable (host : Host)

mutual

theorem dumpedBy_spelledValue : (node : Node) → node.spelledValue.DumpedBy host
  | .leaf l => by
    cases l with
    | date t => exact ⟨trivial, trivial, trivial, trivial⟩
    | _ => exact ⟨trivial, trivial, trivial⟩
  | .container _ children => ⟨trivial, allDumpedBy_spelledValues children, trivial⟩
  | .bare => trivial

theorem allDumpedBy_spelledValues : (children : List Node) →
    Value.AllDumpedBy host (spelledValues children)
  | [] => trivial
  | node :: rest => ⟨dumpedBy_spelledValue node, allDumpedBy_spelledValues rest⟩

end

end Node

namespace Value

mutual

theorem height_unfolded : (v : Value) → (v.unfolded Node.spelledValue).height false = v.height true
  | .list items => by rw [unfolded, height, height, heights_unfoldedAll items]
  | .tuple items => by rw [unfolded, height, height, heights_unfoldedAll items]
  | .dict entries => by rw [unfolded, height, height, entryHeights_unfoldedEntries entries]
  | .record _ fields => by rw [unfolded, height, height, entryHeights_unfoldedFields fields]
  | .node n => by rw [unfolded, height, if_pos rfl, Node.height_spelledValue]
  | .null => rfl
  | .boolean _ => rfl
  | .integer _ => rfl
  | .real _ => rfl
  | .string _ => rfl
  | .bytes _ => rfl
  | .byteArray _ => rfl
  | .moment _ => rfl
  | .day _ => rfl
  | .enumeration _ _ => rfl
  | .foreign _ => rfl

theorem heights_unfoldedAll : (items : List Value) →
    heights false (unfoldedAll Node.spelledValue items) = heights true items
  | [] => rfl
  | v :: rest => by rw [unfoldedAll, heights, heights, height_unfolded v, heights_unfoldedAll rest]

theorem entryHeights_unfoldedEntries : (entries : List (Value × Value)) →
    entryHeights false (unfoldedEntries Node.spelledValue entries) = entryHeights true entries
  | [] => rfl
  | (_, v) :: rest => by
    rw [unfoldedEntries, entryHeights, entryHeights, height_unfolded v,
      entryHeights_unfoldedEntries rest]

theorem entryHeights_unfoldedFields : (fields : List (Text × Value)) →
    entryHeights false (unfoldedFields Node.spelledValue fields) = fieldHeights fields
  | [] => rfl
  | (name, v) :: rest => by
    by_cases hv : v = .null
    · rw [hv, unfoldedFields_null, fieldHeights_null, entryHeights_unfoldedFields rest]
    · rw [unfoldedFields_of_ne_null hv, fieldHeights_of_ne_null hv, entryHeights, height_unfolded v,
        entryHeights_unfoldedFields rest]

end

section Dumped

variable {host : Host} {put : Node → Value}

mutual

theorem dumpedBy_unfolded (hput : ∀ n, (put n).DumpedBy host) : (v : Value) → v.DumpedBy host →
    (v.unfolded put).DumpedBy host
  | .list items, h => allDumpedBy_unfoldedAll hput items h
  | .tuple items, h => allDumpedBy_unfoldedAll hput items h
  | .dict entries, h => entriesDumpedBy_unfoldedEntries hput entries h
  | .record _ fields, h => entriesDumpedBy_unfoldedFields hput fields h.2
  | .node n, _ => hput n
  | .enumeration _ _, h => h
  | .null, _ => trivial
  | .boolean _, _ => trivial
  | .integer _, _ => trivial
  | .real _, _ => trivial
  | .string _, _ => trivial
  | .bytes _, _ => trivial
  | .byteArray _, _ => trivial
  | .moment _, _ => trivial
  | .day _, _ => trivial
  | .foreign _, _ => trivial

theorem allDumpedBy_unfoldedAll (hput : ∀ n, (put n).DumpedBy host) : (items : List Value) →
    AllDumpedBy host items → AllDumpedBy host (unfoldedAll put items)
  | [], _ => trivial
  | v :: rest, h => ⟨dumpedBy_unfolded hput v h.1, allDumpedBy_unfoldedAll hput rest h.2⟩

theorem entriesDumpedBy_unfoldedEntries (hput : ∀ n, (put n).DumpedBy host) :
    (entries : List (Value × Value)) → EntriesDumpedBy host entries →
      EntriesDumpedBy host (unfoldedEntries put entries)
  | [], _ => trivial
  | (_, v) :: rest, h =>
    ⟨dumpedBy_unfolded hput v h.1, entriesDumpedBy_unfoldedEntries hput rest h.2⟩

theorem entriesDumpedBy_unfoldedFields (hput : ∀ n, (put n).DumpedBy host) :
    (fields : List (Text × Value)) → FieldsDumpedBy host fields →
      EntriesDumpedBy host (unfoldedFields put fields)
  | [], _ => trivial
  | (name, v) :: rest, h => by
    have hrest := entriesDumpedBy_unfoldedFields hput rest h.2
    by_cases hv : v = .null
    · rw [hv, unfoldedFields_null]
      exact hrest
    · rw [unfoldedFields_of_ne_null hv]
      exact ⟨dumpedBy_unfolded hput v h.1, hrest⟩

end

end Dumped

theorem entriesDumpedBy_dumpedFields {host : Host} {fields : List (Text × Value)}
    (h : FieldsDumpedBy host fields) : EntriesDumpedBy host (dumpedFields fields) :=
  entriesDumpedBy_unfoldedFields (Node.dumpedBy_spelledValue host) fields h

end Value

namespace Node

mutual

/-- Inside a record, a value has the node of what it unfolds into with its nodes spelled out. -/
theorem ofValueIn_true_eq : (v : Value) →
    ofValueIn true v = ofValueIn false (v.unfolded spelledValue)
  | .list items => by rw [Value.unfolded, ofValueIn, ofValueIn, itemNodes_true_eq items]
  | .tuple items => by rw [Value.unfolded, ofValueIn, ofValueIn, itemNodes_true_eq items]
  | .dict entries => by rw [Value.unfolded, ofValueIn, ofValueIn, entryNodes_true_eq entries]
  | .record _ fields => by rw [Value.unfolded, ofValueIn, ofValueIn, fieldNodes_eq fields]; rfl
  | .node n => by rw [Value.unfolded, ofValueIn, if_pos rfl, spelled_eq n]
  | .null => rfl
  | .boolean _ => rfl
  | .integer _ => rfl
  | .real _ => rfl
  | .string _ => rfl
  | .bytes _ => rfl
  | .byteArray _ => rfl
  | .moment _ => rfl
  | .day _ => rfl
  | .enumeration _ _ => rfl
  | .foreign _ => rfl

theorem itemNodes_true_eq : (items : List Value) →
    itemNodes true items = itemNodes false (Value.unfoldedAll spelledValue items)
  | [] => rfl
  | v :: rest => by
    rw [Value.unfoldedAll, itemNodes, itemNodes, ofValueIn_true_eq v, itemNodes_true_eq rest]

theorem entryNodes_true_eq : (entries : List (Value × Value)) →
    entryNodes true entries = entryNodes false (Value.unfoldedEntries spelledValue entries)
  | [] => rfl
  | (key, v) :: rest => by
    rw [Value.unfoldedEntries]
    cases key with
    | string name => rw [entryNodes, entryNodes, ofValueIn_true_eq v, entryNodes_true_eq rest]
    | _ => rfl

/-- A record has the children of the dictionary that it is dumped as. -/
theorem fieldNodes_eq : (fields : List (Text × Value)) →
    fieldNodes fields = entryNodes false (Value.dumpedFields fields)
  | [] => rfl
  | (name, v) :: rest => by
    by_cases hv : v = .null
    · rw [hv, fieldNodes_null, Value.dumpedFields, Value.unfoldedFields_null, fieldNodes_eq rest,
        Value.dumpedFields]
    · rw [fieldNodes_of_ne_null hv, Value.dumpedFields, Value.unfoldedFields_of_ne_null hv,
        entryNodes, ofValueIn_true_eq v, fieldNodes_eq rest, Value.dumpedFields]

end

/-! One call of the conversion. -/

section Call

variable {host : Host} {room : ℕ}

theorem ofValue_of_lt {v : Value} (h : room < host.calls v) :
    ofValue host (room + 1) v = .error (.callLimit host.excess) := by
  cases v <;> rw [ofValue, if_pos h] <;> simp

/-- A conversion that gives a node had room for its own call. -/
theorem exists_room_of_ofValue {v : Value} {tree : Node} (hok : ofValue host room v = .ok tree) :
    ∃ rest, room = rest + 1 ∧ ¬ rest < host.calls v := by
  cases room with
  | zero => cases v <;> cases hok
  | succ rest =>
    refine ⟨rest, rfl, fun hcalls => ?_⟩
    rw [ofValue_of_lt hcalls] at hok
    cases hok

theorem ofValue_list {items : List Value} (h : ¬ room < host.calls (.list items)) :
    ofValue host (room + 1) (.list items) = ofItems host room items >>= arrayOf := by
  rw [ofValue, if_neg h]

theorem ofValue_tuple {items : List Value} (h : ¬ room < host.calls (.tuple items)) :
    ofValue host (room + 1) (.tuple items) = ofItems host room items >>= arrayOf := by
  rw [ofValue, if_neg h]

theorem ofValue_dict {entries : List (Value × Value)} (h : ¬ room < host.calls (.dict entries)) :
    ofValue host (room + 1) (.dict entries) = ofMapping host room entries := by
  rw [ofValue, if_neg h]

theorem ofValue_record {type : ClassName} {fields : List (Text × Value)}
    (h : ¬ room < host.calls (.record type fields)) :
    ofValue host (room + 1) (.record type fields) =
      host.dump type fields >>= ofMapping host room := by
  rw [ofValue, if_neg h]

theorem ofValue_enumeration {type : ClassName} {v : Value}
    (h : ¬ room < host.calls (.enumeration type v)) :
    ofValue host (room + 1) (.enumeration type v) = ofValue host room v := by
  rw [ofValue, if_neg h]

end Call

/-! The conversion against the recursion. -/

/-- Whether there may be too little room for a conversion of some height. -/
def MayLack (host : Host) (room height : ℕ) : Prop :=
  ∀ most, (∀ v, host.calls v ≤ most) → room < height + most

/-- Two results that are the same, unless the first one is that there was too little room. -/
def Agrees {α : Type} (host : Host) (room height : ℕ) (result direct : Except Failure α) : Prop :=
  result = direct ∨ MayLack host room height ∧ result = .error (.callLimit host.excess)

section Agreement

variable {host : Host} {room room' height height' : ℕ} {α β : Type}

theorem MayLack.mono (h : MayLack host room' height') (hle : height' + room ≤ height + room') :
    MayLack host room height := by
  intro most hmost
  have := h most hmost
  omega

theorem Agrees.refl (result : Except Failure α) : Agrees host room height result result := .inl rfl

/-- There is too little room for the second of two conversions that are done one after another only
if there is too little for both. -/
theorem Agrees.bind {result direct : Except Failure α} {next after : α → Except Failure β}
    (h : Agrees host room height result direct)
    (hnext : ∀ a, Agrees host room height (next a) (after a)) :
    Agrees host room height (result >>= next) (direct >>= after) := by
  obtain rfl | ⟨hlack, rfl⟩ := h
  · cases result with
    | ok a => exact hnext a
    | error failure => exact .refl _
  · exact .inr ⟨hlack, rfl⟩

theorem Agrees.mono {result direct : Except Failure α} (h : Agrees host room' height' result direct)
    (hle : height' + room ≤ height + room') : Agrees host room height result direct :=
  h.imp_right fun hlack => ⟨hlack.1.mono hle, hlack.2⟩

theorem Agrees.lack (hlack : MayLack host room height) (direct : Except Failure α) :
    Agrees host room height (.error (.callLimit host.excess)) direct :=
  .inr ⟨hlack, rfl⟩

theorem agrees_mapM {convert : Value → Except Failure Node} {items : List Value}
    (h : ∀ v ∈ items, Agrees host room (v.height false) (convert v) (ofValueIn false v)) :
    Agrees host room (Value.heights false items) (items.mapM convert) (itemNodes false items) := by
  induction items with
  | nil => exact .refl _
  | cons v rest ih =>
    rw [List.forall_mem_cons] at h
    rw [List.mapM_cons, itemNodes, Value.heights]
    refine (h.1.mono (by omega)).bind fun node => ?_
    exact ((ih h.2).mono (by omega)).bind fun nodes => .refl _

theorem agrees_ofEntries {convert : Value → Except Failure Node} {entries : List (Value × Value)}
    (h : ∀ entry ∈ entries,
      Agrees host room (entry.2.height false) (convert entry.2) (ofValueIn false entry.2)) :
    Agrees host room (Value.entryHeights false entries) (ofEntries convert entries)
      (entryNodes false entries) := by
  induction entries with
  | nil => exact .refl _
  | cons entry rest ih =>
    obtain ⟨key, v⟩ := entry
    rw [List.forall_mem_cons] at h
    rw [Value.entryHeights]
    cases key with
    | string name =>
      rw [ofEntries, entryNodes]
      have hentry : Agrees host room (max (v.height false) (Value.entryHeights false rest))
          (entryOf name (convert v)) (entryOf name (ofValueIn false v)) :=
        (Agrees.refl _).bind fun key => (h.1.mono (Nat.add_le_add_right (Nat.le_max_left _ _) _)).bind
          fun node => .refl _
      refine hentry.bind fun node => ?_
      exact ((ih h.2).mono (by omega)).bind fun nodes => .refl _
    | _ => exact .refl _

theorem agrees_ofItems {items : List Value}
    (h : ∀ room v, room' = room + 1 → v ∈ items →
      Agrees host room (v.height false) (ofValue host room v) (ofValueIn false v)) :
    Agrees host (room' + 1) (2 + Value.heights false items) (ofItems host room' items)
      (itemNodes false items) := by
  cases room' with
  | zero => exact .lack (fun most _ => by omega) _
  | succ room =>
    rw [ofItems]
    exact (agrees_mapM fun v hv => h room v rfl hv).mono (by omega)

theorem agrees_ofMapping {entries : List (Value × Value)}
    (h : ∀ room entry, room' = room + 1 → entry ∈ entries →
      Agrees host room (entry.2.height false) (ofValue host room entry.2)
        (ofValueIn false entry.2)) :
    Agrees host (room' + 1) (2 + Value.entryHeights false entries) (ofMapping host room' entries)
      ((entryNodes false entries).map .dict) := by
  cases room' with
  | zero => exact .lack (fun most _ => by omega) _
  | succ room =>
    rw [ofMapping]
    exact ((agrees_ofEntries fun entry hentry => h room entry rfl hentry).mono (by omega)).bind
      fun children => .refl _

end Agreement

/-- The conversion of a value whose records are dumped as their fields gives what the recursion gives,
unless there is too little room for it. The induction is on the room. -/
theorem agrees_ofValue {host : Host} (room : ℕ) (v : Value) (h : v.DumpedBy host) :
    Agrees host room (v.height false) (ofValue host room v) (ofValueIn false v) := by
  induction room using Nat.strongRecOn generalizing v with
  | ind room ih =>
  cases room with
  | zero =>
    refine .lack (fun most _ => ?_) _
    have := Value.height_pos false v
    omega
  | succ room =>
    by_cases hcalls : room < host.calls v
    · rw [ofValue_of_lt hcalls]
      refine .lack (fun most hmost => ?_) _
      have := Value.height_pos false v
      have := hmost v
      omega
    cases v with
    | list items =>
      rw [ofValue_list hcalls]
      refine (agrees_ofItems fun room' v hroom hv => ?_).bind fun nodes => .refl _
      exact ih room' (by omega) v (Value.allDumpedBy_iff.mp h v hv)
    | tuple items =>
      rw [ofValue_tuple hcalls]
      refine (agrees_ofItems fun room' v hroom hv => ?_).bind fun nodes => .refl _
      exact ih room' (by omega) v (Value.allDumpedBy_iff.mp h v hv)
    | dict entries =>
      rw [ofValue_dict hcalls]
      refine agrees_ofMapping fun room' entry hroom hentry => ?_
      exact ih room' (by omega) entry.2 (Value.entriesDumpedBy_iff.mp h entry hentry)
    | record type fields =>
      have hentries := Value.entriesDumpedBy_iff.mp (Value.entriesDumpedBy_dumpedFields h.2)
      rw [ofValue_record hcalls, h.1, ofValueIn, fieldNodes_eq, Value.height,
        ← Value.entryHeights_unfoldedFields]
      refine agrees_ofMapping fun room' entry hroom hentry => ?_
      exact ih room' (by omega) entry.2 (hentries entry hentry)
    | enumeration type v =>
      rw [ofValue_enumeration hcalls]
      exact (ih room (by omega) v h).mono (by rw [Value.height]; omega)
    | _ =>
      simp only [ofValue, if_neg hcalls]
      exact .refl _

section Room

variable {host : Host} {room : ℕ} {v : Value} {tree : Node}

theorem ofValueIn_of_ofValue (h : v.DumpedBy host) (hok : ofValue host room v = .ok tree) :
    ofValueIn false v = .ok tree := by
  rcases agrees_ofValue room v h with heq | ⟨-, heq⟩
  · rw [← heq]
    exact hok
  · rw [heq] at hok
    cases hok

/-- With room for all calls, the conversion is the recursion. -/
theorem ofValue_eq {most : ℕ} (h : v.DumpedBy host) (hcalls : ∀ w, host.calls w ≤ most)
    (hroom : v.height false + most ≤ room) : ofValue host room v = ofValueIn false v := by
  rcases agrees_ofValue room v h with heq | ⟨hlack, -⟩
  · exact heq
  · have := hlack most hcalls
    omega

/-- A conversion fails where the recursion has a node just for too little room. -/
theorem ofValue_eq_error {failure : Failure} (h : v.DumpedBy host)
    (hdirect : ofValueIn false v = .ok tree) (herror : ofValue host room v = .error failure) :
    failure = .callLimit host.excess := by
  rcases agrees_ofValue room v h with heq | ⟨-, heq⟩
  · rw [heq, hdirect] at herror
    cases herror
  · rw [heq] at herror
    cases herror
    rfl

theorem heights_le_of_mapM {convert : Value → Except Failure Node} {items : List Value}
    {nodes : List Node} (h : ∀ v ∈ items, ∀ tree, convert v = .ok tree → v.height false ≤ room)
    (hok : items.mapM convert = .ok nodes) : Value.heights false items ≤ room := by
  induction items generalizing nodes with
  | nil => exact Nat.zero_le _
  | cons v rest ih =>
    rw [List.forall_mem_cons] at h
    rw [List.mapM_cons] at hok
    obtain ⟨node, others, hnode, hothers, -⟩ := except_both_eq_ok.mp hok
    exact Nat.max_le.mpr ⟨h.1 node hnode, ih h.2 hothers⟩

theorem entryHeights_le_of_ofEntries {convert : Value → Except Failure Node}
    {entries : List (Value × Value)} {children : List Node}
    (h : ∀ entry ∈ entries, ∀ tree, convert entry.2 = .ok tree → entry.2.height false ≤ room)
    (hok : ofEntries convert entries = .ok children) :
    Value.entryHeights false entries ≤ room := by
  induction entries generalizing children with
  | nil => exact Nat.zero_le _
  | cons entry rest ih =>
    obtain ⟨key, v⟩ := entry
    rw [List.forall_mem_cons] at h
    cases key with
    | string name =>
      obtain ⟨front, others, hfront, hothers, -⟩ := except_both_eq_ok.mp hok
      obtain ⟨-, node, -, hnode, -⟩ := except_both_eq_ok.mp hfront
      exact Nat.max_le.mpr ⟨h.1 node hnode, ih h.2 hothers⟩
    | _ => cases hok

theorem heights_le_of_ofItems {items : List Value} {nodes : List Node}
    (h : ∀ room' v tree, room = room' + 1 → v ∈ items → ofValue host room' v = .ok tree →
      v.height false ≤ room') (hok : ofItems host room items = .ok nodes) :
    2 + Value.heights false items ≤ room + 1 := by
  cases room with
  | zero => cases hok
  | succ room =>
    rw [ofItems] at hok
    have := heights_le_of_mapM (fun v hv tree => h room v tree rfl hv) hok
    omega

theorem entryHeights_le_of_ofMapping {entries : List (Value × Value)}
    (h : ∀ room' entry tree, room = room' + 1 → entry ∈ entries →
      ofValue host room' entry.2 = .ok tree → entry.2.height false ≤ room')
    (hok : ofMapping host room entries = .ok tree) :
    2 + Value.entryHeights false entries ≤ room + 1 := by
  cases room with
  | zero => cases hok
  | succ room =>
    obtain ⟨children, hchildren, -⟩ := except_map_eq_ok.mp hok
    have := entryHeights_le_of_ofEntries (fun entry hentry tree => h room entry tree rfl hentry)
      hchildren
    omega

end Room

/-- A conversion that gives a node had room for all parts of the value. -/
theorem height_le_of_ofValue {host : Host} (room : ℕ) (v : Value) (tree : Node)
    (h : v.DumpedBy host) (hok : ofValue host room v = .ok tree) : v.height false ≤ room := by
  induction room using Nat.strongRecOn generalizing v tree with
  | ind _ ih =>
  obtain ⟨room, rfl, hcalls⟩ := exists_room_of_ofValue hok
  cases v with
  | list items =>
    rw [ofValue_list hcalls] at hok
    obtain ⟨nodes, hnodes, -⟩ := except_bind_eq_ok.mp hok
    refine heights_le_of_ofItems (fun room' v tree hroom hv => ?_) hnodes
    exact ih room' (by omega) v tree (Value.allDumpedBy_iff.mp h v hv)
  | tuple items =>
    rw [ofValue_tuple hcalls] at hok
    obtain ⟨nodes, hnodes, -⟩ := except_bind_eq_ok.mp hok
    refine heights_le_of_ofItems (fun room' v tree hroom hv => ?_) hnodes
    exact ih room' (by omega) v tree (Value.allDumpedBy_iff.mp h v hv)
  | dict entries =>
    rw [ofValue_dict hcalls] at hok
    refine entryHeights_le_of_ofMapping (fun room' entry tree hroom hentry => ?_) hok
    exact ih room' (by omega) entry.2 tree (Value.entriesDumpedBy_iff.mp h entry hentry)
  | record type fields =>
    have hentries := Value.entriesDumpedBy_iff.mp (Value.entriesDumpedBy_dumpedFields h.2)
    rw [ofValue_record hcalls, h.1] at hok
    rw [Value.height, ← Value.entryHeights_unfoldedFields]
    refine entryHeights_le_of_ofMapping (fun room' entry tree hroom hentry => ?_) hok
    exact ih room' (by omega) entry.2 tree (hentries entry hentry)
  | enumeration type v =>
    rw [ofValue_enumeration hcalls] at hok
    have := ih room (by omega) v tree h hok
    rw [Value.height]
    omega
  | node n =>
    rw [Value.height, if_neg Bool.false_ne_true]
    omega
  | _ =>
    simp only [Value.height]
    omega

end Node

/-! Lists inside each other, as deep as there is room for, and deeper. -/

/-- A list in a list, a number of times, each time behind some other items. -/
def Value.nested (front : List Value) : ℕ → Value
  | 0 => .list []
  | n + 1 => .list (front ++ [nested front n])

theorem Node.ofValue_nested_ne_ok {host : Host} {least : ℕ} (hcalls : ∀ w, least ≤ host.calls w)
    (front : List Value) (depth room : ℕ) (hroom : room ≤ 2 * depth + least) (tree : Node) :
    ofValue host room (.nested front depth) ≠ .ok tree := by
  intro hok
  induction depth generalizing room tree with
  | zero =>
    obtain ⟨rest, rfl, hrest⟩ := exists_room_of_ofValue hok
    have := hcalls (.nested front 0)
    omega
  | succ depth ih =>
    obtain ⟨rest, rfl, hrest⟩ := exists_room_of_ofValue hok
    rw [Value.nested] at hok hrest
    rw [ofValue_list hrest] at hok
    obtain ⟨nodes, hnodes, -⟩ := except_bind_eq_ok.mp hok
    cases rest with
    | zero => cases hnodes
    | succ room =>
      -- the innermost lists are the last items
      rw [ofItems, List.mapM_append] at hnodes
      obtain ⟨-, last, -, hlast, -⟩ := except_both_eq_ok.mp hnodes
      rw [List.mapM_cons] at hlast
      obtain ⟨node, -, hnode, -⟩ := except_both_eq_ok.mp hlast
      exact ih room (by omega) node hnode

end PropertyList
