import PropertyList.Proofs.Value.RoundTrip
import PropertyList.Value.Schema

/-! Values that the fields of a record hold. Those of a portable type have nodes, and the type finds
them in their normal form again, with each moment in universal time. -/
namespace PropertyList

/-- A moment with an offset that is a date of the years 1 to 9999. -/
structure Moment.IsDate (m : Moment) : Prop where
  aware : m.offset.isSome = true
  day : m.day.exists? = true
  clock : m.clock.exists? = true
  first : minSeconds ≤ m.instant.fdiv microsPerSecond
  last : m.instant.fdiv microsPerSecond ≤ maxSeconds

namespace FieldType

/-- The values of a type that a property list admits. A record has just its fields, in order. -/
inductive Holds : FieldType → Value → Prop
  | string {s : Text} (h : s.isXml = true) : Holds .string (.string s)
  | integer {n : ℤ} (hzero : 0 ≤ n) (hmax : n ≤ maxInteger) : Holds .integer (.integer n)
  | boolean (b : Bool) : Holds .boolean (.boolean b)
  | moment {m : Moment} (h : m.IsDate) : Holds .moment (.moment m)
  | bytes (b : Bytes) : Holds .bytes (.bytes b)
  | absent (type : FieldType) : Holds (.optional type) .null
  | present {type : FieldType} {v : Value} (h : Holds type v) : Holds (.optional type) v
  | list {type : FieldType} {items : List Value} (h : ∀ item ∈ items, Holds type item) :
      Holds (.list type) (.list items)
  | choice {type : ClassName} {choices : List Text} {s : Text} (h : s ∈ choices) :
      Holds (.choice type choices) (.enumeration type (.string s))
  | record {type : ClassName} {fields : List (Text × FieldType × Option Value)}
      {given : List (Text × Value)} (hnames : given.map Prod.fst = fields.map Prod.fst)
      (h : ∀ pair ∈ fields.zip given, Holds pair.1.2.1 pair.2.2) :
      Holds (.record type fields) (.record type given)

mutual

/-- How high the values of a type can be. -/
def height : FieldType → ℕ
  | .optional type => max 1 type.height
  | .list type => 2 + type.height
  | .choice _ _ => 2
  | .record _ fields => 2 + fieldHeights fields
  | _ => 1

def fieldHeights : List (Text × FieldType × Option Value) → ℕ
  | [] => 0
  | (_, type, _) :: rest => max type.height (fieldHeights rest)

end

def isOptional : FieldType → Bool
  | .optional _ => true
  | _ => false

mutual

/-- Whether every value of a type can be told from its node. Names and choices have to be texts of
documents, and only a field that has no value by default may have none. -/
def isPortable : FieldType → Bool
  | .anything => false
  | .optional type => !type.isOptional && type.isPortable
  | .list type => !type.isOptional && type.isPortable
  | .choice _ choices => choices.all Text.isXml
  | .record _ fields => decide (fields.map Prod.fst).Nodup && arePortable fields
  | _ => true

def arePortable : List (Text × FieldType × Option Value) → Bool
  | [] => true
  | (name, type, initial) :: rest =>
    name.isXml && type.isPortable && (!type.isOptional || initial matches some .null) &&
      arePortable rest

end

end FieldType

namespace Value

theorem heights_le {inRecord : Bool} {bound : ℕ} {items : List Value}
    (h : ∀ v ∈ items, v.height inRecord ≤ bound) : heights inRecord items ≤ bound := by
  induction items with
  | nil => exact Nat.zero_le _
  | cons v rest ih =>
    rw [List.forall_mem_cons] at h
    exact Nat.max_le.mpr ⟨h.1, ih h.2⟩

theorem fieldHeights_le {fields : List (Text × FieldType × Option Value)}
    {given : List (Text × Value)} (hnames : given.map Prod.fst = fields.map Prod.fst)
    (h : ∀ pair ∈ fields.zip given, pair.2.2.height true ≤ pair.1.2.1.height) :
    fieldHeights given ≤ FieldType.fieldHeights fields := by
  induction given generalizing fields with
  | nil => exact Nat.zero_le _
  | cons first given ih =>
    obtain ⟨name, v⟩ := first
    cases fields with
    | nil => cases hnames
    | cons field fields =>
      obtain ⟨other, type, initial⟩ := field
      rw [List.zip_cons_cons, List.forall_mem_cons] at h
      rw [FieldType.fieldHeights]
      have hrest := ih (List.cons.inj hnames).2 h.2
      by_cases hv : v = .null
      · rw [hv, fieldHeights_null]
        exact Nat.le_trans hrest (Nat.le_max_right ..)
      · have hfirst : v.height true ≤ type.height := h.1
        rw [fieldHeights_of_ne_null hv]
        omega

/-- The values of a type are no higher than the type says. -/
theorem height_le_of_holds {type : FieldType} {v : Value} (h : type.Holds v) (inRecord : Bool) :
    v.height inRecord ≤ type.height := by
  induction h generalizing inRecord with
  | absent type => exact Nat.le_max_left ..
  | present _ ih => exact Nat.le_trans (ih inRecord) (Nat.le_max_right ..)
  | list _ ih =>
    exact Nat.add_le_add_left (heights_le fun item hitem => ih item hitem inRecord) 2
  | record hnames _ ih =>
    exact Nat.add_le_add_left (fieldHeights_le hnames fun pair hpair => ih pair hpair true) 2
  | _ => exact Nat.le_refl _

mutual

/-- A value with its moments in universal time, in lists and records. -/
def universal : Value → Value
  | .moment m => .moment m.universal
  | .list items => .list (universalAll items)
  | .record type fields => .record type (universalFields fields)
  | v => v

def universalAll : List Value → List Value
  | [] => []
  | v :: rest => v.universal :: universalAll rest

def universalFields : List (Text × Value) → List (Text × Value)
  | [] => []
  | (name, v) :: rest => (name, v.universal) :: universalFields rest

end

/-- What the value of a field comes back as, if the field has one. -/
def normal? : Value → Option Value
  | .null => none
  | v => some v.normal

theorem normal?_of_ne_null {v : Value} (h : v ≠ .null) : v.normal? = some v.normal := by
  rw [normal?]
  exact h

theorem entry?_normalFields_of_not_mem {name : Text} {fields : List (Text × Value)}
    (h : name ∉ fields.map Prod.fst) : entry? name (normalFields fields) = none := by
  induction fields with
  | nil => rfl
  | cons field fields ih =>
    obtain ⟨other, v⟩ := field
    simp only [List.map_cons, List.mem_cons, not_or] at h
    by_cases hv : v = .null
    · rw [hv, normalFields_null]
      exact ih h.2
    · have hother : ¬ (other == name) = true := by simpa using fun heq => h.1 heq.symm
      rw [normalFields_of_ne_null hv, entry?, if_neg hother]
      exact ih h.2

/-- The fields of a record are found by their names among the entries that they become. -/
theorem entry?_normalFields {fields : List (Text × Value)} (h : (fields.map Prod.fst).Nodup) :
    ∀ field ∈ fields, entry? field.1 (normalFields fields) = field.2.normal? := by
  induction fields with
  | nil => simp
  | cons first fields ih =>
    obtain ⟨name, v⟩ := first
    rw [List.map_cons, List.nodup_cons] at h
    rw [List.forall_mem_cons]
    by_cases hv : v = .null
    · rw [hv, normalFields_null]
      exact ⟨entry?_normalFields_of_not_mem h.1, ih h.2⟩
    · rw [normalFields_of_ne_null hv]
      constructor
      · rw [ entry?, if_pos (by simp), normal?_of_ne_null hv]
      · intro field hfield
        have hother : ¬ (name == field.1) = true := by
          simp only [beq_iff_eq]
          rintro rfl
          exact h.1 (List.mem_map.mpr ⟨field, hfield, rfl⟩)
        rw [ entry?, if_neg hother]
        exact ih h.2 field hfield

end Value

namespace Node

theorem ofText_of_isXml {s : Text} (h : s.isXml = true) : ofText s = .ok (.leaf (.string s)) :=
  ofText_eq_ok.mpr ⟨h, rfl⟩

theorem entryOf_of_isXml {name : Text} (hname : name.isXml = true) (node : Node) :
    entryOf name (.ok node) = .ok [.leaf (.key name), node] := by
  rw [entryOf, ofKeyText_eq_ok.mpr ⟨hname, rfl⟩]
  rfl

theorem ofInteger_of_le {n : ℤ} (hzero : 0 ≤ n) (hmax : n ≤ maxInteger) :
    ofInteger n = .ok (.leaf (.integer n.toNat)) := by
  rw [ofInteger, if_pos (by simp [hzero, hmax])]

theorem exists_ofMoment {m : Moment} (h : m.IsDate) : ∃ tree, ofMoment m = .ok tree :=
  exists_ofMoment_iff.mpr (Moment.inCalendar_iff.mpr ⟨h.first, h.last⟩)

/-- Valid nodes make up an array. -/
theorem arrayOf_of_allValid {nodes : List Node} (h : AllValid nodes) :
    arrayOf nodes = .ok (.array nodes) := by
  have hkind (node : Node) (hnode : node ∈ nodes) : node.kind?.isSome = true := by
    induction nodes with
    | nil => cases hnode
    | cons first nodes ih =>
      rcases List.mem_cons.mp hnode with rfl | hmem
      · cases node with
        | bare => exact h.1.elim
        | _ => rfl
      · exact ih h.2 hmem
  have hnone : bareIssues nodes = [] := by
    rw [bareIssues, List.filterMap_eq_nil_iff]
    intro entry hentry
    rw [if_pos (hkind _ (List.fst_mem_of_mem_zipIdx hentry))]
  rw [arrayOf, hnone]
  rfl

end Node

end PropertyList
