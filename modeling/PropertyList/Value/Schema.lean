import PropertyList.Node.Check
import PropertyList.Value.OfNode

/-!
Schemas of records. A record is made from a dictionary that has its fields; other entries do not
count. The issues of all fields are reported, in the order of the fields.
-/
namespace PropertyList

/-- The type of a field. -/
inductive FieldType where
  | string
  | integer
  | boolean
  | moment
  | bytes
  | anything
  | optional (type : FieldType)
  | list (type : FieldType)
  | choice (type : ClassName) (choices : List Text)
  | record (type : ClassName) (fields : List (Text × FieldType × Option Value))

/-- The class of a record, with its named fields, each of which may have a value by default. -/
structure Schema where
  className : ClassName
  fields : List (Text × FieldType × Option Value)

namespace FieldType

/-- A scalar, or its problem as an issue. -/
def scalar {α : Type} (wrap : α → Value) (result : Except Problem α) :
    Except (List Issue) Value :=
  match result with
  | .ok a => .ok (wrap a)
  | .error problem => .error [⟨[], problem⟩]

/-- Reads items one by one, counted from `i`. -/
def checkItems (check : Value → Except (List Issue) Value) :
    Nat → List Value → Except (List Issue) (List Value)
  | _, [] => .ok []
  | i, item :: rest =>
    (both (issuesInside (.index i) (check item)) (checkItems check (i + 1) rest)).map
      fun parts => parts.1 :: parts.2

mutual

/-- Reads a value as one of a type. -/
def check : FieldType → Value → Except (List Issue) Value
  | .string, value => scalar .string value.asText
  | .integer, value => scalar .integer value.asInteger
  | .boolean, value => scalar .boolean value.asBoolean
  | .moment, value => scalar .moment value.asMoment
  | .bytes, value => scalar .bytes value.asBytes
  | .anything, value => .ok value
  | .optional type, value =>
    match value with
    | .null => .ok .null
    | value => check type value
  | .list type, value =>
    match value.asList with
    | .error problem => .error [⟨[], problem⟩]
    | .ok items => (checkItems (check type) 0 items).map .list
  | .choice type choices, value =>
    match value with
    | .string s =>
      if choices.contains s then .ok (.enumeration type (.string s))
      else .error [⟨[], .noChoice choices⟩]
    | _ => .error [⟨[], .noChoice choices⟩]
  | .record type fields, value =>
    match value with
    | .record other given =>
      if other = type then .ok (.record other given) else .error [⟨[], .noRecord type.name⟩]
    | .dict entries => (checkFields fields entries).map (.record type)
    | _ => .error [⟨[], .noRecord type.name⟩]

/-- Reads the fields of a record from the entries of a dictionary. -/
def checkFields :
    List (Text × FieldType × Option Value) → List (Value × Value) →
      Except (List Issue) (List (Text × Value))
  | [], _ => .ok []
  | (name, type, initial) :: rest, entries =>
    let own :=
      match Value.entry? name entries, initial with
      | some value, _ => issuesInside (.field name) (check type value)
      | none, some value => .ok value
      | none, none => .error [⟨[.field name], .missing⟩]
    (both own (checkFields rest entries)).map fun parts => (name, parts.1) :: parts.2

end

end FieldType

namespace Schema

def type (schema : Schema) : FieldType := .record schema.className schema.fields

/-- The record that the entries of a dictionary make up. -/
def record (schema : Schema) (entries : List (Value × Value)) : Except Failure Value :=
  titled schema.className.name
    ((FieldType.checkFields schema.fields entries).map (.record schema.className))

end Schema

/-- The record that a tree holds. The tree has to be a dictionary. -/
def Schema.ofNode (schema : Schema) (node : Node) : Run Value := do
  match ← Value.ofNode node with
  | .dict entries => Run.ofExcept (schema.record entries)
  | _ => Run.fail (.noDict ((node.kind?.map Kind.name).getD []))

end PropertyList
