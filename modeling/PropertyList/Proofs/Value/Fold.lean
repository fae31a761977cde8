import PropertyList.Node.OfValue
import PropertyList.Value.Dump

/-! Nodes of values by recursion on the value alone. This is what the conversion comes to if there is
room for all of its calls, and if the fields of all records are declared as what they hold: it then
looks at a record field by field, and at a node in a record as at the dictionary of its fields. -/
namespace PropertyList.Node

mutual

/-- The node of the dictionary of the fields of a node. -/
def spelled : Node → Except Failure Node
  | .leaf (.date t) => do
    let kind ← entryOf (text "type") (ofText Kind.date.name)
    let seconds ← entryOf (text "seconds") (ofInteger t.seconds)
    let microseconds ← entryOf (text "microseconds") (ofInteger t.microseconds)
    return .dict (kind ++ seconds ++ microseconds)
  | .leaf l => do
    let kind ← entryOf (text "type") (ofText l.kind.name)
    let value ← entryOf (text "value") (ofScalar l.value)
    return .dict (kind ++ value)
  | .container kind nodes => do
    let kind ← entryOf (text "type") (ofText kind.kind.name)
    let children ← entryOf (text "children") (do arrayOf (← spelledAll nodes))
    return .dict (kind ++ children)
  | .bare => .ok (.dict [])

def spelledAll : List Node → Except Failure (List Node)
  | [] => .ok []
  | node :: rest => do return (← node.spelled) :: (← spelledAll rest)

end

mutual

/-- The node of a value, inside a record or outside. The member of an enumeration counts as outside
in either case. -/
def ofValueIn (inRecord : Bool) : Value → Except Failure Node
  | .node n => if inRecord then n.spelled else .ok n
  | .record _ fields => (fieldNodes fields).map .dict
  | .enumeration _ v => ofValueIn false v
  | .boolean b => .ok (.leaf (.boolean b))
  | .integer n => ofInteger n
  | .real x => .ok (.leaf (.real x))
  | .string s => ofText s
  | .bytes b => .ok (.leaf (.data b))
  | .byteArray b => .ok (.leaf (.data b))
  | .moment m => ofMoment m
  | .day d => ofMoment ⟨d, .midnight, some 0⟩
  | .dict entries => (entryNodes inRecord entries).map .dict
  | .list items => do arrayOf (← itemNodes inRecord items)
  | .tuple items => do arrayOf (← itemNodes inRecord items)
  | .null => .error (.unrepresentable (Value.typeName .null))
  | .foreign typeName => .error (.unrepresentable typeName)

def itemNodes (inRecord : Bool) : List Value → Except Failure (List Node)
  | [] => .ok []
  | item :: rest => do return (← ofValueIn inRecord item) :: (← itemNodes inRecord rest)

/-- The children of a dictionary with some entries. -/
def entryNodes (inRecord : Bool) : List (Value × Value) → Except Failure (List Node)
  | [] => .ok []
  | (key, value) :: rest => do
    match key with
    | .string name =>
      let entry ← entryOf name (ofValueIn inRecord value)
      return entry ++ (← entryNodes inRecord rest)
    | key => .error (.keyType key.typeName)

/-- The children of a dictionary with the fields of a record that have a value. -/
def fieldNodes : List (Text × Value) → Except Failure (List Node)
  | [] => .ok []
  | (name, value) :: rest =>
    match value with
    | .null => fieldNodes rest
    | value => do
      let entry ← entryOf name (ofValueIn true value)
      return entry ++ (← fieldNodes rest)

end

theorem fieldNodes_null (name : Text) (fields : List (Text × Value)) :
    fieldNodes ((name, .null) :: fields) = fieldNodes fields := by
  rw [fieldNodes]

theorem fieldNodes_of_ne_null {v : Value} (h : v ≠ .null) (name : Text)
    (fields : List (Text × Value)) :
    fieldNodes ((name, v) :: fields) = (do
      let entry ← entryOf name (ofValueIn true v)
      return entry ++ (← fieldNodes fields)) := by
  rw [fieldNodes]
  exact h

/-! A record has the node of the dictionary that it is dumped as. -/

theorem ofValueIn_dict_two (inRecord : Bool) (a b : Text) (v w : Value) :
    ofValueIn inRecord (.dict [(.string a, v), (.string b, w)]) = (do
      let x ← entryOf a (ofValueIn inRecord v)
      let y ← entryOf b (ofValueIn inRecord w)
      return .dict (x ++ y)) := by
  rw [ofValueIn, entryNodes, entryNodes, entryNodes]
  cases entryOf a (ofValueIn inRecord v) with
  | error failure => rfl
  | ok x =>
    cases entryOf b (ofValueIn inRecord w) with
    | error failure => rfl
    | ok y => simp [bind, Except.bind, pure, Except.pure, Except.map]

theorem ofValueIn_dict_three (inRecord : Bool) (a b c : Text) (u v w : Value) :
    ofValueIn inRecord (.dict [(.string a, u), (.string b, v), (.string c, w)]) = (do
      let x ← entryOf a (ofValueIn inRecord u)
      let y ← entryOf b (ofValueIn inRecord v)
      let z ← entryOf c (ofValueIn inRecord w)
      return .dict (x ++ y ++ z)) := by
  rw [ofValueIn, entryNodes, entryNodes, entryNodes, entryNodes]
  cases entryOf a (ofValueIn inRecord u) with
  | error failure => rfl
  | ok x =>
    cases entryOf b (ofValueIn inRecord v) with
    | error failure => rfl
    | ok y =>
      cases entryOf c (ofValueIn inRecord w) with
      | error failure => rfl
      | ok z => simp [bind, Except.bind, pure, Except.pure, Except.map]

theorem spelled_leaf (l : Leaf) : spelled (.leaf l) = ofValueIn false l.spelledValue := by
  have htwo := ofValueIn_dict_two false (text "type") (text "value") (.string l.kind.name) l.value
  cases l with
  | date t =>
    exact (ofValueIn_dict_three false (text "type") (text "seconds") (text "microseconds")
      (.string Kind.date.name) (.integer t.seconds) (.integer t.microseconds)).symm
  | _ => exact htwo.symm

mutual

theorem spelled_eq : (node : Node) → node.spelled = ofValueIn false node.spelledValue
  | .leaf l => spelled_leaf l
  | .container kind children => by
    rw [spelled, spelledValue, ofValueIn_dict_two, spelledAll_eq children]
    rfl
  | .bare => rfl

theorem spelledAll_eq : (children : List Node) →
    spelledAll children = itemNodes false (spelledValues children)
  | [] => rfl
  | node :: rest => by
    rw [spelledAll, spelledValues, itemNodes, spelled_eq node, spelledAll_eq rest]

end

end PropertyList.Node
