import PropertyList.Failure
import PropertyList.Leaf.Date
import PropertyList.Value.Basic

/-!
Nodes of plain values. A dictionary becomes alternating keys and values, and a record the dictionary
that it is dumped as. The parts of a value are converted by calls inside the one for the value itself,
of which there is room for a limited number; a container takes two of them, since its parts are gone
through by a call of its own. What a record is dumped as depends on how its class declares its fields,
and how many calls a single value takes depends on what makes its node; both are left open here.
-/
namespace PropertyList

/-- What the conversion of values relies on. -/
structure Host where
  /-- The entries that a record is dumped as, or the failure of it. -/
  dump : ClassName → List (Text × Value) → Except Failure (List (Value × Value))
  /-- The calls inside each other that it takes to look at a value and to make its own node, beside
  those for its parts. -/
  calls : Value → Nat
  /-- What is said of a call for which there is no room. -/
  excess : Text

namespace Node

def ofText (s : Text) : Except Failure Node :=
  (titled Kind.string.title (Leaf.ofString s)).map .leaf

def ofKeyText (s : Text) : Except Failure Node :=
  (titled Kind.key.title (Leaf.ofKey s)).map .leaf

/-- The node of an integer. One that is out of range is named in the failure, unless it is too long
to be written. -/
def ofInteger (n : Int) : Except Failure Node :=
  if 0 ≤ n && n ≤ maxInteger then .ok (.leaf (.integer n.toNat))
  else if Nat.pow 10 maxDecimalDigits ≤ n.natAbs then .error .hugeInteger
  else .error (.integerRange n)

def ofMoment (m : Moment) : Except Failure Node :=
  (titled Kind.date.title (Timestamp.ofMoment m)).map .leaf

/-- The issues of children of no kind. -/
def bareIssues (nodes : List Node) : List Issue :=
  nodes.zipIdx.filterMap fun entry =>
    if entry.1.kind?.isSome then none
    else some ⟨[.field (text "children"), .index entry.2], .noTag⟩

/-- An array of nodes, each of which has to be of some kind. -/
def arrayOf (nodes : List Node) : Except Failure Node :=
  let issues := bareIssues nodes
  if issues.isEmpty then .ok (.array nodes) else .error (.invalid Kind.array.title issues)

/-- An entry of a dictionary, as its key and value. -/
def entryOf (name : Text) (value : Except Failure Node) : Except Failure (List Node) := do
  let key ← ofKeyText name
  return [key, ← value]

/-- The node of a value without parts. -/
def ofScalar : Value → Except Failure Node
  | .boolean b => .ok (.leaf (.boolean b))
  | .integer n => ofInteger n
  | .real x => .ok (.leaf (.real x))
  | .string s => ofText s
  | .bytes b => .ok (.leaf (.data b))
  | .byteArray b => .ok (.leaf (.data b))
  | .moment m => ofMoment m
  | .day d => ofMoment ⟨d, .midnight, some 0⟩
  | value => .error (.unrepresentable value.typeName)

/-- The children of a dictionary with some entries. Every key has to be a text. -/
def ofEntries (convert : Value → Except Failure Node) :
    List (Value × Value) → Except Failure (List Node)
  | [] => .ok []
  | (key, value) :: rest => do
    match key with
    | .string name =>
      let entry ← entryOf name (convert value)
      return entry ++ (← ofEntries convert rest)
    | key => .error (.keyType key.typeName)

mutual

/-- The node of a value, if there is room for so many calls. -/
def ofValue (host : Host) : Nat → Value → Except Failure Node
  | 0, _ => .error (.callLimit host.excess)
  | room + 1, value =>
    if room < host.calls value then .error (.callLimit host.excess)
    else
      match value with
      | .node n => .ok n
      | .record type fields => do ofMapping host room (← host.dump type fields)
      | .enumeration _ v => ofValue host room v
      | .dict entries => ofMapping host room entries
      | .list items => do arrayOf (← ofItems host room items)
      | .tuple items => do arrayOf (← ofItems host room items)
      | value => ofScalar value

/-- The dictionary of some entries. -/
def ofMapping (host : Host) : Nat → List (Value × Value) → Except Failure Node
  | 0, _ => .error (.callLimit host.excess)
  | room + 1, entries => (ofEntries (ofValue host room) entries).map .dict

/-- The nodes of some items, in order. -/
def ofItems (host : Host) : Nat → List Value → Except Failure (List Node)
  | 0, _ => .error (.callLimit host.excess)
  | room + 1, items => items.mapM (ofValue host room)

end

end Node

end PropertyList
