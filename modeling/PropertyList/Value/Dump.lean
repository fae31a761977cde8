import PropertyList.Value.OfNode

/-!
Records unfolded into dictionaries. A record whose fields are declared as what they hold is dumped as
the dictionary of those that have a value, with the records in it dumped likewise. Nodes are records,
too: a node in a record is spelled out as the dictionary of its fields.
-/
namespace PropertyList

/-- The dictionary of the fields of a leaf: its kind, and its value. A date has two numbers. -/
def Leaf.spelledValue (leaf : Leaf) : Value :=
  .dict ((.string (text "type"), .string leaf.kind.name) ::
    match leaf with
    | .date t => [(.string (text "seconds"), .integer t.seconds),
        (.string (text "microseconds"), .integer t.microseconds)]
    | leaf => [(.string (text "value"), leaf.value)])

namespace Node

mutual

/-- The dictionary of the fields of a node. A bare node has none. -/
def spelledValue : Node → Value
  | .leaf l => l.spelledValue
  | .container kind children => .dict [(.string (text "type"), .string kind.kind.name),
      (.string (text "children"), .list (spelledValues children))]
  | .bare => .dict []

def spelledValues : List Node → List Value
  | [] => []
  | node :: rest => node.spelledValue :: spelledValues rest

end

end Node

namespace Value

mutual

/-- A value with each record in it replaced by the dictionary of its fields that have a value, and
each node by what is put for it. The member of an enumeration stays as it is. -/
def unfolded (put : Node → Value) : Value → Value
  | .list items => .list (unfoldedAll put items)
  | .tuple items => .tuple (unfoldedAll put items)
  | .dict entries => .dict (unfoldedEntries put entries)
  | .record _ fields => .dict (unfoldedFields put fields)
  | .node n => put n
  | v => v

def unfoldedAll (put : Node → Value) : List Value → List Value
  | [] => []
  | v :: rest => v.unfolded put :: unfoldedAll put rest

def unfoldedEntries (put : Node → Value) : List (Value × Value) → List (Value × Value)
  | [] => []
  | (key, v) :: rest => (key, v.unfolded put) :: unfoldedEntries put rest

def unfoldedFields (put : Node → Value) : List (Text × Value) → List (Value × Value)
  | [] => []
  | (name, v) :: rest =>
    match v with
    | .null => unfoldedFields put rest
    | v => (.string name, v.unfolded put) :: unfoldedFields put rest

end

/-- The entries that fields declared as what they hold are dumped as. -/
def dumpedFields (fields : List (Text × Value)) : List (Value × Value) :=
  unfoldedFields Node.spelledValue fields

end Value

end PropertyList
