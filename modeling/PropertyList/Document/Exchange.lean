import PropertyList.Document.Reader
import PropertyList.Document.Writer
import PropertyList.Node.OfValue
import PropertyList.Value.OfNode
import PropertyList.Value.Schema

/-!
Documents exchanged for trees and plain values. What is given may be of another type than the one
that is wanted; the order in which this is found out is fixed here.
-/
namespace PropertyList

/-- A document: bytes, or a text that is encoded first. -/
inductive Input where
  | ofBytes (bytes : Bytes)
  | ofText (s : Text)

def Input.bytes : Input → Except Failure Bytes
  | .ofBytes bytes => .ok bytes
  | .ofText s =>
    match s.utf8? with
    | .ok bytes => .ok bytes
    | .error run => .error (.unencodable run)

/-- The document of a tree. No tree has no document, whatever the configuration is. -/
def toDocument (tree : Option (Given Node)) (config : Given Config) : Except Failure Text :=
  match tree with
  | none => .ok []
  | some tree => do
    let tree ← tree.get .node
    write (← config.get .config) tree

/-- The bytes of the document of a tree, and their number. -/
def documentBytes (tree : Option (Given Node)) (config : Given Config) :
    Except Failure (Bytes × Nat) := do
  let document ← toDocument tree config
  let bytes ← (Input.ofText document).bytes
  return (bytes, bytes.length)

/-- The tree in the first `length` bytes of a document, or in all of it. -/
def fromDocument (input : Given Input) (length : Option Int) (config : Given Config) :
    Run (Option Node) := do
  let bytes ← Run.ofExcept (do (← input.get .document).bytes)
  let config ← Run.ofExcept (config.get .config)
  readTree config (← Run.ofExcept (cutInput bytes length))

/-- The bytes of the document of a value, if there is room for the calls that its tree takes; the call
for the document itself is not counted. -/
def documentOfValue (host : Host) (room : Nat) (value : Value) (config : Given Config) :
    Except Failure Bytes := do
  let tree ← Node.ofValue host room value
  let (bytes, _) ← documentBytes (some (.wanted tree)) config
  return bytes

/-- The value of what is given for a node. -/
def valueOfNode : Given Node → Run Value
  | .wanted node => Value.ofNode node
  | .other className => Run.fail (.noNode className)

/-- The value in a document; null if it holds no tree. -/
def valueOfDocument (input : Given Input) (config : Given Config) : Run Value := do
  match ← fromDocument input none config with
  | none => return .null
  | some node => Value.ofNode node

/-- The record that a tree holds, after a schema. -/
def recordOfNode (node : Given Node) (schema : Schema) : Run Value :=
  match node with
  | .wanted node => schema.ofNode node
  | .other className => Run.fail (.noNode className)

/-- The tag and the text of what is given for a leaf. -/
def leafElement (node : Given Node) (depth columns : Int) :
    Except Failure (Text × Option Text) := do
  encodeLeaf (← node.get .leaf) depth columns

end PropertyList
