import PropertyList.Leaf.Codec

/-!
Layouts of documents: every element stands on a line of its own, indented by its depth. `layout`
gives the lines of a node by recursion.
-/
namespace PropertyList

/-- A reference for each character that is not written as it is. -/
def escapeChar (c : CodePoint) : Text :=
  if c = ch '&' then text "&amp;"
  else if c = ch '>' then text "&gt;"
  else if c = ch '<' then text "&lt;"
  else if c = ch '\'' then text "&apos;"
  else if c = ch '"' then text "&quot;"
  else if c = ch '\r' then text "&#13;"
  else [c]

def Text.escaped (s : Text) : Text := s.flatMap escapeChar

def tabs (depth : Nat) : Text := List.replicate depth (ch '\t')

def openTag (tag : Text) : Text := ch '<' :: tag ++ [ch '>']

def closeTag (tag : Text) : Text := ch '<' :: ch '/' :: tag ++ [ch '>']

def emptyTag (tag : Text) : Text := ch '<' :: tag ++ [ch '/', ch '>']

def ContainerKind.tag : ContainerKind → Text
  | .array => text "array"
  | .dict => text "dict"

/-- The element of a leaf. Only a truth value has no text; an empty text still has both tags. -/
def Leaf.element (depth columns : Nat) (leaf : Leaf) : Text :=
  match leaf.content? depth columns with
  | none => emptyTag leaf.tag
  | some content => openTag leaf.tag ++ content.escaped ++ closeTag leaf.tag

namespace Node

mutual

/-- The lines of a node at some depth. A bare node has none. -/
def layout (columns depth : Nat) : Node → Text
  | .leaf l => tabs depth ++ l.element depth columns ++ text "\n"
  | .container kind children =>
    tabs depth ++ openTag kind.tag ++ text "\n" ++ layoutAll columns (depth + 1) children ++
      tabs depth ++ closeTag kind.tag ++ text "\n"
  | .bare => []

def layoutAll (columns depth : Nat) : List Node → Text
  | [] => []
  | node :: rest => node.layout columns depth ++ layoutAll columns depth rest

end

mutual

/-- Whether a node is a leaf or a container, and every node in it too. -/
def isWritable : Node → Bool
  | .leaf _ => true
  | .container _ children => areWritable children
  | .bare => false

def areWritable : List Node → Bool
  | [] => true
  | node :: rest => node.isWritable && areWritable rest

end

end Node

/-- The lines in front of the root. -/
def documentHead : Text :=
  text "<?xml version=\"1.0\" encoding=\"UTF-8\"?>\n" ++
    text "<!DOCTYPE plist PUBLIC \"-//Apple Computer//DTD PLIST 1.0//EN\" " ++
    text "\"http://www.apple.com/DTDs/PropertyList-1.0.dtd\">\n" ++
    text "<plist version=\"1.0\">\n"

/-- The line behind the root. -/
def documentFoot : Text := text "</plist>\n"

end PropertyList
