import PropertyList.Config
import PropertyList.Leaf.Codec
import PropertyList.Markup.Parse

/-!
Reading documents. `nodesOf` gives the nodes of a content by recursion; `walk` finds the same nodes
with a stack of the containers that are still open, so that the depth of a document does not matter.
-/
namespace PropertyList

/-- The container that a tag stands for. -/
def containerOfTag? (tag : Text) : Option ContainerKind :=
  match kindOfTag? tag with
  | some .array => some .array
  | some .dict => some .dict
  | _ => none

/-- Reads an element that is no container. An unknown one is left out. -/
def readElement (strict : Bool) (tag content : Text) : Run (Option Node) :=
  if (kindOfTag? tag).isSome then do
    return (← Leaf.decode strict tag content).map Node.leaf
  else if strict then Run.fault (.unknownElement tag)
  else Run.noting (.skippedElement tag) none

namespace Markup

mutual

/-- The nodes that an item gives, one at most. -/
def Item.nodes (strict : Bool) : Item → Run (List Node)
  | .text _ => pure []
  | .element tag _ content =>
    match containerOfTag? tag with
    | some kind => do return [.container kind (← nodesOf strict content)]
    | none => do return (← readElement strict tag (innerTextOf content)).toList

/-- The nodes of a content, in order. Text between elements does not count. -/
def nodesOf (strict : Bool) : List Item → Run (List Node)
  | [] => pure []
  | item :: rest => do return (← item.nodes strict) ++ (← nodesOf strict rest)

end

mutual

/-- The number of items, the item itself included. -/
def Item.count : Item → Nat
  | .text _ => 1
  | .element _ _ content => countOf content + 2

def countOf : List Item → Nat
  | [] => 0
  | item :: rest => item.count + countOf rest

end

end Markup

open Markup

/-- A container that is still open: its nodes so far, the last one in front, which stand in front of
it in its parent, and what follows it there. -/
structure OpenContainer where
  kind : ContainerKind
  before : List Node
  rest : List Item

def OpenContainer.steps (c : OpenContainer) : Nat := countOf c.rest + 1

/-- Reads items behind the nodes `read`, the last of which comes first, inside the containers that
are open. -/
def walk (strict : Bool) (items : List Item) (read : List Node) (stack : List OpenContainer) :
    Run (List Node) :=
  match items, stack with
  | [], [] => pure read.reverse
  | [], c :: stack => walk strict c.rest (.container c.kind read.reverse :: c.before) stack
  | .text _ :: rest, stack => walk strict rest read stack
  | .element tag _ content :: rest, stack =>
    match containerOfTag? tag with
    | some kind => walk strict content [] (⟨kind, read, rest⟩ :: stack)
    | none => do
      let node ← readElement strict tag (innerTextOf content)
      walk strict rest (node.toList ++ read) stack
termination_by countOf items + stackSteps OpenContainer.steps stack
decreasing_by
  all_goals simp [countOf, Item.count, stackSteps, OpenContainer.steps]
  all_goals omega

/-- Goes through the top-level nodes behind the root. A strict reader admits none. A container takes
them in: those that it took stand in `taken`, the last one in front. A leaf does not. -/
def gatherBehind (strict : Bool) (tag : Text) (root : Node) (taken : List Node) :
    List Node → Run Node
  | [] => pure (root.appendAll taken.reverse)
  | node :: rest =>
    if strict then Run.fault (.secondValue tag)
    else if root.isContainer then gatherBehind strict tag root (node :: taken) rest
    else do
      Run.noting (.discardedValue ((node.kind?.map Kind.name).getD [])) ()
      gatherBehind strict tag root taken rest

/-- Puts top-level nodes together. The first is the root. -/
def gather (strict : Bool) (tag : Text) (nodes : List Node) : Run (Option Node) :=
  match nodes with
  | [] => pure none
  | root :: others => do return some (← gatherBehind strict tag root [] others)

/-- The name of the document element. -/
def documentTag : Text := text "plist"

/-- The tree in a parsed document, if it holds any. -/
def Markup.Document.tree (strict : Bool) (document : Markup.Document) : Run (Option Node) :=
  if strict && document.name != documentTag then Run.fault (.otherDocument document.name)
  else do gather strict document.name (← walk strict document.content [] [])

/-- Reads the tree in a document. A lenient reader finds nothing in a document that it cannot parse;
an encoding that cannot be used is a failure for every reader. -/
def readTree (config : Config) (input : Bytes) : Run (Option Node) :=
  match Markup.Document.ofBytes input with
  | .ok document => document.tree config.strict
  | .error refusal =>
    match refusal with
    | .malformed | .entityDeclared .. =>
      if config.strict then Run.fail (.unparsable refusal input)
      else Run.noting (.unparsable refusal) none
    | _ => Run.fail (.encoding refusal)

/-- The input with at most `length` bytes, if a length is given. -/
def cutInput (input : Bytes) (length : Option Int) : Except Failure Bytes :=
  match length with
  | none => .ok input
  | some n => if n < 0 then .error (.negativeLength n) else .ok (input.take n.toNat)

end PropertyList
