import PropertyList.Value.Display
import PropertyList.Value.Scalar

/-!
Nodes made from plain values, and fields assigned to them. Every field is looked at before the
issues are reported, in the order of the fields. Objects of other types that could be converted, such
as sets and generators, are left out.
-/
namespace PropertyList

/-- A result with the issues moved one step further in. -/
def issuesInside {α : Type} (step : Place) (result : Except (List Issue) α) :
    Except (List Issue) α :=
  result.mapError fun issues => issues.map (Issue.inside step)

/-- Both results, or the issues of both. -/
def both {α β : Type} (a : Except (List Issue) α) (b : Except (List Issue) β) :
    Except (List Issue) (α × β) :=
  match a, b with
  | .ok a, .ok b => .ok (a, b)
  | .ok _, .error issues => .error issues
  | .error issues, .ok _ => .error issues
  | .error first, .error second => .error (first ++ second)

theorem issuesInside_eq_ok {α : Type} {step : Place} {result : Except (List Issue) α} {a : α} :
    issuesInside step result = .ok a ↔ result = .ok a := by
  cases result with
  | error issues => exact iff_of_false nofun nofun
  | ok b => exact Iff.rfl

theorem both_eq_ok {α β : Type} {first : Except (List Issue) α} {second : Except (List Issue) β}
    {parts : α × β} :
    both first second = .ok parts ↔ first = .ok parts.1 ∧ second = .ok parts.2 := by
  obtain ⟨a, b⟩ := parts
  cases first <;> cases second <;> simp [both]

/-- A scalar of a field, or its problem as an issue. -/
def fieldOf {α : Type} (name : String) (result : Except Problem α) : Except (List Issue) α :=
  result.mapError fun problem => [Issue.ofField name problem]

namespace Leaf

/-- A leaf of a kind with one field, made from the value of this field. -/
def ofValue (kind : Kind) (value : Value) : Except (List Issue) Leaf :=
  match kind with
  | .boolean => (fieldOf "value" value.asBoolean).map .boolean
  | .integer => do ofInteger (← fieldOf "value" value.asInteger)
  | .real => (fieldOf "value" value.asReal).map .real
  | .string => do ofString (← fieldOf "value" value.asText)
  | .key => do ofKey (← fieldOf "value" value.asText)
  | .data => (fieldOf "value" value.asBytes).map .data
  | _ => .error [Issue.ofField "value" (.unknownField (text "value"))]

/-- The payload that a leaf has unless a value is given. -/
def initial : Kind → Leaf
  | .boolean => .boolean false
  | .integer => .integer 0
  | .real => .real .zero
  | .string => .string []
  | .key => .key []
  | .data => .data []
  | _ => .date .epoch

/-- The seconds of a date. -/
def secondsOf (value : Value) : Except (List Issue) Int := do
  let n ← fieldOf "seconds" value.asInteger
  match rangeProblem? minSeconds maxSeconds n with
  | some problem => .error [Issue.ofField "seconds" problem]
  | none => .ok n

/-- The microseconds of a date. -/
def microsecondsOf (value : Value) : Except (List Issue) Nat := do
  let n ← fieldOf "microseconds" value.asInteger
  match rangeProblem? 0 maxMicroseconds n with
  | some problem => .error [Issue.ofField "microseconds" problem]
  | none => .ok n.toNat

/-- A leaf made from the entries of a dictionary; others than its fields do not count. -/
def ofEntries (kind : Kind) (entries : List (Value × Value)) : Except (List Issue) Leaf :=
  if kind = .date then
    let seconds := ((Value.entry? (text "seconds") entries).map secondsOf).getD (.ok 0)
    let microseconds :=
      ((Value.entry? (text "microseconds") entries).map microsecondsOf).getD (.ok 0)
    (both seconds microseconds).map fun parts => .date ⟨parts.1, parts.2⟩
  else
    ((Value.entry? (text "value") entries).map (ofValue kind)).getD (.ok (initial kind))

end Leaf

/-- The container that a kind is, if it is one. -/
def Kind.container? : Kind → Option ContainerKind
  | .array => some .array
  | .dict => some .dict
  | _ => none

/-- What is wrong with a value that is no dictionary and no node, where a node is wanted. -/
def untaggedProblem : Value → Problem
  | .moment _ => .noTag
  | .day _ => .noTag
  | .enumeration _ _ => .noTag
  | .record _ _ => .noTag
  | .foreign typeName =>
    if Value.calendarTypes.any fun type => text type == typeName then .noTag else .noAttributes
  | _ => .noAttributes

namespace Node

/-- Whether every entry has a text as its name. -/
def areNamed (entries : List (Value × Value)) : Bool :=
  entries.all fun entry =>
    match entry.1 with
    | .string _ => true
    | _ => false

/-- A tag as messages show it: each byte of a surrogate becomes a replacement character. -/
def tagShown (tag : Value) : Text :=
  tag.display.flatMap fun c => if isSurrogate c then List.replicate 3 0xFFFD else [c]

/-- The kind that the tag of a dictionary names. -/
def kindOfEntries (entries : List (Value × Value)) : Except Problem Kind :=
  match Value.entry? (text "type") entries with
  | none => .error .noTag
  | some tag =>
    let known := match tag with
      | .string name => Kind.ofName? name
      | _ => none
    match known with
    | some kind => .ok kind
    | none => .error (.unknownTag (tagShown tag) (Kind.all.map Kind.name))

mutual

/-- A child made from a value: a node as it is, or a dictionary with a tag. Only a date passes over
entries whose names are no texts. -/
def childOf : Value → Except (List Issue) Node
  | .node n => if n.kind?.isSome then .ok n else .error [⟨[], .noTag⟩]
  | .dict entries =>
    match kindOfEntries entries with
    | .error problem => .error [⟨[], problem⟩]
    | .ok kind =>
      if kind != .date && !areNamed entries then .error [⟨[], .unnamedEntry⟩]
      else
        issuesInside (.field kind.name)
          (match kind.container? with
          | some holder => (childrenField entries).map (Node.container holder)
          | none => (Leaf.ofEntries kind entries).map Node.leaf)
  | value => .error [⟨[], untaggedProblem value⟩]

/-- The children that entries give; none by default. -/
def childrenField : List (Value × Value) → Except (List Issue) (List Node)
  | [] => .ok []
  | (key, value) :: rest =>
    match key with
    | .string name =>
      if name = text "children" then issuesInside (.field (text "children")) (childListOf value)
      else childrenField rest
    | _ => childrenField rest

/-- The children in a list. -/
def childListOf : Value → Except (List Issue) (List Node)
  | .list items => childrenFrom 0 items
  | .tuple items => childrenFrom 0 items
  | _ => .error [⟨[], .noList⟩]

/-- The children in a list, counted from `i`. -/
def childrenFrom (i : Nat) : List Value → Except (List Issue) (List Node)
  | [] => .ok []
  | value :: rest =>
    (both (issuesInside (.index i) (childOf value)) (childrenFrom (i + 1) rest)).map
      fun parts => parts.1 :: parts.2

end

/-- The issue of a tag that is given and is not the one wanted. -/
def checkTag (kind : Kind) (value : Value) : Except (List Issue) Unit :=
  match value with
  | .string name =>
    if name = kind.name then .ok ()
    else .error [Issue.ofField "type" (.otherConstant kind.name)]
  | _ => .error [Issue.ofField "type" (.otherConstant kind.name)]

/-- A container made from a value. -/
def containerOf (kind : ContainerKind) (value : Value) : Except (List Issue) Node :=
  let wrong : Except (List Issue) Node := .error [⟨[], .noRecord kind.kind.title⟩]
  match value with
  | .dict entries =>
    if !areNamed entries then .error [⟨[], .unnamedEntry⟩]
    else
      let tag := ((Value.entry? (text "type") entries).map (checkTag kind.kind)).getD (.ok ())
      (both tag (childrenField entries)).map fun parts => .container kind parts.2
  | .node n => if n.kind? = some kind.kind then .ok n else wrong
  | _ => wrong

/-- A node of a kind made from its fields. -/
def ofFields (kind : Kind) (entries : List (Value × Value)) : Except (List Issue) Node :=
  match kind.container? with
  | some holder => containerOf holder (.dict entries)
  | none =>
    let tag := ((Value.entry? (text "type") entries).map (checkTag kind)).getD (.ok ())
    (both tag (Leaf.ofEntries kind entries)).map fun parts => .leaf parts.2

/-- The node with a value assigned to one of its fields. -/
def assign (node : Node) (field : Text) (value : Value) : Except (List Issue) Node :=
  let unknown : Except (List Issue) Node := .error [⟨[.field field], .unknownField field⟩]
  match node.kind? with
  | none => unknown
  | some kind =>
    if field = text "type" then (checkTag kind value).map fun _ => node
    else
      match node with
      | .leaf (.date t) =>
        if field = text "seconds" then
          (Leaf.secondsOf value).map fun seconds => .leaf (.date { t with seconds })
        else if field = text "microseconds" then
          (Leaf.microsecondsOf value).map fun microseconds => .leaf (.date { t with microseconds })
        else unknown
      | .leaf _ =>
        if field = text "value" then (Leaf.ofValue kind value).map .leaf else unknown
      | .container holder _ =>
        if field = text "children" then
          (issuesInside (.field field) (childListOf value)).map (.container holder)
        else unknown
      | .bare => unknown

end Node

end PropertyList
