import PropertyList.Markup.Tag

/-!
Namespaces. An attribute whose name is `xmlns`, or has this prefix, binds a prefix to a URI for its
element and all inside it; the empty prefix stands for names without one. An expanded name has its
URI in braces in front.
-/
namespace PropertyList.Markup

/-- An attribute whose value has been read. -/
structure Attribute where
  name : Text
  value : Text
  deriving DecidableEq, Repr

/-- An attribute that a document type declares for an element. It tells whether values
keep all their spaces, and gives the value that the attribute takes where it is missing. -/
structure AttributeRule where
  element : Text
  name : Text
  keepsSpaces : Bool
  value : Option Text
  deriving DecidableEq, Repr

/-- The URIs bound to prefixes, the innermost binding first. -/
abbrev Scope := List (Text × Text)

def xmlUri : Text := text "http://www.w3.org/XML/1998/namespace"

def xmlnsUri : Text := text "http://www.w3.org/2000/xmlns/"

namespace Scope

/-- The prefix `xml` is bound from the start. -/
def initial : Scope := [(text "xml", xmlUri)]

/-- The scope with one more binding. Only the empty prefix may lose its URI, and the prefixes `xml`
and `xmlns` and their URIs keep to each other. -/
def bind? (scope : Scope) (name uri : Text) : Option Scope :=
  if uri.isEmpty && !name.isEmpty then none
  else if name = text "xmlns" || uri = xmlnsUri || uri.contains (ch '}') then none
  else if (name == text "xml") != (uri == xmlUri) then none
  else some ((name, uri) :: scope)

/-- The URI of a prefix. -/
def uri? (scope : Scope) (name : Text) : Option Text :=
  match scope.lookup name with
  | some [] => none
  | found => found

end Scope

/-- A name cut at its colon; without one the prefix is empty. -/
def splitName (name : Text) : Text × Text :=
  match name.dropWhile fun c => c != ch ':' with
  | [] => ([], name)
  | _ :: localName => (name.takeWhile fun c => c != ch ':', localName)

def expandedName (uri localName : Text) : Text := ch '{' :: uri ++ ch '}' :: localName

/-- The prefix that an attribute binds, if it binds one. -/
def boundPrefix? (name : Text) : Option Text :=
  if name = text "xmlns" then some []
  else if (splitName name).1 = text "xmlns" then some (splitName name).2
  else none

namespace Scope

/-- The expanded name of an element. -/
def elementName? (scope : Scope) (name : Text) : Option Text :=
  let (front, localName) := splitName name
  match scope.uri? front with
  | some uri => some (expandedName uri localName)
  | none => if front.isEmpty then some name else none

/-- The expanded name of an attribute; without a prefix it has no namespace. -/
def attributeName? (scope : Scope) (name : Text) : Option Text :=
  let (front, localName) := splitName name
  if front.isEmpty then some name
  else (scope.uri? front).map fun uri => expandedName uri localName

/-- Binds the prefixes that attributes bind. -/
def bindAll? (scope : Scope) (attributes : List Attribute) : Option Scope :=
  attributes.foldlM
    (fun scope given =>
      match boundPrefix? given.name with
      | some name => scope.bind? name given.value
      | none => some scope)
    scope

end Scope

/-- Whether a list holds something twice. -/
def hasRepeat (names : List Text) : Bool :=
  match names with
  | [] => false
  | name :: rest => rest.contains name || hasRepeat rest

/-- What a document type says about attributes: its rules, one for an attribute at most,
and whether references to entities without a declaration are passed over. -/
structure AttributePolicy where
  rules : List AttributeRule
  skipsEntities : Bool

namespace AttributePolicy

/-- The rules for the attributes of an element. -/
def rulesOf (policy : AttributePolicy) (element : Text) : List AttributeRule :=
  policy.rules.filter fun rule => rule.element == element

/-- Reads the value of an attribute. -/
def readAttribute? (latin : Bool) (policy : AttributePolicy) (element : Text)
    (raw : RawAttribute) : Option Attribute := do
  let value ← (attributeRule policy.skipsEntities).read latin raw.value
  let keepsSpaces :=
    match (policy.rulesOf element).find? fun rule => rule.name == raw.name with
    | some rule => rule.keepsSpaces
    | none => true
  some ⟨raw.name, if keepsSpaces then value else singleSpaces value⟩

/-- The attributes that an element has by default, besides those named. -/
def defaults (policy : AttributePolicy) (element : Text) (named : List Text) : List Attribute :=
  (policy.rulesOf element).filterMap fun rule =>
    if named.contains rule.name then none
    else rule.value.map fun value => ⟨rule.name, value⟩

end AttributePolicy

/-- A start tag whose names are expanded, with the scope inside it. -/
structure Opening where
  name : Text
  attributes : List Attribute
  scope : Scope

/-- Expands the names of a start tag. No attribute may stand twice, neither as written nor when its
name is expanded. -/
def openElement? (latin : Bool) (policy : AttributePolicy) (scope : Scope) (name : Text)
    (raw : List RawAttribute) : Option Opening := do
  let given ← raw.mapM (policy.readAttribute? latin name)
  if hasRepeat (raw.map RawAttribute.name) then none
  else
    let all := given ++ policy.defaults name (raw.map RawAttribute.name)
    let scope ← scope.bindAll? all
    let plain := all.filter fun given => (boundPrefix? given.name).isNone
    let names ← plain.mapM fun given => scope.attributeName? given.name
    let expanded ← scope.elementName? name
    if hasRepeat names then none
    else some ⟨expanded, names.zipWith (fun name given => ⟨name, given.value⟩) plain, scope⟩

end PropertyList.Markup
