import PropertyList.Markup.Namespaces
import PropertyList.Markup.PrologToken
import PropertyList.Markup.Refusal

/-!
The document type. Its declarations are checked in order, and the first declaration of an entity
refuses the document; what stands behind it is not looked at. A reference to a parameter entity
hides what it stands for, so that later declarations count for nothing unless the document stands
alone.
-/
namespace PropertyList.Markup

/-- A character of a public identifier. -/
def isPublicIdChar (c : CodePoint) : Bool :=
  isLetter c || isDigit c || (text "-'()+,./:=?;!*%#$@_ \r\n").contains c

def isPublicId (s : Text) : Bool := s.all isPublicIdChar

/-- The declaration of an entity: a text, or identifiers of something outside the document. -/
structure EntityDeclaration where
  isParameter : Bool
  name : Text
  value : Option Text
  systemId : Option Text
  publicId : Option Text
  isUnparsed : Bool
  deriving DecidableEq, Repr

namespace EntityDeclaration

/-- The tokens behind the name. -/
def ofBody? (isParameter : Bool) (name : Text) :
    List PrologToken → Option EntityDeclaration
  | [.literal value] => some ⟨isParameter, name, some value, none, none, false⟩
  | .name .plain keyword :: .literal first :: rest =>
    if keyword = text "SYSTEM" then
      match rest with
      | [] => some ⟨isParameter, name, none, some first, none, false⟩
      | [.name .plain data, .name .plain _] =>
        if data = text "NDATA" && !isParameter then
          some ⟨isParameter, name, none, some first, none, true⟩
        else none
      | _ => none
    else if keyword = text "PUBLIC" && isPublicId first then
      match rest with
      | [.literal second] => some ⟨isParameter, name, none, some second, some first, false⟩
      | [.literal second, .name .plain data, .name .plain _] =>
        if data = text "NDATA" && !isParameter then
          some ⟨isParameter, name, none, some second, some first, true⟩
        else none
      | _ => none
    else none
  | _ => none

def ofTokens? : List PrologToken → Option EntityDeclaration
  | .percent :: .name .plain name :: rest => ofBody? true name rest
  | .name .plain name :: rest => ofBody? false name rest
  | _ => none

/-- Whether the declaration counts before it is closed. -/
def countsOpen (declaration : EntityDeclaration) : Bool :=
  declaration.value.isSome || declaration.isUnparsed

/-- Whether references in the text of an entity are in order: every ampersand opens one. -/
def holdsReferences (latin : Bool) : Option Text → Text → Bool
  | pending, [] => pending.isNone
  | none, c :: rest =>
    if c = ch '&' then holdsReferences latin (some []) rest else holdsReferences latin none rest
  | some pending, c :: rest =>
    if c = ch ';' then
      (Reference.read? latin pending.reverse).isSome && holdsReferences latin none rest
    else holdsReferences latin (some (c :: pending)) rest

/-- What is wrong with a document that holds the declaration. Only a predefined name may be declared
once more. -/
def refusal? (latin : Bool) (declaration : EntityDeclaration) : Option Refusal :=
  if !declaration.isParameter && (predefined.lookup declaration.name).isSome then
    match declaration.value with
    | some value =>
      if value.contains (ch '%') || !holdsReferences latin none value then some .malformed else none
    | none => none
  else
    let publicId := declaration.publicId.map fun id =>
      singleSpaces (id.map fun c => if isSpace c then 0x20 else c)
    some (.entityDeclared declaration.name declaration.systemId publicId)

end EntityDeclaration

/-- Whether tokens are what may follow the name in the declaration of a notation. -/
def isNotationBody : List PrologToken → Bool
  | [.name .plain keyword, .literal first] =>
    keyword = text "SYSTEM" || (keyword = text "PUBLIC" && isPublicId first)
  | [.name .plain keyword, .literal first, .literal _] =>
    keyword = text "PUBLIC" && isPublicId first
  | _ => false

/-- Whether tokens close mixed content, behind the first name or `#PCDATA`; with names a star has to
follow. -/
def isMixedRest (named : Bool) : List PrologToken → Bool
  | [.closeParen none] => !named
  | [.closeParen (some repetition)] => repetition = ch '*'
  | .bar :: .name kind _ :: rest => kind != .token && isMixedRest true rest
  | _ => false

/-- Whether tokens make up the rest of a group of children. For each open group, the innermost in
front, its connector is kept once it is known. -/
def isGroupRest : List (Option PrologToken) → Bool → List PrologToken → Bool
  | [], _, rest => rest.isEmpty
  | _ :: _, _, [] => false
  | groups, true, .openParen :: rest => isGroupRest (none :: groups) true rest
  | groups, true, .name kind _ :: rest => kind != .token && isGroupRest groups false rest
  | groups, true, .repeatedName _ :: rest => isGroupRest groups false rest
  | _ :: groups, false, .closeParen _ :: rest => isGroupRest groups false rest
  | connector :: groups, false, token :: rest =>
    (token == .comma || token == .bar) && (connector == none || connector == some token) &&
      isGroupRest (some token :: groups) true rest
  | _, _, _ => false

/-- Whether tokens are the content model of an element. -/
def isContentModel : List PrologToken → Bool
  | [.name .plain keyword] => keyword = text "EMPTY" || keyword = text "ANY"
  | .openParen :: .poundName keyword :: rest => keyword = text "PCDATA" && isMixedRest false rest
  | .openParen :: rest => isGroupRest [none] true rest
  | _ => false

/-- The types of attributes that are named by a keyword alone. -/
def attributeTypes : List String :=
  ["CDATA", "ID", "IDREF", "IDREFS", "ENTITY", "ENTITIES", "NMTOKEN", "NMTOKENS"]

/-- Where a reader of an attribute list stands. -/
inductive AttributeListState where
  | name
  | type (name : Text)
  | notations (name : Text)
  | choice (name : Text) (isNotation isComplete : Bool)
  | default (name : Text) (keepsSpaces : Bool)
  | fixed (name : Text) (keepsSpaces : Bool)

/-- Reads the rules in an attribute list; their values are still unread, and the last rule comes
first. -/
def readRules (element : Text) :
    AttributeListState → List AttributeRule → List PrologToken → Option (List AttributeRule)
  | .name, rules, [] => some rules
  | .name, rules, .name kind name :: rest =>
    if kind = .token then none else readRules element (.type name) rules rest
  | .type name, rules, .name .plain keyword :: rest =>
    if keyword = text "NOTATION" then readRules element (.notations name) rules rest
    else if attributeTypes.any fun type => text type == keyword then
      readRules element (.default name (keyword == text "CDATA")) rules rest
    else none
  | .type name, rules, .openParen :: rest => readRules element (.choice name false false) rules rest
  | .notations name, rules, .openParen :: rest =>
    readRules element (.choice name true false) rules rest
  | .choice name isNotation false, rules, .name kind _ :: rest =>
    if isNotation && kind ≠ .plain then none
    else readRules element (.choice name isNotation true) rules rest
  | .choice name isNotation true, rules, .bar :: rest =>
    readRules element (.choice name isNotation false) rules rest
  | .choice name _ true, rules, .closeParen none :: rest =>
    readRules element (.default name false) rules rest
  | .default name keepsSpaces, rules, .poundName keyword :: rest =>
    if keyword = text "FIXED" then readRules element (.fixed name keepsSpaces) rules rest
    else if keyword = text "IMPLIED" || keyword = text "REQUIRED" then
      readRules element .name (⟨element, name, keepsSpaces, none⟩ :: rules) rest
    else none
  | .default name keepsSpaces, rules, .literal value :: rest =>
    readRules element .name (⟨element, name, keepsSpaces, some value⟩ :: rules) rest
  | .fixed name keepsSpaces, rules, .literal value :: rest =>
    readRules element .name (⟨element, name, keepsSpaces, some value⟩ :: rules) rest
  | _, _, _ => none

/-- Reads the default value that a rule gives. -/
def AttributeRule.readValue? (latin skipsEntities : Bool) (rule : AttributeRule) :
    Option AttributeRule :=
  match rule.value with
  | none => some rule
  | some raw =>
    ((attributeRule skipsEntities).read latin raw).map fun value =>
      { rule with value := some (if rule.keepsSpaces then value else singleSpaces value) }

/-- What the declarations so far have told: the attribute rules, whether declarations may stand
elsewhere, and whether further declarations still count. -/
structure Declared where
  rules : List AttributeRule
  elsewhere : Bool
  counts : Bool

/-- The document around a document type. -/
structure DocumentContext where
  latin : Bool
  standalone : Bool

namespace Declared

/-- Whether a reference to an entity without a declaration is passed over. -/
def skipsEntities (declared : Declared) (context : DocumentContext) : Bool :=
  declared.elsewhere && !context.standalone

/-- Adds a rule unless the attribute has one. -/
def addRule (declared : Declared) (rule : AttributeRule) : Declared :=
  if declared.rules.any fun known => known.element == rule.element && known.name == rule.name then
    declared
  else { declared with rules := declared.rules ++ [rule] }

/-- Takes in a reference to a parameter entity. -/
def refer (declared : Declared) (context : DocumentContext) : Declared :=
  { declared with elsewhere := true, counts := context.standalone }

/-- Takes in the tokens of an entity declaration, closed or still open. -/
def entity (context : DocumentContext) (declared : Declared) (closed : Bool)
    (tokens : List PrologToken) : Except Refusal Unit :=
  match EntityDeclaration.ofTokens? tokens with
  | none => if closed then .error .malformed else .ok ()
  | some declaration =>
    if declared.counts && (closed || declaration.countsOpen) then
      match declaration.refusal? context.latin with
      | some refusal => .error refusal
      | none => .ok ()
    else .ok ()

/-- Takes in an attribute list. -/
def attributeList (context : DocumentContext) (declared : Declared) (tokens : List PrologToken) :
    Except Refusal Declared :=
  match tokens with
  | .name kind element :: rest =>
    if kind = .token then .error .malformed
    else
      match readRules element .name [] rest with
      | none => .error .malformed
      | some rules =>
        if !declared.counts then .ok declared
        else
          match rules.reverse.mapM
              (AttributeRule.readValue? context.latin (declared.skipsEntities context)) with
          | none => .error .malformed
          | some rules => .ok (rules.foldl addRule declared)
  | _ => .error .malformed

/-- Takes in a closed declaration. -/
def declare (context : DocumentContext) (declared : Declared) (keyword : Text)
    (tokens : List PrologToken) : Except Refusal Declared :=
  if keyword = text "ENTITY" then (entity context declared true tokens).map fun _ => declared
  else if keyword = text "ATTLIST" then attributeList context declared tokens
  else
    let isSound : Bool :=
      match tokens with
      | .name kind _ :: rest =>
        (keyword = text "ELEMENT" && kind != .token && isContentModel rest) ||
          (keyword = text "NOTATION" && kind == .plain && isNotationBody rest)
      | _ => false
    if isSound then .ok declared else .error .malformed

/-- The most tokens between the keyword and the end of an entity declaration. -/
def maxEntityTokens : Nat := 6

/-- Reads the declarations up to the closing bracket. A declaration that is open has its keyword and
its tokens so far, the last one in front. The second result is what follows the bracket. -/
def read (context : DocumentContext) :
    Declared → Option (Text × List PrologToken) → List PrologToken →
      Except Refusal (Declared × List PrologToken)
  | _, _, [] => .error .malformed
  | declared, none, token :: rest =>
    match token with
    | .misc => read context declared none rest
    | .reference => read context (declared.refer context) none rest
    | .keyword keyword => read context declared (some (keyword, [])) rest
    | .closeBracket => .ok (declared, rest)
    | _ => .error .malformed
  | declared, some (keyword, tokens), token :: rest =>
    if token = .close then
      match declare context declared keyword tokens.reverse with
      | .error refusal => .error refusal
      | .ok declared => read context declared none rest
    else if keyword = text "ENTITY" then
      if maxEntityTokens ≤ tokens.length then .error .malformed
      else
        match entity context declared false (token :: tokens).reverse with
        | .error refusal => .error refusal
        | .ok _ => read context declared (some (keyword, token :: tokens)) rest
    else read context declared (some (keyword, token :: tokens)) rest

end Declared

namespace AttributePolicy

/-- Reads the document type behind its name and external identifier. -/
def ofSubset (context : DocumentContext) (external : Bool) (tokens : List PrologToken) :
    Except Refusal AttributePolicy :=
  let isEnd (rest : List PrologToken) : Bool := rest.all (· == .misc)
  match tokens with
  | .close :: rest =>
    if isEnd rest then .ok ⟨[], external && !context.standalone⟩ else .error .malformed
  | .openBracket :: rest => do
    let (declared, rest) ← Declared.read context ⟨[], external, true⟩ none rest
    match rest with
    | .close :: rest =>
      if isEnd rest then .ok ⟨declared.rules, declared.skipsEntities context⟩ else .error .malformed
    | _ => .error .malformed
  | _ => .error .malformed

/-- Reads the document type behind its keyword. -/
def ofDocumentType (context : DocumentContext) (tokens : List PrologToken) :
    Except Refusal AttributePolicy :=
  match tokens with
  | .name kind _ :: rest =>
    if kind = .token then .error .malformed
    else
      match rest with
      | .name .plain keyword :: .literal first :: rest =>
        if keyword = text "SYSTEM" then ofSubset context true rest
        else if keyword = text "PUBLIC" && isPublicId first then
          match rest with
          | .literal _ :: rest => ofSubset context true rest
          | _ => .error .malformed
        else .error .malformed
      | rest => ofSubset context false rest
  | _ => .error .malformed

/-- Reads what stands in front of the document element. -/
def ofProlog (context : DocumentContext) (tokens : List PrologToken) :
    Except Refusal AttributePolicy :=
  match tokens.dropWhile (· == .misc) with
  | [] => .ok ⟨[], false⟩
  | .keyword keyword :: rest =>
    if keyword = text "DOCTYPE" then ofDocumentType context rest else .error .malformed
  | _ => .error .malformed

end AttributePolicy

end PropertyList.Markup
