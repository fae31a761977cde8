import PropertyList.Markup.Section

/-!
Tokens of what stands in front of a document element: comments, instructions and the document type
with its declarations. Blanks only separate tokens, and a name, a literal or a closing parenthesis
has to be followed by one of a few characters.
-/
namespace PropertyList.Markup

/-- A plain name has no colon, a qualified one has a prefix; a token is any other run of name
characters and colons. -/
inductive NameKind where
  | plain
  | qualified
  | token
  deriving DecidableEq, Repr

inductive PrologToken where
  | misc
  | keyword (name : Text)
  | close
  | openBracket
  | closeBracket
  | openParen
  | closeParen (repetition : Option CodePoint)
  | comma
  | bar
  | percent
  | reference
  | name (kind : NameKind) (s : Text)
  | repeatedName (s : Text)
  | poundName (s : Text)
  | literal (s : Text)
  deriving DecidableEq, Repr

/-- Where the lexer stands; characters read have the last one in front. -/
inductive LexState where
  | between
  | afterOpening
  | afterBang
  | afterHyphen
  | keyword (read : Text)
  | section (kind : Section) (read : Text)
  | afterPercent
  | reference
  | afterParen
  | name (kind : NameKind) (afterColon : Bool) (read : Text)
  | poundName (read : Text)
  | literal (mark : CodePoint) (read : Text)
  | afterLiteral (content : Text)
  | failed
  deriving DecidableEq, Repr

/-- The tokens found so far, the last one in front, and the state behind them. -/
structure Lexer where
  state : LexState
  tokens : List PrologToken
  deriving DecidableEq, Repr

namespace Lexer

def start : Lexer := ⟨.between, []⟩

def fail (lexer : Lexer) : Lexer := { lexer with state := .failed }

def goTo (lexer : Lexer) (state : LexState) : Lexer := { lexer with state }

/-- Ends a token. -/
def push (lexer : Lexer) (token : PrologToken) : Lexer := ⟨.between, token :: lexer.tokens⟩

/-- Whether a character is one of those written. -/
def isOneOf (s : String) (c : CodePoint) : Bool := (text s).contains c

/-- Takes in a character that starts a token or separates tokens. -/
def stepBetween (latin : Bool) (lexer : Lexer) (c : CodePoint) : Lexer :=
  if isSpace c then lexer.goTo .between
  else if c = ch '<' then lexer.goTo .afterOpening
  else if c = ch '"' || c = ch '\'' then lexer.goTo (.literal c [])
  else if c = ch '%' then lexer.goTo .afterPercent
  else if c = ch ')' then lexer.goTo .afterParen
  else if c = ch '#' then lexer.goTo (.poundName [])
  else if c = ch '>' then lexer.push .close
  else if c = ch '[' then lexer.push .openBracket
  else if c = ch ']' then lexer.push .closeBracket
  else if c = ch '(' then lexer.push .openParen
  else if c = ch ',' then lexer.push .comma
  else if c = ch '|' then lexer.push .bar
  else if isNameStart latin c then lexer.goTo (.name .plain false [c])
  else if isNameChar latin c || c = ch ':' then lexer.goTo (.name .token false [c])
  else lexer.fail

/-- Takes in a character behind a name. -/
def stepName (latin : Bool) (lexer : Lexer) (kind : NameKind) (afterColon : Bool) (read : Text)
    (c : CodePoint) : Lexer :=
  if isNameChar latin c then
    lexer.goTo (.name (if afterColon then .qualified else kind) false (c :: read))
  else
    let kind := if afterColon then .token else kind
    if c = ch ':' then
      lexer.goTo (.name (if kind = .plain then .plain else .token) (kind = .plain) (c :: read))
    else if isOneOf "+*?" c then
      if kind = .token then lexer.fail else lexer.push (.repeatedName read.reverse)
    else if isSpace c || isOneOf ">),|[%" c then
      (lexer.push (.name kind read.reverse)).stepBetween latin c
    else lexer.fail

def step (latin : Bool) (lexer : Lexer) (c : CodePoint) : Lexer :=
  match lexer.state with
  | .between => lexer.stepBetween latin c
  | .afterOpening =>
    if c = ch '!' then lexer.goTo .afterBang
    else if c = ch '?' then lexer.goTo (.section .instruction [])
    else lexer.fail
  | .afterBang =>
    if c = ch '-' then lexer.goTo .afterHyphen
    else if isLetter c || c = ch '_' then lexer.goTo (.keyword [c])
    else lexer.fail
  | .afterHyphen => if c = ch '-' then lexer.goTo (.section .comment []) else lexer.fail
  | .keyword read =>
    if isLetter c || c = ch '_' then lexer.goTo (.keyword (c :: read))
    else if isSpace c then lexer.push (.keyword read.reverse)
    else lexer.fail
  | .section kind read =>
    match kind.step latin read c with
    | .goesOn read => lexer.goTo (.section kind read)
    | .closes _ => lexer.push .misc
    | .fails => lexer.fail
  | .afterPercent =>
    if isNameStart latin c then lexer.goTo .reference
    else if isSpace c || c = ch '%' then (lexer.push .percent).stepBetween latin c
    else lexer.fail
  | .reference =>
    if isNameChar latin c then lexer
    else if c = ch ';' then lexer.push .reference
    else lexer.fail
  | .afterParen =>
    if isOneOf "*?+" c then lexer.push (.closeParen (some c))
    else if isSpace c || isOneOf ">,|)" c then (lexer.push (.closeParen none)).stepBetween latin c
    else lexer.fail
  | .name kind afterColon read => lexer.stepName latin kind afterColon read c
  | .poundName read =>
    if (if read.isEmpty then isNameStart latin c else isNameChar latin c) then
      lexer.goTo (.poundName (c :: read))
    else if !read.isEmpty && (isSpace c || isOneOf ")>%|" c) then
      (lexer.push (.poundName read.reverse)).stepBetween latin c
    else lexer.fail
  | .literal mark read =>
    if c = mark then lexer.goTo (.afterLiteral read.reverse)
    else lexer.goTo (.literal mark (c :: read))
  | .afterLiteral content =>
    if isSpace c || isOneOf ">%[" c then (lexer.push (.literal content)).stepBetween latin c
    else lexer.fail
  | .failed => lexer

/-- The tokens at the end of the text, where a name or a literal may end as well. -/
def finish (lexer : Lexer) : List PrologToken :=
  match lexer.state with
  | .name kind false read => (.name kind read.reverse :: lexer.tokens).reverse
  | .afterLiteral content => (.literal content :: lexer.tokens).reverse
  | _ => lexer.tokens.reverse

end Lexer

/-- What stands in front of the first tag, and the text from this tag on; none if there is none, or
if the tokens end in front of something that is no token. -/
structure PrologText where
  tokens : List PrologToken
  content : Option Text
  deriving DecidableEq, Repr

namespace Lexer

/-- Cuts a text into tokens up to its first tag. -/
def run (latin : Bool) : Lexer → Text → PrologText
  | lexer, [] => ⟨lexer.finish, none⟩
  | lexer, c :: rest =>
    match lexer.state with
    | .afterOpening =>
      if c = ch '!' || c = ch '?' then run latin (lexer.step latin c) rest
      else ⟨lexer.tokens.reverse, some (ch '<' :: c :: rest)⟩
    | .failed => ⟨lexer.tokens.reverse, none⟩
    | _ => run latin (lexer.step latin c) rest

end Lexer

end PropertyList.Markup
