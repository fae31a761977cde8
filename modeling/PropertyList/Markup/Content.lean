import PropertyList.Markup.Section
import PropertyList.Markup.Tag

/-!
The content of a document from its first tag on, cut into pieces: runs of character data, literal
sections and tags. A run of character data, perhaps an empty one, stands in front of every other
piece and at the end. Comments and instructions only separate such runs.
-/
namespace PropertyList.Markup

/-- A piece of content, still as it is written. -/
inductive Piece where
  | characters (raw : Text)
  | cdata (raw : Text)
  | tag (raw : Text)
  deriving DecidableEq, Repr

/-- Where the cutter stands. Characters read have the last one in front, and `quote` is the mark of
the attribute value that a tag is in. -/
inductive CutState where
  | characters (read : Text)
  | afterOpening
  | afterBang (read : Text)
  | section (kind : Section) (read : Text)
  | tag (quote : Option CodePoint) (read : Text)
  | failed
  deriving DecidableEq, Repr

/-- The pieces found so far, the last one in front, and the state behind them. -/
structure Cut where
  state : CutState
  pieces : List Piece
  deriving DecidableEq, Repr

namespace Cut

/-- A document starts with a run of no characters. -/
def start : Cut := ⟨.characters [], []⟩

/-- The quotation mark that is open behind a character of a tag. -/
def quoteAfter (quote : Option CodePoint) (c : CodePoint) : Option CodePoint :=
  match quote with
  | some mark => if c = mark then none else quote
  | none => if c = ch '"' || c = ch '\'' then some c else none

def step (latin : Bool) (cut : Cut) (c : CodePoint) : Cut :=
  match cut.state with
  | .characters read =>
    if c = ch '<' then ⟨.afterOpening, .characters read.reverse :: cut.pieces⟩
    else { cut with state := .characters (c :: read) }
  | .afterOpening =>
    if c = ch '!' then { cut with state := .afterBang [] }
    else if c = ch '?' then { cut with state := .section .instruction [] }
    else if c = ch '>' then { cut with state := .failed }
    else { cut with state := .tag none [c] }
  | .afterBang read =>
    let read := read ++ [c]
    match Section.opened? read with
    | some kind => { cut with state := .section kind [] }
    | none =>
      if Section.mayOpen read then { cut with state := .afterBang read }
      else { cut with state := .failed }
  | .section kind read =>
    match kind.step latin read c with
    | .goesOn read => { cut with state := .section kind read }
    | .closes content =>
      ⟨.characters [], if kind = .cdata then .cdata content :: cut.pieces else cut.pieces⟩
    | .fails => { cut with state := .failed }
  | .tag quote read =>
    if c = ch '>' && quote.isNone then ⟨.characters [], .tag read.reverse :: cut.pieces⟩
    else { cut with state := .tag (quoteAfter quote c) (c :: read) }
  | .failed => cut

/-- The pieces, if the text may end here. -/
def finish (cut : Cut) : Option (List Piece) :=
  match cut.state with
  | .characters read => some (.characters read.reverse :: cut.pieces).reverse
  | _ => none

/-- The pieces of a text. -/
def pieces? (latin : Bool) (s : Text) : Option (List Piece) := (s.foldl (step latin) start).finish

end Cut

end PropertyList.Markup
