import PropertyList.Text.Basic

/-!
Indented blocks. A long text is cut into lines of a fixed width; every line goes on a line of its
own behind the indentation, and a last line holds only the indentation.
-/
namespace PropertyList.Text

/-- A line break and `depth` tabs. -/
def indent (depth : Nat) : Text := ch '\n' :: List.replicate depth (ch '\t')

/-- At most `count` lines of `columns` characters, cut from the front. -/
def linesUpTo (columns : Nat) : Nat → Text → List Text
  | 0, _ => []
  | _ + 1, [] => []
  | count + 1, s => s.take columns :: linesUpTo columns count (s.drop columns)

/-- The lines of `columns` characters that a text consists of; the last may be shorter. -/
def lines (columns : Nat) (s : Text) : List Text := linesUpTo columns s.length s

/-- The block of a text: its lines, each behind the indentation, and the indentation once more. -/
def block (s : Text) (depth columns : Nat) : Text :=
  (s.lines columns).flatMap (fun line => indent depth ++ line) ++ indent depth

end PropertyList.Text
