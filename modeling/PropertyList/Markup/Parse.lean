import PropertyList.Markup.Declaration
import PropertyList.Markup.Document
import PropertyList.Markup.DocumentType

/-!
Reading a document from its bytes: the declaration, the prolog, and the content.
-/
namespace PropertyList.Markup

namespace Source

/-- The document that decoded characters make up. Where a character is cut off at the end, there is
none, but the prolog is still read and may be refused for its own reasons. -/
def document (source : Source) : Except Refusal Document := do
  let prolog := Lexer.run source.latin .start source.body
  let policy ← AttributePolicy.ofProlog ⟨source.latin, source.standalone⟩ prolog.tokens
  let document := do
    let content ← if source.isCut then none else prolog.content
    let pieces ← Cut.pieces? source.latin content
    Document.ofPieces? source.latin policy pieces
  match document with
  | some document => .ok document
  | none => .error .malformed

end Source

/-- The document that bytes make up. -/
def Document.ofBytes (bytes : Bytes) : Except Refusal Document := do
  (← Source.ofBytes bytes).document

end PropertyList.Markup
