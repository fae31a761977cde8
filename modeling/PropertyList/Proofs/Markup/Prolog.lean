import PropertyList.Document.Writer
import PropertyList.Proofs.Markup.Content
import PropertyList.Proofs.Text.Utf8

/-! The head of a document read back: the declaration names the encoding in which the document is
read anyway, and the document type declares no entity and no attribute. -/
namespace PropertyList.Markup

def publicId : Text := text "-//Apple Computer//DTD PLIST 1.0//EN"

def systemId : Text := text "http://www.apple.com/DTDs/PropertyList-1.0.dtd"

def rootTag : Text := text "<plist version=\"1.0\">"

/-- The document type of a document and its first tag, behind the declaration. -/
def headRest : Text :=
  text "\n<!DOCTYPE plist PUBLIC \"" ++ (publicId ++ (ch '"' :: (text " \"" ++
    (systemId ++ (ch '"' :: (text ">\n" ++ (rootTag ++ text "\n")))))))

/-- The declaration with the two marks at its ends. -/
def headDeclaration : Text := text "<?xml version=\"1.0\" encoding=\"UTF-8\"?>"

set_option maxRecDepth 1000 in
theorem documentHead_eq : documentHead = headDeclaration ++ headRest := by decide

theorem isXml_documentHead : documentHead.isXml = true := by decide

/-- A document is read in UTF-8, and its declaration changes nothing about it. -/
theorem Source.ofBytes_documentHead {s : Text} (h : s.isXml = true) :
    Source.ofBytes (Text.utf8 (documentHead ++ s)) = .ok ⟨false, false, headRest ++ s, false⟩ := by
  have hxml : Text.isXml (documentHead ++ s) = true := by
    rw [Text.isXml_append, isXml_documentHead, h, Bool.and_self]
  have hdetect : Encoding.detect (Text.utf8 (documentHead ++ s)) = (.utf8, 0) := by
    rw [Text.utf8, List.flatMap_append]
    rfl
  have hdecode := Encoding.decode_utf8 hxml
  have hcut : Encoding.cutsUnit .utf8 (Text.utf8 (documentHead ++ s)) = false := by
    simp [Encoding.cutsUnit, Encoding.unitWidth, Nat.mod_one]
  have hsplit : splitInstruction [] ((documentHead ++ s).drop declarationStart.length) =
      some ((text " version=\"1.0\" encoding=\"UTF-8\"").reverse, headRest ++ s) := by
    rw [documentHead_eq]
    rfl
  have hread : Declaration.read (text " version=\"1.0\" encoding=\"UTF-8\"") =
      some ⟨some (text "UTF-8"), false⟩ := by decide
  have hnamed : Encoding.named .utf8 (text "UTF-8") = .ok .utf8 := rfl
  have htarget : (documentHead ++ s).take declarationStart.length = declarationStart := by
    rw [documentHead_eq]
    rfl
  simp only [Source.ofBytes, hdetect, List.drop_zero, hdecode, hcut, hsplit, htarget,
    List.reverse_reverse, hread, hnamed]
  rw [documentHead_eq]
  rfl

/-- A literal is read up to the mark that opened it. -/
theorem Lexer.run_literal (latin : Bool) {mark : CodePoint} {s : Text} (h : mark ∉ s) (read : Text)
    (tokens : List PrologToken) (rest : Text) :
    Lexer.run latin ⟨.literal mark read, tokens⟩ (s ++ mark :: rest) =
      Lexer.run latin ⟨.afterLiteral (read.reverse ++ s), tokens⟩ rest := by
  induction s generalizing read with
  | nil =>
    rw [List.nil_append, Lexer.run]
    simp [Lexer.step, Lexer.goTo]
  | cons c s ih =>
    rw [List.mem_cons, not_or] at h
    have hc : c ≠ mark := fun heq => h.1 heq.symm
    rw [List.cons_append, Lexer.run]
    simp only [Lexer.step, if_neg hc, Lexer.goTo]
    rw [ih h.2]
    simp

/-- The document type takes six tokens, and the content begins with the tag of the root. -/
theorem Lexer.run_headRest (s : Text) :
    Lexer.run false .start (headRest ++ s) =
      ⟨[.keyword (text "DOCTYPE"), .name .plain (text "plist"), .name .plain (text "PUBLIC"),
        .literal publicId, .literal systemId, .close], some (rootTag ++ (text "\n" ++ s))⟩ := by
  have hpublic : ch '"' ∉ publicId := by decide
  have hsystem : ch '"' ∉ systemId := by decide
  have hfront (rest : Text) :
      Lexer.run false .start (text "\n<!DOCTYPE plist PUBLIC \"" ++ rest) =
        Lexer.run false ⟨.literal (ch '"') [],
          [.name .plain (text "PUBLIC"), .name .plain (text "plist"), .keyword (text "DOCTYPE")]⟩
          rest := rfl
  have hbetween (content : Text) (tokens : List PrologToken) (rest : Text) :
      Lexer.run false ⟨.afterLiteral content, tokens⟩ (text " \"" ++ rest) =
        Lexer.run false ⟨.literal (ch '"') [], .literal content :: tokens⟩ rest := rfl
  have hend (content : Text) (tokens : List PrologToken) (rest : Text) :
      Lexer.run false ⟨.afterLiteral content, tokens⟩ (text ">\n" ++ (rootTag ++ rest)) =
        ⟨(.close :: .literal content :: tokens).reverse, some (rootTag ++ rest)⟩ := rfl
  simp only [headRest, List.append_assoc, List.cons_append]
  rw [hfront, run_literal false hpublic, hbetween, run_literal false hsystem, hend]
  simp

/-- The policy of a document that leaves its attributes to an external document type. -/
def headPolicy : AttributePolicy := ⟨[], true⟩

theorem AttributePolicy.ofProlog_head : AttributePolicy.ofProlog ⟨false, false⟩
    [.keyword (text "DOCTYPE"), .name .plain (text "plist"), .name .plain (text "PUBLIC"),
      .literal publicId, .literal systemId, .close] = .ok headPolicy := rfl

/-- Behind its head, a document is what its content makes up. -/
theorem Document.ofBytes_documentHead {s : Text} (h : s.isXml = true) {document : Document}
    (hdocument : (Cut.pieces? false (rootTag ++ (text "\n" ++ s))).bind
      (Document.ofPieces? false headPolicy) = some document) :
    Document.ofBytes (Text.utf8 (documentHead ++ s)) = .ok document := by
  have hcontent : Source.content? ⟨false, false, headRest ++ s, false⟩ headPolicy =
      some document := by
    rw [Source.content?, Lexer.run_headRest]
    exact hdocument
  have hsource : Source.document ⟨false, false, headRest ++ s, false⟩ = .ok document := by
    rw [Source.document_eq, Lexer.run_headRest, AttributePolicy.ofProlog_head]
    simp only [hcontent]
  have hbind (source : Source) :
      ((.ok source : Except Refusal Source) >>= Source.document) = source.document := rfl
  rw [Document.ofBytes, Source.ofBytes_documentHead h, hbind, hsource]

end PropertyList.Markup
