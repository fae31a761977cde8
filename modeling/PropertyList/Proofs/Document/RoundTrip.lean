import PropertyList.Document.Exchange
import PropertyList.Proofs.Document.Layout
import PropertyList.Proofs.Markup.Prolog

/-! Documents read back. Whatever follows a document and whoever reads it, the tree in it is the one
that was written, up to the digits that a real loses when it is written for the first time. -/
namespace PropertyList
open Markup

/-- The root of a document, inside its tags. -/
def rootElement : OpenElement :=
  ⟨documentTag, documentTag, [⟨text "version", text "1.0"⟩], Scope.initial, []⟩

theorem reads_rootTag :
    Reads false headPolicy rootTag [] .start [] (.inside rootElement []) := by
  refine ⟨[.tag (text "plist version=\"1.0\""), .characters []], ?_, rfl⟩
  intro pieces
  rfl

theorem documentFoot_eq : documentFoot = closeTag documentTag ++ text "\n" := by decide

/-- The end tag of the root ends the document. -/
theorem reads_documentFoot {read : Text} (hread : read.IsIndent) {element : OpenElement}
    (hname : element.rawName = documentTag) :
    Reads false headPolicy documentFoot read (.inside element []) (text "\n")
      ⟨[], some ⟨element.name, element.attributes,
        (element.extend [.text read.reverse]).content.reverse⟩⟩ := by
  have hword : documentTag.IsWord := by decide
  have hclose : Reads false headPolicy (closeTag documentTag) read (.inside element []) []
      ⟨[], some ⟨element.name, element.attributes,
        (element.extend [.text read.reverse]).content.reverse⟩⟩ := by
    apply reads_tag hword (.inr (.inl rfl)) (Assembly.addPiece_of_isIndent hread.reverse element [])
    rw [Assembly.addPiece, Tag.read?_closing false hword]
    simp [Assembly.close?, Assembly.inside, OpenElement.extend, hname]
  rw [documentFoot_eq]
  exact hclose.trans (Reads.characters (by decide) [] _)

/-- The document around a layout holds the nodes that are laid out. -/
theorem exists_document {s : Text} {nodes : List Node} (hxml : s.isXml = true)
    (h : Lays headPolicy s nodes) :
    ∃ document : Markup.Document,
      Document.ofBytes (Text.utf8 (documentHead ++ s ++ documentFoot)) = .ok document ∧
        document.name = documentTag ∧
        ∀ strict, walk strict document.content [] [] = pure nodes := by
  have hbreak : Lays headPolicy (text "\n") [] := .of_isIndent (by decide)
  obtain ⟨items, after, hafter, hreads, hnodes⟩ :=
    (hbreak.append h) [] Text.isIndent_nil rootElement rfl []
  have hfoot := reads_documentFoot hafter (show (rootElement.extend items).rawName = documentTag from rfl)
  have hwhole := (reads_rootTag.trans hreads).trans hfoot
  have hall : Text.isXml (s ++ documentFoot) = true := by
    rw [Text.isXml_append, hxml, Bool.true_and]
    decide
  have hdocument := hwhole.document (by decide)
  rw [List.append_assoc, List.append_assoc] at hdocument
  have hbytes := Document.ofBytes_documentHead hall hdocument
  rw [← List.append_assoc] at hbytes
  refine ⟨_, hbytes, rfl, ?_⟩
  intro strict
  have hcontent : ((rootElement.extend items).extend [.text after.reverse]).content.reverse =
      items.reverse ++ [.text after.reverse] := by
    simp [OpenElement.extend, rootElement]
  rw [hcontent, walk_eq_nodesOf, nodesOf_append, hnodes, nodesOf_text, nodesOf_nil, pure_bind,
    pure_bind, List.nil_append, List.append_nil]

/-- The document of a valid tree, and the tree in it. -/
theorem exists_toDocument {tree : Node} (htree : tree.Valid) {config : Config}
    (hcolumns : 1 ≤ config.columns) :
    ∃ document, toDocument (some (.wanted tree)) (.wanted config) = .ok document ∧
      ∀ reading : Config, readTree reading document.utf8 = pure (some tree.reread) := by
  have hwrite := write_eq_ok config (Node.isWritable_of_valid tree htree)
  have hlays : Lays headPolicy _ _ := Node.lays_layout rfl hcolumns 0 tree htree
  obtain ⟨document, hdocument, hname, hwalk⟩ :=
    exists_document (Node.isXml_layout config.columns 0 tree htree) hlays
  refine ⟨_, hwrite, ?_⟩
  intro reading
  have hplist : (document.name != documentTag) = false := by simp [hname]
  simp only [readTree, hdocument, Markup.Document.tree, hplist, Bool.and_false,
    Bool.false_eq_true, if_false, hwalk, pure_bind, gather_singleton]

theorem cutInput_append (input junk : Bytes) :
    cutInput (input ++ junk) (some input.length) = .ok input := by
  rw [cutInput_natCast, List.take_left]

theorem fromDocument_wanted (bytes : Bytes) (length : Option ℤ) (config : Config) :
    fromDocument (.wanted (.ofBytes bytes)) length (.wanted config) = (do
      readTree config (← Run.ofExcept (cutInput bytes length))) := rfl

/-- Every valid tree is written, and read back from the front of whatever begins with its document:
a real becomes the number that its text denotes, and all else comes back unchanged. -/
theorem fromDocument_toDocument {tree : Node} (htree : tree.Valid) {config : Config}
    (hcolumns : 1 ≤ config.columns) (reading : Config) (junk : Bytes) :
    (∃ document, toDocument (some (.wanted tree)) (.wanted config) = .ok document ∧
      fromDocument (.wanted (.ofBytes (document.utf8 ++ junk))) (some document.utf8.length)
        (.wanted reading) = pure (some tree.reread)) ∧
      ∀ (strict : Bool) (x : Binary64), decodeReal strict (encodeReal x) = pure x.reread := by
  refine ⟨?_, decodeReal_encodeReal⟩
  obtain ⟨document, hdocument, hread⟩ := exists_toDocument htree hcolumns
  refine ⟨document, hdocument, ?_⟩
  rw [fromDocument_wanted, cutInput_append, Run.ofExcept_ok, pure_bind, hread]

/-- A list of a text with a carriage return and a number, with a bracket behind its document. -/
theorem fromDocument_toDocument_array :
    (∃ document, toDocument (some (.wanted (.array [.leaf (.string (text "a\rb")),
        .leaf (.real .zero)]))) (.wanted .default) = .ok document ∧
      fromDocument (.wanted (.ofBytes (document.utf8 ++ [0x3C]))) (some document.utf8.length)
        (.wanted ⟨true, 60⟩) = pure (some (.array [.leaf (.string (text "a\rb")),
          .leaf (.real (Binary64.reread .zero))]))) ∧
      ∀ (strict : Bool) (x : Binary64), decodeReal strict (encodeReal x) = pure x.reread :=
  fromDocument_toDocument
    (show (Node.array [.leaf (.string (text "a\rb")), .leaf (.real .zero)]).Valid from
      ⟨show (text "a\rb").isXml = true by decide, trivial, trivial⟩)
    (show 1 ≤ Config.default.columns by decide) ⟨true, 60⟩ [0x3C]

end PropertyList
