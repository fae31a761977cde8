import PropertyList.Proofs.Document.Enclosed
import PropertyList.Proofs.Document.Leaves
import PropertyList.Proofs.Document.Refused
import PropertyList.Proofs.Markup.DeclaredEncoding

/-! Entities are never expanded. Character data that refers to one denotes nothing, whatever the
prolog declares, so that the document is refused; and what a tree holds was written in the document,
as characters, literal sections and references to single characters. -/
namespace PropertyList
open Markup

namespace Markup

variable {latin : Bool} {policy : AttributePolicy}

theorem Assembly.exists_addPiece_of_mem {pieces : List Piece} {assembly reached : Assembly}
    (h : pieces.foldlM (addPiece latin policy) assembly = some reached) {piece : Piece}
    (hpiece : piece ∈ pieces) : ∃ before after, addPiece latin policy before piece = some after := by
  induction pieces generalizing assembly with
  | nil => cases hpiece
  | cons first pieces ih =>
    rw [List.foldlM_cons] at h
    obtain ⟨next, hnext, hrest⟩ := Option.bind_eq_some_iff.mp h
    rcases List.mem_cons.mp hpiece with rfl | hmore
    · exact ⟨assembly, next, hnext⟩
    · exact ih hrest hmore

/-- Character data of a document denotes a text, or it is blank. -/
theorem Assembly.denotes_of_addPiece {assembly reached : Assembly} {raw : Text}
    (h : assembly.addPiece latin policy (.characters raw) = some reached) :
    raw.all isSpace = true ∨ ∃ s, Denotes raw s := by
  simp only [addPiece] at h
  split at h
  · split at h
    · exact .inl ‹_›
    · cases h
  · obtain ⟨s, hs, -⟩ := Option.bind_eq_some_iff.mp h
    exact .inr ⟨s, denotes_of_characterData hs⟩

/-- A reference to an entity stands in the character data of a content: behind segments, and not
inside of one. -/
inductive RefersToEntity : Text → Prop
  | intro {segments : List Segment} (hsound : ∀ segment ∈ segments, segment.Sound) {name : Text}
      (hname : Reference.NamesEntity name) (back : Text) :
      RefersToEntity (segments.flatMap Segment.written ++ (ch '&' :: name ++ ch ';' :: back))

/-- No document holds a reference to an entity. -/
theorem RefersToEntity.ofPieces? {content : Text} (h : RefersToEntity content) {pieces : List Piece}
    (hpieces : Cut.pieces? latin content = some pieces) :
    Document.ofPieces? latin policy pieces = none := by
  obtain ⟨hsound, hname, back⟩ := h
  rename_i segments name
  have hraw : ch '<' ∉ ch '&' :: name ++ [ch ';'] := by
    have hmarks : ch '<' ≠ ch '&' ∧ ch '<' ≠ ch ';' := by decide
    simp [hname.no_tag, hmarks]
  have hsplit : ch '&' :: name ++ ch ';' :: back = (ch '&' :: name ++ [ch ';']) ++ back := by simp
  rw [hsplit] at hpieces
  obtain ⟨front, behind, hmem⟩ := Cut.exists_characters_of_pieces? hsound hraw hpieces
  cases hdocument : Document.ofPieces? latin policy pieces with
  | none => rfl
  | some document =>
    obtain ⟨assembly, hassembly, -⟩ := Option.bind_eq_some_iff.mp hdocument
    obtain ⟨before, after, hadd⟩ := Assembly.exists_addPiece_of_mem hassembly hmem
    rcases Assembly.denotes_of_addPiece hadd with hblank | ⟨s, hs⟩
    · have hamp := List.all_eq_true.mp hblank (ch '&') (by simp)
      cases hamp
    · refine absurd hs ?_
      have hrun : front ++ (ch '&' :: name ++ [ch ';']) ++ behind =
          front ++ ch '&' :: name ++ ch ';' :: behind := by simp
      rw [hrun]
      exact not_denotes_of_namesEntity hname front behind s

/-- What is written from the first tag of a document on. -/
def Source.contentText (source : Source) : Option Text :=
  (Lexer.run source.latin .start source.body).content

theorem Source.content?_eq_none {source : Source} {content : Text}
    (hcontent : source.contentText = some content) (h : RefersToEntity content) (policy : AttributePolicy) :
    source.content? policy = none := by
  unfold content?
  cases source.isCut with
  | true => rfl
  | false =>
    rw [contentText] at hcontent
    rw [if_neg Bool.false_ne_true, hcontent, Option.bind_some]
    cases hpieces : Cut.pieces? source.latin content with
    | none => rfl
    | some pieces => exact h.ofPieces? hpieces

/-- A reference to an entity makes a document refused, whatever its prolog is. -/
theorem Source.exists_refusal {source : Source} {content : Text}
    (hcontent : source.contentText = some content) (h : RefersToEntity content) :
    ∃ refusal, source.document = .error refusal := by
  rw [Source.document_eq]
  split
  · exact ⟨_, rfl⟩
  · rw [source.content?_eq_none hcontent h]
    exact ⟨_, rfl⟩

/-- The text of every leaf of a document is enclosed in the segments of its content. -/
theorem Source.exists_segments {source : Source} {document : Document}
    (h : source.document = .ok document) :
    ∃ segments : List Segment, (∀ segment ∈ segments, segment.Sound) ∧
      source.contentText = some (segments.flatMap Segment.written) ∧
      AreEnclosed segments document.content := by
  rw [Source.document_eq] at h
  split at h
  · cases h
  · split at h
    · rename_i policy _ found hfound
      cases h
      obtain ⟨content, hcontent, hpieces⟩ := Option.bind_eq_some_iff.mp hfound
      obtain ⟨pieces, hcut, hdocument⟩ := Option.bind_eq_some_iff.mp hpieces
      obtain ⟨segments, hsound, rfl, rfl⟩ := Cut.exists_segments_of_pieces? hcut
      refine ⟨segments, hsound, ?_, Document.areEnclosed_of_ofPieces? hdocument⟩
      split_ifs at hcontent
      exact hcontent
    · cases h

end Markup

/-- A document that refers to an entity is one that no reader can parse. Every leaf of a tree was
decoded from a text that stands between two tags of the document, made of characters, literal
sections and references to single characters alone; strings and keys are such a text. -/
theorem fromDocument_entities {input : Given Input} {length : Option ℤ} {bytes : Bytes}
    (hcut : input.cut length = .ok bytes) :
    (∀ source content, Source.ofBytes bytes = .ok source → source.contentText = some content →
      RefersToEntity content →
        ∃ refusal, refusal.isEncoding = false ∧ ∀ config : Config,
          fromDocument input length (.wanted config) =
            if config.strict then Run.fail (.unparsable refusal bytes)
            else Run.noting (.unparsable refusal) none) ∧
    ∀ (config : Config) tree,
      (fromDocument input length (.wanted config)).outcome = .ok (some tree) →
        ∃ source segments, Source.ofBytes bytes = .ok source ∧
          (∀ segment ∈ segments, segment.Sound) ∧
          source.contentText = some (segments.flatMap Segment.written) ∧
          ∀ leaf ∈ tree.leaves, ∃ tag s, IsEnclosed segments s ∧
            (Leaf.decode config.strict tag s).outcome = .ok (some leaf) ∧
            ∀ value, leaf.text? = some value → value = s := by
  constructor
  · intro source content hsource hcontent hentity
    obtain ⟨refusal, hrefusal⟩ := source.exists_refusal hcontent hentity
    refine ⟨refusal, source.refusesContent_document refusal hrefusal, ?_⟩
    intro config
    rw [fromDocument_eq_bind, hcut, Run.ofExcept_ok, pure_bind, readTree_eq_tree hsource,
      Source.tree, hrefusal]
  · intro config tree htree
    rw [fromDocument_eq_bind, hcut, Run.ofExcept_ok, pure_bind] at htree
    obtain ⟨document, hdocument, hread⟩ := exists_document_of_readTree config htree
    obtain ⟨source, hsource, hparsed⟩ := except_bind_eq_ok.mp hdocument
    obtain ⟨segments, hsound, hcontent, henclosed⟩ := source.exists_segments hparsed
    refine ⟨source, segments, hsource, hsound, hcontent, ?_⟩
    intro leaf hleaf
    obtain ⟨entry, hentry, hdecoded⟩ := document.isDecoded_of_tree hread leaf hleaf
    have hxml := isXml_of_mem_leavesOf document.content (Document.isXml_of_ofBytes hdocument) entry
      hentry
    exact ⟨entry.1, entry.2, henclosed entry hentry, hdecoded,
      fun value hvalue => Leaf.eq_of_text? hxml hdecoded hvalue⟩

/-- An entity that a subset elsewhere may declare is not read from there, and a literal section only
looks as if it referred to one. -/
theorem fromDocument_entities_external :
    (∃ refusal, refusal.isEncoding = false ∧ ∀ config : Config,
      fromDocument (.wanted (.ofBytes (Text.utf8
          (text "<!DOCTYPE plist SYSTEM 'p'><plist><string>a&e;</string></plist>")))) none
          (.wanted config) =
        if config.strict then Run.fail (.unparsable refusal (Text.utf8
          (text "<!DOCTYPE plist SYSTEM 'p'><plist><string>a&e;</string></plist>")))
        else Run.noting (.unparsable refusal) none) ∧
    (fromDocument (.wanted (.ofBytes (Text.utf8
        (text "<plist><string>a&amp;<![CDATA[&e;]]></string></plist>")))) none
        (.wanted .default)).outcome = .ok (some (.leaf (.string (text "a&&e;")))) ∧
      ∃ (source : Source) (segments : List Segment),
        source.contentText = some (segments.flatMap Segment.written) ∧
          IsEnclosed segments (text "a&&e;") := by
  have hbare : IsBare (text "<!DOCTYPE plist SYSTEM 'p'><plist><string>a&e;</string></plist>") := by
    refine ⟨by decide, by decide, ?_⟩
    rintro c - ⟨rest, hrest⟩
    have hsecond := congrArg (fun s => s[1]?) hrest
    cases hsecond
  have hentity : RefersToEntity (text "<plist><string>a&e;</string></plist>") := by
    have hsound : ∀ segment ∈ [Segment.tag (text "plist"), .tag (text "string"),
        .characters (text "a")], segment.Sound := by decide
    have hname : Reference.NamesEntity (text "e") := ⟨by decide, by decide, by decide, by decide⟩
    exact .intro hsound hname (text "</string></plist>")
  have hdocument : Document.ofBytes (Text.utf8
      (text "<plist><string>a&amp;<![CDATA[&e;]]></string></plist>")) =
      .ok ⟨documentTag, [], [.text [], .element (text "string") []
        [.text (text "a&"), .text (text "&e;"), .text []], .text []]⟩ := rfl
  have hread : (fromDocument (.wanted (.ofBytes (Text.utf8
      (text "<plist><string>a&amp;<![CDATA[&e;]]></string></plist>")))) none
      (.wanted .default)).outcome = .ok (some (.leaf (.string (text "a&&e;")))) := by
    rw [fromDocument_eq_tree rfl hdocument, Document.tree_eq]
    rfl
  refine ⟨(fromDocument_entities rfl).1 _ _ (Source.ofBytes_utf8 hbare) rfl hentity, hread, ?_⟩
  obtain ⟨source, segments, -, -, hcontent, hleaves⟩ := (fromDocument_entities rfl).2 _ _ hread
  obtain ⟨tag, s, henclosed, -, hvalue⟩ := hleaves _ (List.mem_singleton_self _)
  rw [← hvalue _ rfl] at henclosed
  exact ⟨source, segments, hcontent, henclosed⟩

end PropertyList
