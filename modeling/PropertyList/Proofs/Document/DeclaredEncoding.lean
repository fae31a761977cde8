import PropertyList.Proofs.Document.Recursion
import PropertyList.Proofs.Document.Refused
import PropertyList.Proofs.Markup.DeclaredEncoding

/-! Texts whose declaration names an encoding. A text is encoded in UTF-8 whatever it declares, but
what stands behind the declaration is read in the encoding that it names. So the declaration changes
nothing just where this encoding keeps all characters of the text; elsewhere other characters are
read, and an encoding that does not fit UTF-8 refuses the text. -/
namespace PropertyList
open Markup

/-- The same failure in front of another input. -/
def Failure.withInput (input : Bytes) : Failure → Failure
  | .unparsable refusal _ => .unparsable refusal input
  | failure => failure

/-- The same run in front of another input. -/
def Run.withInput {α : Type} (run : Run α) (input : Bytes) : Run α :=
  ⟨run.notices, run.outcome.mapError (Failure.withInput input)⟩

/-- Only a document as a whole is told from another input. -/
theorem Run.Details.withInput {α : Type} {run : Run α} (h : run.Details) (input : Bytes) :
    run.withInput input = run := by
  obtain ⟨notices, outcome⟩ := run
  cases outcome with
  | ok a => rfl
  | error failure =>
    have hdetail := h.failure failure rfl
    cases failure with
    | unparsable => exact hdetail.elim
    | _ => rfl

theorem Markup.Source.withInput_tree (source : Source) (config : Config) (input other : Bytes) :
    (source.tree config input).withInput other = source.tree config other := by
  unfold Source.tree
  cases source.document with
  | ok document => exact (document.tree_details config.strict).withInput other
  | error refusal =>
    dsimp only
    split <;> rfl

/-- A text is read as its bytes are. -/
theorem fromDocument_ofText {s : Text} (h : s.isXml = true) (config : Config) :
    fromDocument (.wanted (.ofText s)) none (.wanted config) = readTree config s.utf8 := by
  have hcut : (Given.wanted (Input.ofText s)).cut none = .ok s.utf8 := by
    change (Input.ofText s).bytes >>= (fun bytes => cutInput bytes none) = _
    rw [Input.bytes, Text.utf8?_of_isXml h]
    rfl
  rw [fromDocument_eq_bind, hcut, Run.ofExcept_ok, pure_bind]

theorem readTree_refused {input : Bytes} {refusal : Refusal}
    (h : Source.ofBytes input = .error refusal) (config : Config) :
    readTree config input =
      if refusal.isEncoding then Run.fail (.encoding refusal)
      else if config.strict then Run.fail (.unparsable refusal input)
      else Run.noting (.unparsable refusal) none := by
  have hbytes : Document.ofBytes input = .error refusal := by
    rw [Document.ofBytes, h]
    rfl
  by_cases hencoding : refusal.isEncoding = true
  · rw [if_pos hencoding, readTree_encoding config hbytes hencoding]
  · rw [if_neg hencoding, readTree_unparsable config hbytes (Bool.eq_false_iff.mpr hencoding)]

/-- A declaration in front of a text decides in which encoding the bytes of the text are read. They
are those of UTF-8, so that the text keeps its characters in UTF-8, and elsewhere if all of them are
ASCII characters of the encoding; only then is the run the one without the declaration. An encoding
that cannot be used refuses the text. -/
theorem fromDocument_naming {name s : Text} (hname : IsEncodingName name) (hs : IsBare s)
    (config : Config) :
    (∀ next, Encoding.named .utf8 name = .ok next →
      fromDocument (.wanted (.ofText (naming name ++ s))) none (.wanted config) =
          Source.tree ⟨next.hasLatinSigns, false, next.decode s.utf8, false⟩ config
            (naming name ++ s).utf8 ∧
        (next.decode s.utf8 = s ↔
          next = .utf8 ∨ ∀ c : Nat, c ∈ s → c < 0x80 ∧ (next = .tildeless → c ≠ ch '~')) ∧
        (next.decode s.utf8 = s → next.hasLatinSigns = false →
          fromDocument (.wanted (.ofText (naming name ++ s))) none (.wanted config) =
            (fromDocument (.wanted (.ofText s)) none (.wanted config)).withInput
              (naming name ++ s).utf8)) ∧
    ∀ refusal, Encoding.named .utf8 name = .error refusal →
      fromDocument (.wanted (.ofText (naming name ++ s))) none (.wanted config) =
        if refusal.isEncoding then Run.fail (.encoding refusal)
        else if config.strict then Run.fail (.unparsable refusal (naming name ++ s).utf8)
        else Run.noting (.unparsable refusal) none := by
  have hxml : Text.isXml (naming name ++ s) = true := by
    rw [Text.isXml_append, isXml_naming hname, hs.isXml, Bool.and_self]
  have hsource : Source.ofBytes (naming name ++ s).utf8 = (Encoding.named .utf8 name).map fun next =>
      ⟨next.hasLatinSigns, false, next.decode s.utf8, false⟩ := by
    rw [Text.utf8, List.flatMap_append, ← Text.utf8, ← Text.utf8, Source.ofBytes_naming hname]
  have hbare : fromDocument (.wanted (.ofText s)) none (.wanted config) =
      Source.tree ⟨false, false, s, false⟩ config s.utf8 := by
    rw [fromDocument_ofText hs.isXml, readTree_eq_tree (Source.ofBytes_utf8 hs)]
  constructor
  · intro next hnext
    rw [hnext] at hsource
    have htree : fromDocument (.wanted (.ofText (naming name ++ s))) none (.wanted config) =
        Source.tree ⟨next.hasLatinSigns, false, next.decode s.utf8, false⟩ config
          (naming name ++ s).utf8 := by
      rw [fromDocument_ofText hxml, readTree_eq_tree hsource]
    refine ⟨htree, ?_, ?_⟩
    · by_cases hutf8 : next = .utf8
      · subst hutf8
        simp [Encoding.decode_utf8 hs.isXml]
      · rw [Encoding.decode_utf8_eq_iff ⟨Encoding.unitWidth_of_named hnext, hutf8⟩ hs.isXml]
        simp [hutf8]
    · intro hkept hsigns
      rw [htree, hbare, Source.withInput_tree, hkept, hsigns]
  · intro refusal hrefusal
    rw [hrefusal] at hsource
    rw [fromDocument_ofText hxml, readTree_refused hsource]

/-- A letter with an accent has two bytes in UTF-8, each of which is a character of Latin 1. -/
theorem fromDocument_naming_latin1 :
    fromDocument (.wanted (.ofText (text "<plist><string>" ++ 0xE9 :: text "</string></plist>"))) none
        (.wanted .default) = pure (some (.leaf (.string [0xE9]))) ∧
      fromDocument (.wanted (.ofText (naming (text "iso-8859-1") ++
        (text "<plist><string>" ++ 0xE9 :: text "</string></plist>")))) none (.wanted .default) =
          pure (some (.leaf (.string [0xC3, 0xA9]))) := by
  have hname : IsEncodingName (text "iso-8859-1") := ⟨by decide, by decide⟩
  have hbare : IsBare (text "<plist><string>" ++ 0xE9 :: text "</string></plist>") := by
    refine ⟨by decide, by decide, ?_⟩
    rintro c - ⟨rest, hrest⟩
    have hsecond := congrArg (fun s => s[1]?) hrest
    cases hsecond
  have hnamed : Encoding.named .utf8 (text "iso-8859-1") = .ok .latin1 := by decide
  have hplain : Source.document ⟨false, false,
      text "<plist><string>" ++ 0xE9 :: text "</string></plist>", false⟩ =
        .ok ⟨documentTag, [], [.text [], .element (text "string") [] [.text [0xE9]], .text []]⟩ := rfl
  have hlatin : Source.document ⟨true, false, Encoding.latin1.decode
      (Text.utf8 (text "<plist><string>" ++ 0xE9 :: text "</string></plist>")), false⟩ =
        .ok ⟨documentTag, [], [.text [], .element (text "string") [] [.text [0xC3, 0xA9]],
          .text []]⟩ := rfl
  constructor
  · rw [fromDocument_ofText hbare.isXml, readTree_eq_tree (Source.ofBytes_utf8 hbare), Source.tree,
      hplain]
    exact Document.tree_eq _
  · rw [((fromDocument_naming hname hbare .default).1 _ hnamed).1, Source.tree]
    simp only [Encoding.hasLatinSigns, hlatin]
    exact Document.tree_eq _

end PropertyList
