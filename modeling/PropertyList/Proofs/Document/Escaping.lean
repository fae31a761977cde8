import PropertyList.Markup.Document
import PropertyList.Proofs.Document.Writer

/-! Escaping undone. What is written for a text is clean, and its references, resolved behind
normalised line ends, give the text back. Resolving is said over the table that the writer puts in,
and the reader of character data agrees with it on every run that the table resolves. -/
namespace PropertyList

/-- The references that the text of an element is written with. -/
def writtenReferences : List (CodePoint × Text) := markupReferences ++ textReferences

/-- An entry holds what its character is written as: some text without line ends. -/
theorem eq_escapeChar_of_mem {entry : CodePoint × Text} (h : entry ∈ writtenReferences) :
    entry.2 = escapeChar entry.1 ∧ isXmlChar entry.1 = true ∧
      0 < entry.2.length ∧ ch '\r' ∉ entry.2 ∧ ch '\n' ∉ entry.2 := by
  have hall : ∀ entry ∈ writtenReferences, entry.2 = escapeChar entry.1 ∧
      isXmlChar entry.1 = true ∧ 0 < entry.2.length ∧ ch '\r' ∉ entry.2 ∧ ch '\n' ∉ entry.2 := by
    decide
  exact hall entry h

theorem mem_writtenReferences {c : CodePoint} (h : c ∈ referredTo) :
    (c, escapeChar c) ∈ writtenReferences := by
  have hall : ∀ c ∈ referredTo, (c, escapeChar c) ∈ writtenReferences := by decide
  exact hall c h

/-- An ampersand opens a reference, and none stands in it. -/
theorem escapeChar_eq_cons {c : CodePoint} (h : c ∈ referredTo) :
    escapeChar c = ch '&' :: (escapeChar c).tail ∧ ch '&' ∉ (escapeChar c).tail := by
  have hall : ∀ c ∈ referredTo,
      escapeChar c = ch '&' :: (escapeChar c).tail ∧ ch '&' ∉ (escapeChar c).tail := by decide
  exact hall c h

namespace Text

theorem suffix_of_suffix_append {c : CodePoint} {front back rest : Text} (hc : c ∉ front)
    (h : c :: rest <:+ front ++ back) : c :: rest <:+ back := by
  induction front with
  | nil => exact h
  | cons d front ih =>
    rw [List.mem_cons, not_or] at hc
    rcases List.suffix_cons_iff.mp h with heq | hsuffix
    · exact absurd (List.cons_eq_cons.mp heq).1 hc.1
    · exact ih hc.2 hsuffix

/-- Every ampersand in an escaped text starts a written reference. -/
theorem exists_reference_of_suffix {s rest : Text} (h : ch '&' :: rest <:+ s.escaped) :
    ∃ entry ∈ writtenReferences, entry.2 <+: ch '&' :: rest := by
  induction s with
  | nil => exact absurd (List.suffix_nil.mp h) (List.cons_ne_nil _ _)
  | cons c s ih =>
    rw [escaped_cons] at h
    by_cases hc : c ∈ referredTo
    · obtain ⟨hopening, htail⟩ := escapeChar_eq_cons hc
      rw [hopening, List.cons_append] at h
      rcases List.suffix_cons_iff.mp h with hhere | hbehind
      · refine ⟨(c, escapeChar c), mem_writtenReferences hc, escaped s, ?_⟩
        rw [hhere, ← List.cons_append, ← hopening]
      · exact ih (suffix_of_suffix_append htail hbehind)
    · have hamp : ch '&' ∉ escapeChar c := by
        rw [escapeChar_of_not_mem hc, List.mem_singleton]
        rintro rfl
        exact hc (by decide)
      exact ih (suffix_of_suffix_append hamp h)

/-- The text with a character in the place of each written reference, read from the left; none if an
ampersand starts no such reference. -/
def resolved? : Text → Option Text
  | [] => some []
  | c :: rest =>
    if c ≠ ch '&' then (resolved? rest).map (c :: ·)
    else
      match writtenReferences.find? fun entry => entry.2.isPrefixOf (c :: rest) with
      | some entry => (resolved? (rest.drop (entry.2.length - 1))).map (entry.1 :: ·)
      | none => none
termination_by s => s.length
decreasing_by
  · simp
  · simp only [List.length_drop, List.length_cons]
    omega

@[simp] theorem resolved?_nil : resolved? [] = some [] := by simp [resolved?]

theorem resolved?_cons {c : CodePoint} (h : c ≠ ch '&') (rest : Text) :
    resolved? (c :: rest) = (resolved? rest).map (c :: ·) := by
  rw [resolved?, if_pos h]

/-- No reference starts another one, so that the table has one entry for what is written. -/
@[simp] theorem resolved?_escapeChar (c : CodePoint) (rest : Text) :
    resolved? (escapeChar c ++ rest) = (resolved? rest).map (c :: ·) := by
  by_cases h : c ∈ referredTo
  · simp only [referredTo, List.mem_cons, List.not_mem_nil, or_false] at h
    rcases h with rfl | rfl | rfl | rfl | rfl | rfl <;> (rw [resolved?.eq_def]; rfl)
  · have hamp : c ≠ ch '&' := fun heq => h (heq ▸ by decide)
    rw [escapeChar_of_not_mem h, List.singleton_append, resolved?_cons hamp]

@[simp] theorem resolved?_escaped (s : Text) : s.escaped.resolved? = some s := by
  induction s with
  | nil => exact resolved?_nil
  | cons c s ih => simp [escaped_cons, ih]

theorem exists_reference_of_resolved? {rest t : Text} (h : resolved? (ch '&' :: rest) = some t) :
    ∃ entry ∈ writtenReferences, entry.2 <+: ch '&' :: rest := by
  rw [resolved?, if_neg (not_not_intro rfl)] at h
  split at h
  · rename_i entry hfound
    have hstarts : entry.2.isPrefixOf (ch '&' :: rest) = true := by
      simpa using List.find?_some hfound
    exact ⟨entry, List.mem_of_find?_eq_some hfound, List.isPrefixOf_iff_prefix.mp hstarts⟩
  · cases h

end Text

namespace Markup

namespace Assembly

theorem endLines_eq (read s : Text) : endLines read s = read.reverse ++ endLines [] s := by
  induction s generalizing read with
  | nil => simp [endLines]
  | cons c s ih =>
    rw [endLines, endLines, ih (c :: read), ih read, ih (ch '\n' :: read), ih [c], ih [ch '\n']]
    split
    · simp
    · split <;> simp

theorem endLines_cons {c : CodePoint} (h : c ≠ ch '\r') (rest : Text) :
    endLines [] (c :: rest) = c :: endLines [] rest := by
  simp [endLines, h, endLines_eq [c]]

theorem endLines_return (rest : Text) :
    endLines [] (ch '\r' :: rest) =
      if rest.head? = some (ch '\n') then endLines [] rest else ch '\n' :: endLines [] rest := by
  simp [endLines, endLines_eq [ch '\n']]

/-- Characters without a carriage return stay. -/
theorem endLines_append {s : Text} (h : ch '\r' ∉ s) (rest : Text) :
    endLines [] (s ++ rest) = s ++ endLines [] rest := by
  induction s with
  | nil => rfl
  | cons c s ih =>
    rw [List.mem_cons, not_or] at h
    rw [List.cons_append, endLines_cons (Ne.symm h.1), ih h.2, List.cons_append]

theorem endLines_of_not_mem {s : Text} (h : ch '\r' ∉ s) : endLines [] s = s := by
  simpa [endLines] using endLines_append h []

/-- In the place of a carriage return there is a line feed, its own or the one behind it. -/
theorem head?_endLines_return (rest : Text) :
    (endLines [] (ch '\r' :: rest)).head? = some (ch '\n') := by
  rw [endLines_return]
  split
  · rename_i hfeed
    obtain ⟨more, rfl⟩ := List.head?_eq_some_iff.mp hfeed
    rw [endLines_cons (by decide), List.head?_cons]
  · rfl

/-- A front without line feeds has been one before. -/
theorem prefix_of_prefix_endLines {front raw : Text} (hfront : ch '\n' ∉ front)
    (h : front <+: endLines [] raw) : front <+: raw := by
  induction front generalizing raw with
  | nil => exact List.nil_prefix
  | cons c front ih =>
    cases raw with
    | nil => exact absurd (List.prefix_nil.mp h) (List.cons_ne_nil _ _)
    | cons d raw =>
      by_cases hreturn : d = ch '\r'
      · subst hreturn
        obtain ⟨back, hback⟩ := h
        have hhead := head?_endLines_return raw
        rw [← hback, List.cons_append, List.head?_cons, Option.some_inj] at hhead
        exact absurd (hhead ▸ List.mem_cons_self ..) hfront
      · rw [endLines_cons hreturn, List.cons_prefix_cons] at h
        rw [List.cons_prefix_cons]
        exact ⟨h.1, ih (fun hmem => hfront (List.mem_cons_of_mem _ hmem)) h.2⟩

/-- A reference that is resolved behind normalised line ends stands in the text itself, as it holds
no line ends. -/
theorem exists_written_of_resolved? {rest t : Text}
    (h : (endLines [] (ch '&' :: rest)).resolved? = some t) :
    ∃ c back, isXmlChar c = true ∧ ch '&' :: rest = escapeChar c ++ back ∧
      back.length < (ch '&' :: rest).length ∧
      (Text.resolved? (endLines [] back)).map (c :: ·) = some t := by
  have hends := endLines_cons (c := ch '&') (by decide) rest
  obtain ⟨entry, hentry, hstarts⟩ := Text.exists_reference_of_resolved? (hends ▸ h)
  obtain ⟨hwritten, hxml, hne, hreturn, hfeed⟩ := eq_escapeChar_of_mem hentry
  rw [← hends] at hstarts
  obtain ⟨back, hback⟩ := prefix_of_prefix_endLines hfeed hstarts
  refine ⟨entry.1, back, hxml, hwritten ▸ hback.symm, ?_, ?_⟩
  · rw [← hback, List.length_append]
    omega
  · rwa [← hback, endLines_append hreturn, hwritten, Text.resolved?_escapeChar] at h

end Assembly

namespace TextRule

/-- A literal character is read as it is, and a line end as a line feed. -/
theorem readOnto_literal (latin : Bool) {c d : CodePoint} {rest : Text} (hamp : c ≠ ch '&')
    (hfeed : ¬(c = ch '\r' ∧ rest.head? = some (ch '\n')))
    (hd : d = if c = ch '\r' then ch '\n' else c) (read : Text) :
    readOnto latin characterRule none read (c :: rest) =
      if isXmlChar d then readOnto latin characterRule none (d :: read) rest else none := by
  rw [readOnto, if_neg hamp, if_neg (by simpa using hfeed)]
  by_cases hreturn : c = ch '\r'
  · subst hreturn
    rw [if_pos rfl] at hd
    subst hd
    rfl
  · rw [if_neg hreturn] at hd
    subst hd
    cases hxml : isXmlChar d <;> simp [characterRule, hxml, hreturn]

/-- The reader of character data sees the line ends normalised and the references resolved. -/
theorem readOnto_of_resolved? (latin : Bool) {raw t : Text}
    (h : (Assembly.endLines [] raw).resolved? = some t) (read : Text) :
    readOnto latin characterRule none read raw =
      if t.isXml then some (read.reverse ++ t) else none := by
  induction hlength : raw.length using Nat.strong_induction_on generalizing raw t read with
  | h n ih =>
  subst hlength
  -- What is left to do behind the first character of the resolved text.
  have step {d : CodePoint} {back : Text} (hshort : back.length < raw.length)
      (hback : (Text.resolved? (Assembly.endLines [] back)).map (d :: ·) = some t) :
      (if isXmlChar d then readOnto latin characterRule none (d :: read) back else none) =
        if t.isXml then some (read.reverse ++ t) else none := by
    obtain ⟨u, hu, rfl⟩ := Option.map_eq_some_iff.mp hback
    rw [ih back.length hshort hu (d :: read) rfl, Text.isXml, Text.isXml, List.all_cons]
    cases isXmlChar d <;> simp
  cases raw with
  | nil =>
    simp only [Assembly.endLines, List.reverse_nil, Text.resolved?_nil, Option.some_inj] at h
    subst h
    simp [readOnto, Text.isXml]
  | cons c rest =>
    by_cases hamp : c = ch '&'
    · subst hamp
      obtain ⟨d, back, hxml, hwritten, hshort, hback⟩ := Assembly.exists_written_of_resolved? h
      rw [hwritten, readOnto_escapeChar latin hxml, ← step hshort hback, if_pos hxml]
    by_cases hreturn : c = ch '\r'
    · subst hreturn
      rw [Assembly.endLines_return] at h
      by_cases hfeed : rest.head? = some (ch '\n')
      · rw [if_pos hfeed] at h
        rw [← ih rest.length (by simp) h read rfl, readOnto, if_neg (by decide)]
        simp [hfeed]
      · rw [if_neg hfeed, Text.resolved?_cons (by decide)] at h
        rw [readOnto_literal latin (by decide) (fun hboth => hfeed hboth.2) rfl]
        exact step (by simp) h
    · rw [Assembly.endLines_cons hreturn, Text.resolved?_cons hamp] at h
      rw [readOnto_literal latin hamp (fun hboth => hreturn hboth.1) (if_neg hreturn).symm]
      exact step (by simp) h

end TextRule

/-- Line ends and references are dealt with one after the other: the reader gives what the written
references resolve to, if a document may hold its characters and the run does not end a literal
section. -/
theorem characterData_of_resolved? (latin : Bool) {raw t : Text}
    (h : (Assembly.endLines [] raw).resolved? = some t) :
    characterData latin raw = if holdsSectionEnd raw || !t.isXml then none else some t := by
  rw [characterData, TextRule.read, TextRule.readOnto_of_resolved? latin h]
  cases holdsSectionEnd raw <;> cases t.isXml <;> rfl

end Markup

open Markup

/-- What is written for a text, wherever a leaf holds it, has no brackets, quotation marks or
carriage returns, and every ampersand in it starts one of the six references. Resolved behind
normalised line ends, it is the text again, and so it is for the reader just if a document may hold
its characters; no other text is written the same way. -/
theorem escapedWith_reads_back (s : Text) :
    (∀ (depth columns : Nat) (leaf : Leaf), leaf.content? depth columns = some s →
      (writeElements [.element (.ofLeaf depth columns leaf)] []).toText =
        openTag leaf.tag ++ s.escapedWith textReferences ++ closeTag leaf.tag) ∧
    (∀ c ∈ [ch '<', ch '>', ch '"', ch '\'', ch '\r'], c ∉ s.escapedWith textReferences) ∧
    (∀ rest, ch '&' :: rest <:+ s.escapedWith textReferences →
      ∃ entry ∈ writtenReferences, entry.2 <+: ch '&' :: rest) ∧
    (Assembly.endLines [] (s.escapedWith textReferences)).resolved? = some s ∧
    (∀ latin, characterData latin (s.escapedWith textReferences) =
      if s.isXml then some s else none) ∧
    ∀ t : Text, t.escapedWith textReferences = s.escapedWith textReferences → t = s := by
  rw [Text.escapedWith_textReferences]
  have hclean : ∀ c ∈ [ch '<', ch '>', ch '"', ch '\'', ch '\r'], c ∉ s.escaped := by
    intro c hc
    have hall : ∀ c ∈ [ch '<', ch '>', ch '"', ch '\'', ch '\r'], c ∈ referredTo ∧ c ≠ ch '&' := by
      decide
    exact Text.not_mem_escaped (hall c hc).1 (hall c hc).2 s
  have hresolved : (Assembly.endLines [] s.escaped).resolved? = some s := by
    rw [Assembly.endLines_of_not_mem (hclean _ (by decide)), Text.resolved?_escaped]
  refine ⟨?_, hclean, ?_, hresolved, ?_, ?_⟩
  · intro depth columns leaf hcontent
    rw [toText_writeElements, List.flatMap_singleton, Unwritten.text, Element.markup_ofLeaf,
      Leaf.element, hcontent]
    rfl
  · intro rest hrest
    exact Text.exists_reference_of_suffix hrest
  · intro latin
    rw [characterData_of_resolved? latin hresolved, holdsSectionEnd_eq_false (hclean _ (by decide))]
    cases s.isXml <;> rfl
  · intro t ht
    rw [Text.escapedWith_textReferences] at ht
    simpa using congrArg Text.resolved? ht

/-- A text that looks like a reference, with carriage returns behind it. -/
theorem escapedWith_reads_back_lookalike :
    (writeElements [.element (.ofLeaf 0 60 (.string (text "&#13;\r\n\r")))] []).toText =
      text "<string>&amp;#13;&#13;\n&#13;</string>" ∧
    (text "&amp;#13;&#13;\n&#13;").resolved? = some (text "&#13;\r\n\r") ∧
    characterData false (text "&amp;#13;&#13;\n&#13;") = some (text "&#13;\r\n\r") := by
  have hwritten : (text "&#13;\r\n\r").escapedWith textReferences =
      text "&amp;#13;&#13;\n&#13;" := by decide
  obtain ⟨hleaf, -, -, hresolved, hread, -⟩ := escapedWith_reads_back (text "&#13;\r\n\r")
  rw [hwritten] at hleaf hresolved hread
  exact ⟨hleaf 0 60 (.string _) rfl, hresolved, hread false⟩

end PropertyList
