import PropertyList.Proofs.Text.Classes
import PropertyList.Markup.Reference

/-! What character data may denote. `Denotes` builds a text from the characters of a run and from
references to single characters; no rule takes in a reference to an entity, so that a run which holds
one denotes nothing. -/
namespace PropertyList.Markup

namespace Reference

/-- The text between ampersand and semicolon stands for a character: it is predefined, or it is the
number of a character that a document may hold. -/
inductive StandsFor : Text → CodePoint → Prop
  | predefined {name : Text} {c : CodePoint} (h : (name, c) ∈ predefined) : StandsFor name c
  | decimal {numeral : Text} (hne : numeral ≠ []) (hdigits : ∀ c ∈ numeral, isDigit c = true)
      (hxml : isXmlChar (numeralValue 10 numeral) = true) :
      StandsFor (ch '#' :: numeral) (numeralValue 10 numeral)
  | hexadecimal {numeral : Text} (hne : numeral ≠ [])
      (hdigits : ∀ c ∈ numeral, isHexDigit c = true)
      (hxml : isXmlChar (numeralValue 16 numeral) = true) :
      StandsFor (ch '#' :: ch 'x' :: numeral) (numeralValue 16 numeral)

theorem eq_of_ofNumeral? {base : Nat} {isNumeral : CodePoint → Bool} {s : Text} {c : CodePoint}
    (h : ofNumeral? base isNumeral s = some (.character c)) :
    s ≠ [] ∧ (∀ d ∈ s, isNumeral d = true) ∧ isXmlChar (numeralValue base s) = true ∧
      c = numeralValue base s := by
  unfold ofNumeral? at h
  simp only [Bool.and_eq_true, Bool.not_eq_true', List.isEmpty_eq_false_iff, List.all_eq_true] at h
  split at h
  · rename_i hchecked
    cases h
    exact ⟨hchecked.1.1, hchecked.1.2, hchecked.2, rfl⟩
  · cases h

theorem standsFor_of_read? {latin : Bool} {body : Text} {c : CodePoint}
    (h : read? latin body = some (.character c)) : StandsFor body c := by
  unfold read? at h
  split at h
  · obtain ⟨hne, hdigits, hxml, rfl⟩ := eq_of_ofNumeral? h
    exact .hexadecimal hne hdigits hxml
  · obtain ⟨hne, hdigits, hxml, rfl⟩ := eq_of_ofNumeral? h
    exact .decimal hne hdigits hxml
  · split at h
    · rename_i found
      cases h
      obtain ⟨front, back, hpredefined, -⟩ := List.lookup_eq_some_iff.mp found
      exact .predefined (by rw [hpredefined]; simp)
    · split at h
      · cases h
      · cases h

/-- A name that refers to a general entity, declared or not. -/
structure NamesEntity (name : Text) : Prop where
  no_end : ch ';' ∉ name
  no_tag : ch '<' ∉ name
  no_number : name.head? ≠ some (ch '#')
  no_predefined : ∀ entry ∈ predefined, entry.1 ≠ name

theorem NamesEntity.not_standsFor {name : Text} (h : NamesEntity name) (c : CodePoint) :
    ¬ StandsFor name c := by
  intro hstands
  cases hstands with
  | predefined hmem => exact h.no_predefined _ hmem rfl
  | decimal => exact h.no_number rfl
  | hexadecimal => exact h.no_number rfl

theorem not_mem_append_numeral {isNumeral : CodePoint → Bool} {front numeral : Text} {d : CodePoint}
    (hfront : d ∉ front) (hd : isNumeral d = false)
    (hnumeral : ∀ c ∈ numeral, isNumeral c = true) : d ∉ front ++ numeral := by
  intro hmem
  rcases List.mem_append.mp hmem with hmem | hmem
  · exact hfront hmem
  · rw [hnumeral d hmem] at hd
    cases hd

/-- Neither the mark that opens a reference nor the one that ends it stands inside. -/
theorem StandsFor.not_mem {body : Text} {c : CodePoint} (h : StandsFor body c) :
    ch '&' ∉ body ∧ ch ';' ∉ body := by
  cases h with
  | predefined hmem =>
    have hall : ∀ entry ∈ Markup.predefined, ch '&' ∉ entry.1 ∧ ch ';' ∉ entry.1 := by decide
    exact hall _ hmem
  | @decimal numeral _ hdigits =>
    change ch '&' ∉ text "#" ++ numeral ∧ ch ';' ∉ text "#" ++ numeral
    constructor
    · exact not_mem_append_numeral (by decide) (by decide) hdigits
    · exact not_mem_append_numeral (by decide) (by decide) hdigits
  | @hexadecimal numeral _ hdigits =>
    change ch '&' ∉ text "#x" ++ numeral ∧ ch ';' ∉ text "#x" ++ numeral
    constructor
    · exact not_mem_append_numeral (by decide) (by decide) hdigits
    · exact not_mem_append_numeral (by decide) (by decide) hdigits

end Reference

open Reference

/-- A run of character data denotes a text: literal characters stand for themselves, line ends for
line feeds, and references for the characters that they name. -/
inductive Denotes : Text → Text → Prop
  | nil : Denotes [] []
  | literal {c : CodePoint} {raw s : Text} (hc : isXmlChar c = true) (hamp : c ≠ ch '&')
      (hreturn : c ≠ ch '\r') (h : Denotes raw s) : Denotes (c :: raw) (c :: s)
  | lineEnd {raw s : Text} (hfeed : raw.head? ≠ some (ch '\n')) (h : Denotes raw s) :
      Denotes (ch '\r' :: raw) (ch '\n' :: s)
  | returnInFront {raw s : Text} (hfeed : raw.head? = some (ch '\n')) (h : Denotes raw s) :
      Denotes (ch '\r' :: raw) s
  | reference {body : Text} {c : CodePoint} {raw s : Text} (hbody : StandsFor body c)
      (h : Denotes raw s) : Denotes (ch '&' :: body ++ ch ';' :: raw) (c :: s)

/-- The characters of a reference that is still read, in their order. -/
def pendingText : Option Text → Text
  | none => []
  | some pending => ch '&' :: pending.reverse

/-- What the reader of character data gives behind the characters `read` is denoted by what is still
to be read. -/
theorem denotes_of_readOnto {latin : Bool} {pending : Option Text} {read raw t : Text}
    (h : TextRule.readOnto latin characterRule pending read raw = some t) :
    ∃ s, Denotes (pendingText pending ++ raw) s ∧ t = read.reverse ++ s := by
  fun_induction TextRule.readOnto latin characterRule pending read raw with
  | case1 read =>
    cases h
    exact ⟨[], .nil, (List.append_nil _).symm⟩
  | case2 => cases h
  | case3 read rest ih => exact ih h
  | case4 read c rest hc hreturn ih =>
    obtain ⟨s, hs, rfl⟩ := ih h
    rw [Bool.and_eq_true, decide_eq_true_eq, decide_eq_true_eq] at hreturn
    obtain ⟨rfl, hfeed⟩ := hreturn
    exact ⟨s, .returnInFront hfeed hs, rfl⟩
  | case5 read c rest hc hreturn d hliteral ih =>
    obtain ⟨s, hs, rfl⟩ := ih h
    rw [Bool.and_eq_true, decide_eq_true_eq, decide_eq_true_eq, not_and] at hreturn
    refine ⟨d :: s, ?_, by simp⟩
    simp only [characterRule] at hliteral
    split at hliteral
    · cases hliteral
    · rename_i hxml
      rw [Bool.not_eq_true', Bool.not_eq_false] at hxml
      by_cases hline : c = ch '\r'
      · subst hline
        cases hliteral
        exact .lineEnd (hreturn rfl) hs
      · rw [if_neg hline] at hliteral
        cases hliteral
        exact .literal hxml hc hline hs
  | case6 => cases h
  | case7 pending read c rest _ ih =>
    obtain ⟨s, hs, rfl⟩ := ih h
    refine ⟨s, ?_, rfl⟩
    simpa [pendingText] using hs
  | case8 pending read c rest hc d href ih =>
    obtain ⟨s, hs, rfl⟩ := ih h
    rw [Decidable.not_not] at hc
    subst hc
    exact ⟨d :: s, .reference (standsFor_of_read? href) hs, by simp⟩
  | case9 pending read c rest _ name _ hskips => cases hskips
  | case10 => cases h
  | case11 => cases h

theorem denotes_of_characterData {latin : Bool} {raw s : Text}
    (h : characterData latin raw = some s) : Denotes raw s := by
  unfold characterData at h
  split at h
  · cases h
  · obtain ⟨t, ht, heq⟩ := denotes_of_readOnto h
    rw [heq]
    exact ht

/-- Two texts in front of the same mark, which stands in neither, are the same. -/
theorem eq_of_append_mark {mark : CodePoint} {s t back rest : Text} (hs : mark ∉ s) (ht : mark ∉ t)
    (h : s ++ mark :: back = t ++ mark :: rest) : s = t := by
  rcases List.append_eq_append_iff.mp h with ⟨more, hmore, hback⟩ | ⟨more, hmore, hback⟩
  · cases more with
    | nil => rw [hmore, List.append_nil]
    | cons c more =>
      cases hback
      exact absurd (by rw [hmore]; simp) ht
  · cases more with
    | nil => rw [hmore, List.append_nil]
    | cons c more =>
      cases hback
      exact absurd (by rw [hmore]; simp) hs

/-- A mark behind a character other than itself is one of the rest. -/
theorem exists_front_of_ne {mark c : CodePoint} (hc : c ≠ mark) {front back rest : Text}
    (h : front ++ mark :: back = c :: rest) : ∃ inner, inner ++ mark :: back = rest := by
  cases front with
  | nil =>
    rw [List.nil_append, List.cons_eq_cons] at h
    exact absurd h.1.symm hc
  | cons d front =>
    rw [List.cons_append, List.cons_eq_cons] at h
    exact ⟨front, h.2⟩

/-- A run that holds a reference to an entity denotes nothing, whatever stands around it. -/
theorem not_denotes_of_namesEntity {name : Text} (hname : NamesEntity name) (front back s : Text) :
    ¬ Denotes (front ++ ch '&' :: name ++ ch ';' :: back) s := by
  intro h
  generalize hraw : front ++ ch '&' :: name ++ ch ';' :: back = raw at h
  rw [List.append_assoc, List.cons_append] at hraw
  induction h generalizing front with
  | nil => simp at hraw
  | literal _ hamp _ _ ih =>
    obtain ⟨inner, hinner⟩ := exists_front_of_ne hamp hraw
    exact ih inner hinner
  | lineEnd _ _ ih =>
    obtain ⟨inner, hinner⟩ := exists_front_of_ne (by decide) hraw
    exact ih inner hinner
  | returnInFront _ _ ih =>
    obtain ⟨inner, hinner⟩ := exists_front_of_ne (by decide) hraw
    exact ih inner hinner
  | @reference body c raw s hbody _ ih =>
    obtain ⟨hamp, hend⟩ := hbody.not_mem
    rw [List.cons_append] at hraw
    cases front with
    | nil =>
      rw [List.nil_append, List.cons_eq_cons] at hraw
      have hsame : name = body := eq_of_append_mark hname.no_end hend hraw.2
      exact hname.not_standsFor c (hsame ▸ hbody)
    | cons d front =>
      rw [List.cons_append, List.cons_eq_cons] at hraw
      -- The reference taken in holds no ampersand, so that it ends in front of the other one.
      rcases List.append_eq_append_iff.mp hraw.2 with ⟨more, hmore, hrest⟩ | ⟨more, hmore, hrest⟩
      · cases more with
        | nil => cases hrest
        | cons e more =>
          rw [List.cons_append, List.cons_eq_cons] at hrest
          refine absurd ?_ hamp
          rw [hmore, hrest.1]
          simp
      · obtain ⟨inner, hinner⟩ := exists_front_of_ne (by decide) hrest.symm
        exact ih inner hinner

end PropertyList.Markup
