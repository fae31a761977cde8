import PropertyList.Markup.Content

/-! Content as it is written: character data, sections and tags, one behind the other. Whatever is
cut into pieces is made up of such segments, and behind segments the cutter stands in character data
again, so that a place in a content can be told without the cutter. -/
namespace PropertyList.Markup

namespace Section

/-- How a section begins. -/
def opening : Section → Text
  | .comment => text "<!--"
  | .instruction => text "<?"
  | .cdata => text "<![CDATA["

/-- How a section ends. -/
def ending : Section → Text
  | .comment => text "-->"
  | .instruction => text "?>"
  | .cdata => text "]]>"

/-- Nothing in a body ends the section sooner. -/
def Admits : Section → Text → Prop
  | .comment, body => ¬ text "--" <:+: body ++ text "-"
  | .instruction, body => ¬ text "?>" <:+: body
  | .cdata, body => ¬ text "]]>" <:+: body

instance : (kind : Section) → (body : Text) → Decidable (kind.Admits body)
  | .comment, body => inferInstanceAs (Decidable (¬ text "--" <:+: body ++ text "-"))
  | .instruction, body => inferInstanceAs (Decidable (¬ text "?>" <:+: body))
  | .cdata, body => inferInstanceAs (Decidable (¬ text "]]>" <:+: body))

end Section

/-- The quotation mark that is open behind a further character of a tag; none if the character ends
the tag. -/
def Cut.quoteBehind? (quote : Option CodePoint) (c : CodePoint) : Option (Option CodePoint) :=
  if c = ch '>' && quote.isNone then none else some (quoteAfter quote c)

/-- A part of a content as it is written. -/
inductive Segment where
  | characters (raw : Text)
  | section (kind : Section) (body : Text)
  | tag (raw : Text)
  deriving DecidableEq, Repr

namespace Segment

def written : Segment → Text
  | .characters raw => raw
  | .section kind body => kind.opening ++ body ++ kind.ending
  | .tag raw => ch '<' :: raw ++ [ch '>']

/-- A segment ends where it says: no markup begins in character data, and nothing ends a section or,
outside of quotation marks, a tag sooner. -/
def Sound : Segment → Prop
  | .characters raw => ch '<' ∉ raw
  | .section kind body => kind.Admits body
  | .tag [] => False
  | .tag (c :: rest) =>
    c ≠ ch '!' ∧ c ≠ ch '?' ∧ c ≠ ch '>' ∧ rest.foldlM Cut.quoteBehind? none = some none

instance : (segment : Segment) → Decidable segment.Sound
  | .characters raw => inferInstanceAs (Decidable (ch '<' ∉ raw))
  | .section kind body => inferInstanceAs (Decidable (kind.Admits body))
  | .tag [] => inferInstanceAs (Decidable False)
  | .tag (c :: rest) =>
    inferInstanceAs (Decidable (c ≠ ch '!' ∧ c ≠ ch '?' ∧ c ≠ ch '>' ∧
      rest.foldlM Cut.quoteBehind? none = some none))

/-- The piece that a segment is cut to. -/
def piece? : Segment → Option Piece
  | .characters raw => some (.characters raw)
  | .section .cdata body => some (.cdata body)
  | .section _ _ => none
  | .tag raw => some (.tag raw)

end Segment

namespace Section

/-- A section ends with the character `c` behind the characters `read`, the last of which comes
first. Two hyphens end a comment, whatever follows. -/
def Stops : Section → Text → CodePoint → Prop
  | .comment, read, _ => ∃ rest, read = 0x2D :: 0x2D :: rest
  | .instruction, read, c => c = ch '>' ∧ ∃ rest, read = 0x3F :: rest
  | .cdata, read, c => c = ch '>' ∧ ∃ rest, read = 0x5D :: 0x5D :: rest

/-- A section has not ended in the characters `read`, the last of which comes first. -/
def Continues (kind : Section) : Text → Prop
  | [] => True
  | c :: read => kind.Continues read ∧ ¬ kind.Stops read c

variable {latin : Bool} {kind : Section} {read : Text} {c : CodePoint}

theorem Continues.of_append {behind : Text} (h : kind.Continues (behind ++ read)) :
    kind.Continues read := by
  induction behind with
  | nil => exact h
  | cons c behind ih => exact ih h.1

theorem step_of_not_stops (h : ¬ kind.Stops read c) :
    kind.step latin read c = .goesOn (c :: read) ∨ kind.step latin read c = .fails := by
  fun_cases kind.step latin read c <;> simp_all [Stops]

theorem step_of_stops (h : kind.Stops read c) :
    kind.step latin read c = .fails ∨
      ∃ body, kind.step latin read c = .closes body ∧ (c :: read).reverse = body ++ kind.ending := by
  have hclosing : ch '>' = 62 := rfl
  fun_cases kind.step latin read c <;> simp_all [Stops, ending, text]

theorem continues_comment : Continues .comment read ↔ ¬ text "--" <:+: read.tail := by
  induction read with
  | nil => simp [Continues, text]
  | cons c read ih =>
    have hmark : text "--" = [0x2D, 0x2D] := rfl
    rw [Continues, ih, hmark]
    cases read <;> grind [Stops, List.infix_cons_iff, List.cons_prefix_iff]

theorem continues_instruction : Continues .instruction read ↔ ¬ text ">?" <:+: read := by
  induction read with
  | nil => simp [Continues, text]
  | cons c read ih =>
    have hmark : text ">?" = [ch '>', 0x3F] := rfl
    rw [Continues, ih, hmark]
    grind [Stops, List.infix_cons_iff, List.cons_prefix_iff]

theorem continues_cdata : Continues .cdata read ↔ ¬ text ">]]" <:+: read := by
  induction read with
  | nil => simp [Continues, text]
  | cons c read ih =>
    have hmark : text ">]]" = [ch '>', 0x5D, 0x5D] := rfl
    rw [Continues, ih, hmark]
    grind [Stops, List.infix_cons_iff, List.cons_prefix_iff]

/-- Nothing ends a section sooner just if it continues up to the last character of its ending. -/
theorem admits_iff {body : Text} :
    kind.Admits body ↔ kind.Continues (body ++ kind.ending.dropLast).reverse := by
  cases kind with
  | comment =>
    rw [continues_comment, Admits, ← List.reverse_infix, List.reverse_append, List.reverse_append]
    rfl
  | instruction =>
    rw [continues_instruction, Admits, ← List.reverse_infix, List.reverse_append]
    simp [ending, text, List.infix_cons_iff, List.cons_prefix_iff]
  | cdata =>
    rw [continues_cdata, Admits, ← List.reverse_infix, List.reverse_append]
    simp [ending, text, List.infix_cons_iff, List.cons_prefix_iff]

end Section

namespace Cut

variable {latin : Bool} {cut : Cut}

/-- Behind a segment the cutter stands in character data, unless it has failed. -/
def IsBetween (cut : Cut) : Prop := (∃ read, cut.state = .characters read) ∨ cut.state = .failed

theorem foldl_failed (h : cut.state = .failed) (s : Text) : s.foldl (step latin) cut = cut := by
  induction s with
  | nil => rfl
  | cons c s ih =>
    have hstep : step latin cut c = cut := by rw [step, h]
    rw [List.foldl_cons, hstep, ih]

theorem foldl_characters {s : Text} (h : ch '<' ∉ s) (read : Text) (pieces : List Piece) :
    s.foldl (step latin) ⟨.characters read, pieces⟩ = ⟨.characters (s.reverse ++ read), pieces⟩ := by
  induction s generalizing read with
  | nil => rfl
  | cons c s ih =>
    rw [List.mem_cons, not_or] at h
    have hstep : step latin ⟨.characters read, pieces⟩ c = ⟨.characters (c :: read), pieces⟩ := by
      rw [step]
      exact if_neg fun heq => h.1 heq.symm
    rw [List.foldl_cons, hstep, ih h.2]
    simp

theorem step_section (kind : Section) (read : Text) (pieces : List Piece) (c : CodePoint) :
    step latin ⟨.section kind read, pieces⟩ c =
      match kind.step latin read c with
      | .goesOn read => ⟨.section kind read, pieces⟩
      | .closes body => ⟨.characters [], (Segment.section kind body).piece?.toList ++ pieces⟩
      | .fails => ⟨.failed, pieces⟩ := by
  cases hstep : kind.step latin read c with
  | closes body => cases kind <;> simp [step, hstep, Segment.piece?]
  | _ => simp [step, hstep]

/-- A section that continues is read on, unless a character may not stand in it. -/
theorem foldl_section {kind : Section} {s read : Text} (h : kind.Continues (s.reverse ++ read))
    (pieces : List Piece) :
    s.foldl (step latin) ⟨.section kind read, pieces⟩ = ⟨.section kind (s.reverse ++ read), pieces⟩ ∨
      (s.foldl (step latin) ⟨.section kind read, pieces⟩).state = .failed := by
  induction s generalizing read with
  | nil => exact .inl rfl
  | cons c s ih =>
    rw [List.reverse_cons, List.append_assoc, List.singleton_append] at h
    rw [List.foldl_cons, List.reverse_cons, List.append_assoc, List.singleton_append, step_section]
    rcases Section.step_of_not_stops h.of_append.2 with hstep | hstep
    · rw [hstep]
      exact ih h
    · right
      rw [hstep]
      exact congrArg state (foldl_failed rfl s)

theorem foldl_tag {s read : Text} {quote after : Option CodePoint} (pieces : List Piece)
    (h : s.foldlM quoteBehind? quote = some after) :
    s.foldl (step latin) ⟨.tag quote read, pieces⟩ = ⟨.tag after (s.reverse ++ read), pieces⟩ := by
  induction s generalizing quote read with
  | nil =>
    cases h
    rfl
  | cons c s ih =>
    rw [List.foldlM_cons] at h
    obtain ⟨next, hnext, hrest⟩ := Option.bind_eq_some_iff.mp h
    unfold quoteBehind? at hnext
    split at hnext
    · cases hnext
    · rename_i hopen
      cases hnext
      have hstep : step latin ⟨.tag quote read, pieces⟩ c =
          ⟨.tag (quoteAfter quote c) (c :: read), pieces⟩ := by
        rw [step]
        exact if_neg hopen
      rw [List.foldl_cons, hstep, ih hrest]
      simp

/-- A tag is a piece behind the characters in front of it. -/
theorem foldl_written_tag {raw : Text} (h : (Segment.tag raw).Sound) (read : Text)
    (pieces : List Piece) :
    (Segment.tag raw).written.foldl (step latin) ⟨.characters read, pieces⟩ =
      ⟨.characters [], .tag raw :: .characters read.reverse :: pieces⟩ := by
  cases raw with
  | nil => exact h.elim
  | cons c rest =>
    obtain ⟨hbang, hmark, hclosing, hquotes⟩ := h
    have hopening : step latin ⟨.characters read, pieces⟩ (ch '<') =
        ⟨.afterOpening, .characters read.reverse :: pieces⟩ := rfl
    have hfirst : step latin ⟨.afterOpening, .characters read.reverse :: pieces⟩ c =
        ⟨.tag none [c], .characters read.reverse :: pieces⟩ := by
      simp [step, hbang, hmark, hclosing]
    rw [Segment.written, List.cons_append, List.cons_append, List.foldl_cons, List.foldl_cons,
      hopening, hfirst, List.foldl_append, foldl_tag _ hquotes]
    simp [step]

variable (latin) in
/-- A sound segment leads the cutter from character data to character data. -/
theorem IsBetween.foldl_written (h : cut.IsBetween) {segment : Segment} (hsound : segment.Sound) :
    (segment.written.foldl (step latin) cut).IsBetween := by
  rcases h with ⟨read, hstate⟩ | hfailed
  · obtain ⟨state, pieces⟩ := cut
    cases hstate
    cases segment with
    | characters raw => exact .inl ⟨_, by rw [Segment.written, foldl_characters hsound]⟩
    | «section» kind body =>
      have hopening : kind.opening.foldl (step latin) ⟨.characters read, pieces⟩ =
          ⟨.section kind [], .characters read.reverse :: pieces⟩ := by
        cases kind <;> rfl
      have hending : kind.ending = kind.ending.dropLast ++ [ch '>'] := by cases kind <;> rfl
      have hcontinues := Section.admits_iff.mp hsound
      rw [← List.append_nil (List.reverse _)] at hcontinues
      rw [Segment.written, hending, List.append_assoc, List.foldl_append, hopening,
        ← List.append_assoc, List.foldl_append]
      rcases foldl_section hcontinues _ with hread | hfailed
      · have hstops : kind.Stops ((body ++ kind.ending.dropLast).reverse ++ []) (ch '>') := by
          cases kind
          · exact ⟨body.reverse, by simp [Section.ending, text]⟩
          · exact ⟨rfl, body.reverse, by simp [Section.ending, text]⟩
          · exact ⟨rfl, body.reverse, by simp [Section.ending, text]⟩
        rw [hread, List.foldl_cons, List.foldl_nil, step_section]
        rcases Section.step_of_stops hstops with hstep | ⟨found, hstep, -⟩
        · rw [hstep]
          exact .inr rfl
        · rw [hstep]
          exact .inl ⟨[], rfl⟩
      · rw [foldl_failed hfailed]
        exact .inr hfailed
    | tag raw =>
      rw [foldl_written_tag hsound]
      exact .inl ⟨[], rfl⟩
  · rw [foldl_failed hfailed]
    exact .inr hfailed

variable (latin) in
theorem IsBetween.foldl_segments (h : cut.IsBetween) {segments : List Segment}
    (hsound : ∀ segment ∈ segments, segment.Sound) :
    ((segments.flatMap Segment.written).foldl (step latin) cut).IsBetween := by
  induction segments generalizing cut with
  | nil => exact h
  | cons segment segments ih =>
    rw [List.forall_mem_cons] at hsound
    rw [List.flatMap_cons, List.foldl_append]
    exact ih (h.foldl_written latin hsound.1) hsound.2

end Cut
end PropertyList.Markup
