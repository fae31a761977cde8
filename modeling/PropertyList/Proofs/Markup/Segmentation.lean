import PropertyList.Proofs.Markup.Segment

/-! Content cut into segments. What the cutter has read is made up of sound segments and of what it
still reads, and its pieces are those of the segments, so that a content that is cut to the end is
made up of segments alone. -/
namespace PropertyList.Markup

/-- What a cutter has read behind the last segment. -/
def CutState.rest : CutState → Text
  | .characters read => read.reverse
  | .afterOpening => text "<"
  | .afterBang read => text "<!" ++ read
  | .section kind read => kind.opening ++ read.reverse
  | .tag _ read => ch '<' :: read.reverse
  | .failed => []

/-- What a cutter still reads may become a segment. -/
def CutState.Opens : CutState → Prop
  | .characters read => ch '<' ∉ read
  | .section kind read => kind.Continues read
  | .tag quote read =>
    ∃ c s, read.reverse = c :: s ∧ c ≠ ch '!' ∧ c ≠ ch '?' ∧ c ≠ ch '>' ∧
      s.foldlM Cut.quoteBehind? none = some quote
  | _ => True

namespace Section

variable {kind : Section} {read : Text} {c : CodePoint}

theorem opening_of_opened? (h : opened? read = some kind) : kind.opening = text "<!" ++ read := by
  unfold opened? at h
  split at h
  · rename_i hread
    cases h
    rw [hread]
    rfl
  · split at h
    · rename_i hread
      cases h
      rw [hread]
      rfl
    · cases h

/-- Where a section closes, nothing has ended it sooner. -/
theorem Continues.admits {body : Text} (h : kind.Continues read)
    (hread : (c :: read).reverse = body ++ kind.ending) : kind.Admits body := by
  rw [admits_iff]
  have hending : kind.ending ≠ [] := by cases kind <;> decide
  have hdrop : read.reverse = body ++ kind.ending.dropLast := by
    have hlast := congrArg List.dropLast hread
    rwa [List.reverse_cons, List.dropLast_concat, List.dropLast_append_of_ne_nil hending] at hlast
  rwa [← hdrop, List.reverse_reverse]

end Section

namespace Cut

variable {latin : Bool} {cut : Cut} {s : Text}

/-- A text was read as segments, with the pieces of these, and as the rest behind them. -/
structure IsSegmented (cut : Cut) (s : Text) (segments : List Segment) : Prop where
  sound : ∀ segment ∈ segments, segment.Sound
  pieces : cut.pieces.reverse = segments.filterMap Segment.piece?
  text : s = segments.flatMap Segment.written ++ cut.state.rest
  opens : cut.state.Opens

/-- A cutter fails, or it has read segments. -/
def Covers (cut : Cut) (s : Text) : Prop :=
  cut.state = .failed ∨ ∃ segments, cut.IsSegmented s segments

theorem covers_start : start.Covers [] :=
  .inr ⟨[], by simp, rfl, rfl, by simp [start, CutState.Opens]⟩

theorem covers_failed (pieces : List Piece) (s : Text) : Covers ⟨.failed, pieces⟩ s := .inl rfl

variable {segments : List Segment} {state next : CutState} {pieces : List Piece} {c : CodePoint}

/-- A further character of what is still read. -/
theorem IsSegmented.goesOn (h : IsSegmented ⟨state, pieces⟩ s segments)
    (hrest : next.rest = state.rest ++ [c]) (hopens : next.Opens) :
    Covers ⟨next, pieces⟩ (s ++ [c]) := by
  refine .inr ⟨segments, h.sound, h.pieces, ?_, hopens⟩
  rw [h.text, List.append_assoc, hrest]

/-- A character with which a segment ends. -/
theorem IsSegmented.ends (h : IsSegmented ⟨state, pieces⟩ s segments) (segment : Segment)
    (hwritten : segment.written ++ next.rest = state.rest ++ [c]) (hsound : segment.Sound)
    (hopens : next.Opens) : Covers ⟨next, segment.piece?.toList ++ pieces⟩ (s ++ [c]) := by
  refine .inr ⟨segments ++ [segment], ?_, ?_, ?_, hopens⟩
  · simpa [or_imp, forall_and] using ⟨h.sound, hsound⟩
  · rw [List.filterMap_append, ← h.pieces]
    cases hpiece : segment.piece? <;> simp [hpiece]
  · rw [h.text, List.append_assoc, ← hwritten]
    simp

variable (latin) in
theorem Covers.step (h : cut.Covers s) (c : CodePoint) : (cut.step latin c).Covers (s ++ [c]) := by
  rcases h with hfailed | ⟨segments, h⟩
  · left
    rw [Cut.step, hfailed]
    exact hfailed
  · obtain ⟨state, pieces⟩ := cut
    have hopens := h.opens
    cases state with
    | characters read =>
      simp only [Cut.step]
      split
      · rename_i hc
        refine h.ends (.characters read.reverse) ?_ ?_ trivial
        · rw [hc]
          rfl
        · exact fun hmem => hopens (List.mem_reverse.mp hmem)
      · rename_i hc
        refine h.goesOn (by simp [CutState.rest]) ?_
        intro hmem
        rcases List.mem_cons.mp hmem with heq | hmem
        · exact hc heq.symm
        · exact hopens hmem
    | afterOpening =>
      simp only [Cut.step]
      split
      · rename_i hc
        exact h.goesOn (by rw [hc]; rfl) trivial
      · rename_i hbang
        split
        · rename_i hc
          exact h.goesOn (by rw [hc]; rfl) trivial
        · rename_i hmark
          split
          · exact covers_failed _ _
          · rename_i hclosing
            exact h.goesOn rfl ⟨c, [], rfl, hbang, hmark, hclosing, rfl⟩
    | afterBang read =>
      simp only [Cut.step]
      split
      · rename_i kind hkind
        exact h.goesOn (by simp [CutState.rest, Section.opening_of_opened? hkind]) trivial
      · split
        · exact h.goesOn (by simp [CutState.rest]) trivial
        · exact covers_failed _ _
    | «section» kind read =>
      rw [step_section]
      by_cases hstops : kind.Stops read c
      · rcases Section.step_of_stops hstops with hstep | ⟨body, hstep, hread⟩
        · rw [hstep]
          exact covers_failed _ _
        · rw [hstep]
          refine h.ends (.section kind body) ?_ (hopens.admits hread) (by simp [CutState.Opens])
          rw [Segment.written, List.append_assoc kind.opening, ← hread]
          simp [CutState.rest]
      · rcases Section.step_of_not_stops hstops with hstep | hstep
        · rw [hstep]
          exact h.goesOn (by simp [CutState.rest]) ⟨hopens, hstops⟩
        · rw [hstep]
          exact covers_failed _ _
    | tag quote read =>
      obtain ⟨first, body, hread, hbang, hmark, hclosing, hquotes⟩ := hopens
      simp only [Cut.step]
      split
      · rename_i hc
        rw [Bool.and_eq_true, decide_eq_true_eq, Option.isNone_iff_eq_none] at hc
        obtain ⟨rfl, rfl⟩ := hc
        refine h.ends (.tag read.reverse) ?_ ?_ (by simp [CutState.Opens])
        · simp [Segment.written, CutState.rest]
        · rw [hread]
          exact ⟨hbang, hmark, hclosing, hquotes⟩
      · rename_i hc
        refine h.goesOn (by simp [CutState.rest]) ⟨first, body ++ [c], ?_, hbang, hmark, hclosing, ?_⟩
        · rw [List.reverse_cons, hread, List.cons_append]
        · have hlast : quoteBehind? quote c = some (quoteAfter quote c) := if_neg hc
          simp [List.foldlM_append, hquotes, hlast]
    | failed => exact .inl rfl

variable (latin) in
theorem Covers.foldl (h : cut.Covers s) (t : Text) :
    (t.foldl (Cut.step latin) cut).Covers (s ++ t) := by
  induction t generalizing cut s with
  | nil => rwa [List.append_nil]
  | cons c t ih =>
    have hrest := ih (h.step latin c)
    rwa [List.append_assoc] at hrest

/-- A content that is cut is made up of segments, and its pieces are those of the segments. -/
theorem exists_segments_of_pieces? {found : List Piece} (h : pieces? latin s = some found) :
    ∃ segments : List Segment, (∀ segment ∈ segments, segment.Sound) ∧
      s = segments.flatMap Segment.written ∧ found = segments.filterMap Segment.piece? := by
  have hcovers := covers_start.foldl latin s
  rw [List.nil_append] at hcovers
  unfold pieces? at h
  generalize s.foldl (Cut.step latin) start = cut at h hcovers
  obtain ⟨state, pieces⟩ := cut
  cases state with
  | characters read =>
    cases h
    rcases hcovers with hfailed | ⟨segments, hsegments⟩
    · cases hfailed
    · refine ⟨segments ++ [.characters read.reverse], ?_, ?_, ?_⟩
      · have hlast : (Segment.characters read.reverse).Sound := by
          intro hmem
          exact hsegments.opens (List.mem_reverse.mp hmem)
        simpa [or_imp, forall_and] using ⟨hsegments.sound, hlast⟩
      · rw [hsegments.text]
        simp [CutState.rest, Segment.written]
      · rw [List.reverse_cons, hsegments.pieces]
        simp [Segment.piece?]
  | _ => cases h

variable (latin) in
theorem pieces_suffix_step (cut : Cut) (c : CodePoint) : cut.pieces <:+ (cut.step latin c).pieces := by
  fun_cases cut.step latin c <;> grind

variable (latin) in
theorem pieces_suffix (cut : Cut) (s : Text) :
    cut.pieces <:+ (s.foldl (Cut.step latin) cut).pieces := by
  induction s generalizing cut with
  | nil => exact List.suffix_rfl
  | cons c s ih => exact (pieces_suffix_step latin cut c).trans (ih _)

theorem eq_of_finish {found : List Piece} (h : cut.finish = some found) :
    ∃ read, cut.state = .characters read ∧ found = (.characters read.reverse :: cut.pieces).reverse := by
  unfold finish at h
  split at h
  · rename_i read hstate
    cases h
    exact ⟨read, hstate, rfl⟩
  · cases h

/-- Characters that were read are the front of a piece. -/
theorem exists_characters_mem {read : Text} {found : List Piece}
    (h : (s.foldl (Cut.step latin) ⟨.characters read, pieces⟩).finish = some found) :
    ∃ more, .characters (read.reverse ++ more) ∈ found := by
  induction s generalizing read with
  | nil =>
    obtain ⟨after, hstate, rfl⟩ := eq_of_finish h
    cases hstate
    exact ⟨[], by simp⟩
  | cons c s ih =>
    rw [List.foldl_cons] at h
    by_cases hc : c = ch '<'
    · subst hc
      obtain ⟨after, -, rfl⟩ := eq_of_finish h
      have hstep : Cut.step latin ⟨.characters read, pieces⟩ (ch '<') =
          ⟨.afterOpening, .characters read.reverse :: pieces⟩ := rfl
      rw [hstep]
      have hkept := (pieces_suffix latin ⟨.afterOpening, .characters read.reverse :: pieces⟩ s).mem
        (List.mem_cons_self ..)
      refine ⟨[], ?_⟩
      rw [List.append_nil, List.mem_reverse]
      exact List.mem_cons_of_mem _ hkept
    · have hstep : Cut.step latin ⟨.characters read, pieces⟩ c = ⟨.characters (c :: read), pieces⟩ :=
        if_neg hc
      rw [hstep] at h
      obtain ⟨more, hmore⟩ := ih h
      exact ⟨c :: more, by simpa using hmore⟩

/-- What stands in character data behind segments is part of one piece. -/
theorem exists_characters_of_pieces? {segments : List Segment} {found : List Piece}
    (hsound : ∀ segment ∈ segments, segment.Sound) {raw more : Text} (hraw : ch '<' ∉ raw)
    (h : pieces? latin (segments.flatMap Segment.written ++ (raw ++ more)) = some found) :
    ∃ front back, .characters (front ++ raw ++ back) ∈ found := by
  have hbetween : start.IsBetween := .inl ⟨[], rfl⟩
  rw [pieces?, List.foldl_append, List.foldl_append] at h
  rcases hbetween.foldl_segments latin hsound with ⟨read, hstate⟩ | hfailed
  · generalize (segments.flatMap Segment.written).foldl (Cut.step latin) start = cut at h hstate
    obtain ⟨state, pieces⟩ := cut
    cases hstate
    rw [foldl_characters hraw] at h
    obtain ⟨back, hback⟩ := exists_characters_mem h
    exact ⟨read.reverse, back, by simpa using hback⟩
  · rw [foldl_failed hfailed, foldl_failed hfailed, finish, hfailed] at h
    cases h

end Cut

end PropertyList.Markup
