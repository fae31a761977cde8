import PropertyList.Document.Reader
import PropertyList.Proofs.Leaf.Codec
import PropertyList.Proofs.Leaf.RealFront

/-! Texts that a strict reader refuses and of which a lenient one leaves no notice. There are such
texts of three kinds of leaves; a lenient reader leaves a notice of all others, and of every element
that it does not know. -/
namespace PropertyList

namespace Run

variable {α β : Type}

/-- Whether a strict run ends in a fault while the lenient run in its place leaves no notice. -/
def Hides (strict lenient : Run α) : Prop :=
  (∃ fault, strict.outcome = .error (.undecodable fault)) ∧ lenient.notices = []

theorem not_hides_pure (a : α) (lenient : Run α) : ¬ (pure a : Run α).Hides lenient := by
  rintro ⟨⟨fault, hfault⟩, -⟩
  cases hfault

theorem not_hides_fail {failure : Failure} (h : ∀ fault, failure ≠ .undecodable fault)
    (lenient : Run α) : ¬ (Run.fail failure : Run α).Hides lenient := by
  rintro ⟨⟨fault, hfault⟩, -⟩
  exact h fault (Except.error.inj hfault)

theorem not_hides_noting (strict : Run α) (notice : Notice) (a : α) :
    ¬ strict.Hides (noting notice a) := by
  rintro ⟨-, hnotices⟩
  cases hnotices

theorem hides_fault_iff (fault : DecodeFault) (lenient : Run α) :
    (Run.fault fault).Hides lenient ↔ lenient.notices = [] := by
  constructor
  · exact fun h => h.2
  · exact fun h => ⟨⟨fault, rfl⟩, h⟩

/-- A step that always has a result hides nothing and shows nothing. -/
theorem hides_bind_pure_iff {strict lenient : Run α} {f : α → β} :
    (strict >>= fun a => pure (f a)).Hides (lenient >>= fun a => pure (f a)) ↔
      strict.Hides lenient := by
  have hnotices : (lenient >>= fun a => pure (f a)).notices = lenient.notices := by
    rcases lenient with ⟨notices, _ | a⟩
    · rfl
    · simp [bind_ok, pure_def]
  simp only [Hides, hnotices, outcome_bind_eq_error, outcome_pure]
  simp

end Run

theorem decodeInteger_hides_iff {s : Text} :
    (decodeInteger true s).Hides (decodeInteger false s) ↔
      ∃ front, IntegerFront.ofText? s = some front ∧ front.isWhole = false ∧
        (front.isTooLong = true ∨ front.magnitude ≤ maxInteger) := by
  unfold decodeInteger
  cases IntegerFront.ofText? s with
  | none => simp [Run.not_hides_noting]
  | some front =>
    simp only [Option.some.injEq, exists_eq_left', Bool.true_and, Bool.false_and,
      Bool.false_eq_true, if_false, if_true, Bool.not_eq_true']
    by_cases hwhole : front.isWhole = false
    · rw [if_pos hwhole, Run.hides_fault_iff]
      split_ifs with hlong hfits
      · simp [Run.fail, hwhole, hlong]
      · simp [Run.pure_def, hwhole, hfits]
      · simp [Run.noting, hlong, hfits]
    · rw [if_neg hwhole]
      split_ifs
      · simp [Run.not_hides_fail, hwhole]
      · simp [Run.not_hides_pure, hwhole]
      · simp [Run.not_hides_noting, hwhole]

/-- A number ends where it does for a lenient reader. A strict one wants the text to end there too. -/
theorem decodeReal_hides_iff {s : Text} :
    (decodeReal true s).Hides (decodeReal false s) ↔
      ∃ front, RealFront.ofText? s.trim = some front ∧ front.rest ≠ [] := by
  obtain ⟨blanks, -, hfront⟩ := RealFront.exists_ofText?_trim s
  simp only [decodeReal, if_true, Bool.false_eq_true, if_false, hfront]
  cases RealFront.ofText? s.trim with
  | none => simp [Run.not_hides_noting]
  | some front =>
    simp only [Option.map_some, Option.some.injEq, exists_eq_left', RealFront.extend]
    rcases front with ⟨value, _ | ⟨c, rest⟩⟩
    · cases value with
      | none => simp [Run.not_hides_fail]
      | some x => simp [Run.not_hides_pure]
    · simp only [List.isEmpty_cons, Bool.not_false, if_true, Run.hides_fault_iff, ne_eq,
        reduceCtorEq, not_false_eq_true, iff_true]
      cases value with
      | none => rfl
      | some x =>
        dsimp only
        split_ifs
        · rfl
        · rfl

theorem decodeData_hides_iff {s : Text} :
    (decodeData true s).Hides (decodeData false s) ↔
      (∃ fault, Base64.decode true s.compact = .error fault) ∧
        ∃ bytes, Base64.decode false s.compact = .ok bytes := by
  unfold decodeData
  cases Base64.decode true s.compact with
  | ok bytes => simp [Run.not_hides_pure]
  | error fault =>
    cases Base64.decode false s.compact with
    | ok bytes => simp [Run.hides_fault_iff, Run.pure_def]
    | error other => simp [Run.not_hides_noting]

theorem not_hides_decodeDate (s : Text) : ¬ (decodeDate true s).Hides (decodeDate false s) := by
  unfold decodeDate
  cases dateOf? s with
  | none => exact Run.not_hides_noting _ _ _
  | some leaf => exact Run.not_hides_pure _ _

theorem not_hides_titled {α β : Type} (title : Text) (checked : Except (List Issue) α)
    (f : α → β) (lenient : Run β) :
    ¬ (Run.ofExcept (titled title checked) >>= fun a => pure (f a)).Hides lenient := by
  unfold titled
  split
  · exact Run.not_hides_pure _ _
  · split_ifs
    · exact Run.not_hides_fail (by simp) _
    · exact Run.not_hides_fail (by simp) _

/-- A text that is no UTF-8 is dropped with a notice. -/
theorem not_hides_decodeString {β : Type} (tag s : Text) {next : Option Text → Run β}
    (hnext : ∀ s lenient, ¬ (next (some s)).Hides lenient) :
    ¬ (decodeString true tag s >>= next).Hides (decodeString false tag s >>= next) := by
  unfold decodeString
  by_cases hsurrogate : s.any isSurrogate = true
  · rintro ⟨-, hnotices⟩
    simp [hsurrogate, Run.noting, Run.bind_ok] at hnotices
  · simp only [hsurrogate, Bool.false_eq_true, if_false, pure_bind]
    exact hnext s _

namespace Leaf

/-- Whether a lenient reader says nothing of a text that a strict one refuses: an integer with a
minus sign or with more than blanks behind it, unless it is clamped, a real with more than blanks
behind it, and bytes among characters that are passed over. -/
def Hidden (tag s : Text) : Prop :=
  match kindOfTag? tag with
  | some .integer => ∃ front, IntegerFront.ofText? s = some front ∧ front.isWhole = false ∧
      (front.isTooLong = true ∨ front.magnitude ≤ maxInteger)
  | some .real => ∃ front, RealFront.ofText? s.trim = some front ∧ front.rest ≠ []
  | some .data => (∃ fault, Base64.decode true s.compact = .error fault) ∧
      ∃ bytes, Base64.decode false s.compact = .ok bytes
  | _ => False

/-- A strict reader refuses the text of a leaf that a lenient one reads without a notice in the three
ways that were named, and in no other. -/
theorem decode_hides_iff {tag s : Text} :
    (decode true tag s).Hides (decode false tag s) ↔ Hidden tag s := by
  unfold decode Hidden
  cases kindOfTag? tag with
  | none => simp [Run.not_hides_pure]
  | some kind =>
    cases kind with
    | boolean => simp [Run.not_hides_pure]
    | integer => exact Run.hides_bind_pure_iff.trans decodeInteger_hides_iff
    | real => exact Run.hides_bind_pure_iff.trans decodeReal_hides_iff
    | date => exact Run.hides_bind_pure_iff.trans (iff_false_intro (not_hides_decodeDate s))
    | data => exact Run.hides_bind_pure_iff.trans decodeData_hides_iff
    | string =>
      refine iff_false_intro (not_hides_decodeString tag s ?_)
      exact fun s lenient => not_hides_titled _ _ _ lenient
    | key =>
      refine iff_false_intro (not_hides_decodeString tag s ?_)
      exact fun s lenient => not_hides_titled _ _ _ lenient
    | array => simp [Run.not_hides_pure]
    | dict => simp [Run.not_hides_pure]

end Leaf

/-- A lenient reader leaves a notice of an element that it does not know. -/
theorem readElement_hides_iff {tag s : Text} :
    (readElement true tag s).Hides (readElement false tag s) ↔ Leaf.Hidden tag s := by
  unfold readElement
  cases hkind : kindOfTag? tag with
  | none => simp [Run.not_hides_noting, Leaf.Hidden, hkind]
  | some kind => exact Run.hides_bind_pure_iff.trans Leaf.decode_hides_iff

end PropertyList
