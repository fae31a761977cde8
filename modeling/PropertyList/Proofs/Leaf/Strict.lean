import PropertyList.Proofs.Leaf.Codec
import PropertyList.Proofs.Leaf.RealFront

/-! Strict and lenient readers of leaves. What a strict reader accepts, a lenient one reads in the
same way and without a notice, although it takes another path through most texts. -/
namespace PropertyList

namespace Base64

/-- A strict reader stops at more texts than a tolerant one, and takes the same steps up to there. -/
theorem readOn_of_strict {state : State} {s : Text} {bytes : Bytes}
    (h : readOn true state s = .ok bytes) : readOn false state s = .ok bytes := by
  induction s generalizing state with
  | nil => exact h
  | cons c rest ih =>
    rw [readOn] at h ⊢
    by_cases hpad : c = pad
    · rw [if_pos hpad] at h ⊢
      split at h
      · rename_i hcomplete
        rw [if_pos hcomplete]
        split at h
        · cases h
        · exact h
      · rename_i hopen
        rw [if_neg hopen]
        exact ih h
    · rw [if_neg hpad] at h ⊢
      split at h
      · cases h
      · split at h
        · cases h
        · exact ih h

theorem decode_of_strict {s : Text} {bytes : Bytes} (h : decode true s = .ok bytes) :
    decode false s = .ok bytes := by
  unfold decode at h ⊢
  split at h
  · cases h
  · split at h
    · cases h
    · rename_i hascii _
      rw [if_neg hascii]
      exact readOn_of_strict h

end Base64

theorem decodeData_refines (s : Text) : (decodeData true s).Refines (decodeData false s) := by
  intro bytes hread
  rw [decodeData] at hread
  split at hread
  · rename_i found hfound
    cases hread
    rw [decodeData, Base64.decode_of_strict hfound]
  · simp at hread

theorem decodeDate_refines (s : Text) : (decodeDate true s).Refines (decodeDate false s) := by
  unfold decodeDate
  cases dateOf? s with
  | none => exact .of_error rfl _
  | some leaf => exact .of_pure leaf

theorem decodeInteger_refines (s : Text) :
    (decodeInteger true s).Refines (decodeInteger false s) := by
  unfold decodeInteger
  cases IntegerFront.ofText? s with
  | none => exact .of_error rfl _
  | some front =>
    dsimp only
    split
    · exact .of_error rfl _
    · simp only [Bool.false_and, Bool.false_eq_true, if_false]
      split
      · exact .of_error rfl _
      · split
        · exact .of_pure _
        · exact .of_error rfl _

theorem isSeparator_of_isXmlChar {c : Nat} (h : isXmlChar c = true) : isSeparator c = false := by
  have hxml := isXmlChar_iff.mp h
  simp only [isSeparator, Bool.and_eq_false_iff, decide_eq_false_iff_not]
  change ¬ 0x1C ≤ c ∨ ¬ c ≤ 0x1F
  omega

/-- No text of a document opens with a separator of fields or records. -/
theorem Text.isSeparator_of_isXml {s : Text} (h : s.isXml = true) :
    (s.takeWhile isBlank).any isSeparator = false := by
  apply List.any_eq_false.mpr
  intro c hc
  have hxml : isXmlChar c = true := List.all_eq_true.mp h c (List.takeWhile_subset _ hc)
  simp [isSeparator_of_isXmlChar hxml]

/-- A real that fills a trimmed text is the front of the text with its blanks. -/
theorem decodeReal_refines {s : Text} (h : s.isXml = true) :
    (decodeReal true s).Refines (decodeReal false s) := by
  intro x hread
  obtain ⟨blanks, -, hfront⟩ := RealFront.exists_ofText?_trim s
  simp only [decodeReal, if_true] at hread
  split at hread
  · simp at hread
  · rename_i front htrim
    split at hread
    · simp at hread
    · split at hread
      · rename_i y hvalue
        cases hread
        simp [decodeReal, hfront, htrim, RealFront.extend, hvalue, Text.isSeparator_of_isXml h]
      · simp at hread

theorem decodeString_refines (tag s : Text) :
    (decodeString true tag s).Refines (decodeString false tag s) := by
  unfold decodeString
  split
  · exact .of_error rfl _
  · exact .of_pure _

/-- The strict reader of leaves refines the lenient one on the texts that a document holds. -/
theorem Leaf.decode_refines (tag : Text) {s : Text} (h : s.isXml = true) :
    (Leaf.decode true tag s).Refines (Leaf.decode false tag s) := by
  unfold Leaf.decode
  split
  · exact .of_pure _
  · exact (decodeInteger_refines s).bind fun n => .of_pure _
  · exact (decodeReal_refines h).bind fun x => .of_pure _
  · exact (decodeDate_refines s).bind fun leaf => .of_pure _
  · exact (decodeData_refines s).bind fun bytes => .of_pure _
  · apply (decodeString_refines tag s).bind
    intro found
    cases found with
    | none => exact .of_pure _
    | some s => exact (Run.Refines.of_ofExcept _).bind fun leaf => .of_pure _
  · apply (decodeString_refines tag s).bind
    intro found
    cases found with
    | none => exact .of_pure _
    | some s => exact (Run.Refines.of_ofExcept _).bind fun leaf => .of_pure _
  · exact .of_pure _

section Details

/-- Whether a notice is about less than a whole document. -/
def Notice.IsDetail : Notice → Prop
  | .unparsable _ => False
  | _ => True

/-- Whether a failure is about less than a whole document. -/
def Failure.IsDetail : Failure → Prop
  | .unparsable _ _ => False
  | _ => True

/-- A run that looks at the parts of a document. -/
abbrev Run.Details {α : Type} (run : Run α) : Prop := run.Within Notice.IsDetail Failure.IsDetail

open Run.Within

variable (strict : Bool)

/-- A fault of a strict reader, and the notice that a lenient one leaves in its place. -/
theorem fault_or_noting_details {α : Type} (fault : DecodeFault) {notice : Notice}
    (h : notice.IsDetail) (a : α) :
    (if strict then Run.fault fault else Run.noting notice a).Details := by
  split
  · exact of_fail trivial
  · exact of_noting h a

theorem decodeInteger_details (s : Text) : (decodeInteger strict s).Details := by
  unfold decodeInteger
  split
  · exact fault_or_noting_details strict _ (by trivial) 0
  · split
    · exact of_fail trivial
    · split
      · exact of_fail trivial
      · split
        · exact of_pure _
        · exact fault_or_noting_details strict _ (by trivial) _

theorem decodeReal_details (s : Text) : (decodeReal strict s).Details := by
  unfold decodeReal
  split
  · split
    · exact of_fail trivial
    · split
      · exact of_fail trivial
      · split
        · exact of_pure _
        · exact of_fail trivial
  · split
    · exact of_noting trivial _
    · split
      · split
        · exact of_fail trivial
        · exact of_pure _
      · exact of_fail trivial

theorem decodeString_details (tag s : Text) : (decodeString strict tag s).Details := by
  unfold decodeString
  split
  · exact fault_or_noting_details strict _ (by trivial) none
  · exact of_pure _

theorem decodeData_details (s : Text) : (decodeData strict s).Details := by
  unfold decodeData
  split
  · exact of_pure _
  · exact fault_or_noting_details strict _ (by trivial) []

theorem decodeDate_details (s : Text) : (decodeDate strict s).Details := by
  unfold decodeDate
  split
  · exact of_pure _
  · exact fault_or_noting_details strict _ (by trivial) _

theorem titled_details {α : Type} (title : Text) (checked : Except (List Issue) α) :
    (Run.ofExcept (titled title checked)).Details := by
  unfold titled
  split
  · exact of_pure _
  · split
    · exact of_fail trivial
    · exact of_fail trivial

theorem Leaf.decode_details (tag s : Text) : (Leaf.decode strict tag s).Details := by
  unfold Leaf.decode
  split
  · exact of_pure _
  · exact (decodeInteger_details strict s).bind fun n => of_pure _
  · exact (decodeReal_details strict s).bind fun x => of_pure _
  · exact (decodeDate_details strict s).bind fun leaf => of_pure _
  · exact (decodeData_details strict s).bind fun bytes => of_pure _
  · apply (decodeString_details strict tag s).bind
    intro found
    cases found with
    | none => exact of_pure _
    | some s => exact (titled_details _ _).bind fun leaf => of_pure _
  · apply (decodeString_details strict tag s).bind
    intro found
    cases found with
    | none => exact of_pure _
    | some s => exact (titled_details _ _).bind fun leaf => of_pure _
  · exact of_pure _

end Details

end PropertyList
