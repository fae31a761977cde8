import PropertyList.Markup.Namespaces
import PropertyList.Proofs.Text.Classes

/-! Tags whose name is a word of small letters and which have no attributes, as all tags inside a
property list are. -/
namespace PropertyList

/-- A word of small letters. -/
def Text.IsWord (s : Text) : Prop := s ≠ [] ∧ ∀ c : Nat, c ∈ s → 0x61 ≤ c ∧ c ≤ 0x7A

instance (s : Text) : Decidable s.IsWord := by unfold Text.IsWord; infer_instance

namespace Text.IsWord

theorem isGraphic {s : Text} (h : s.IsWord) : s.IsGraphic := by
  intro c hc
  have hbounds := h.2 c hc
  omega

theorem ne_of_mem {s : Text} (h : s.IsWord) {c d : Nat} (hc : c ∈ s) (hd : d < 0x61) : c ≠ d := by
  have hbounds := h.2 c hc
  omega

theorem isSpace_eq_false {s : Text} (h : s.IsWord) :
    ∀ c ∈ s, Markup.isSpace c = false := by
  intro c hc
  apply Bool.eq_false_iff.mpr
  intro hspace
  have hbounds := h.2 c hc
  have hcases := isSpace_iff.mp hspace
  omega

end Text.IsWord

namespace Markup

theorem isNameStart_of_small (latin : Bool) {c : Nat} (h : 0x61 ≤ c ∧ c ≤ 0x7A) :
    isNameStart latin c = true := by
  have hascii : c < 0x80 := by omega
  have hletter : isLetter c = true := by
    simp only [isLetter, Bool.or_eq_true, Bool.and_eq_true, decide_eq_true_eq]
    exact .inr h
  rw [isNameStart, if_pos hascii, hletter, Bool.true_or]

theorem isSimpleName_of_isWord (latin : Bool) {s : Text} (h : s.IsWord) :
    isSimpleName latin s = true := by
  cases s with
  | nil => exact absurd rfl h.1
  | cons c s =>
    have hrest : s.all (isNameChar latin) = true := by
      apply List.all_eq_true.mpr
      intro d hd
      rw [isNameChar, isNameStart_of_small latin (h.2 d (List.mem_cons_of_mem _ hd)), Bool.true_or]
    rw [isSimpleName, isNameStart_of_small latin (h.2 c (List.mem_cons_self ..)), hrest]
    rfl

/-- A word has no colon in it. -/
theorem notColon_of_isWord {s : Text} (h : s.IsWord) : ∀ c ∈ s, (c != ch ':') = true := by
  intro c hc
  simpa using h.ne_of_mem hc (show ch ':' < 0x61 by decide)

theorem isQualifiedName_of_isWord (latin : Bool) {s : Text} (h : s.IsWord) :
    isQualifiedName latin s = true := by
  rw [isQualifiedName, takeWhile_of_all (notColon_of_isWord h),
    dropWhile_of_all (notColon_of_isWord h), isSimpleName_of_isWord latin h]
  rfl

namespace Tag

variable (latin : Bool) {s : Text}

theorem notSpace_of_isWord (h : s.IsWord) : ∀ c ∈ s, (!isSpace c) = true := by
  intro c hc
  rw [h.isSpace_eq_false c hc, Bool.not_false]

theorem read?_eq_readOpening (h : s.IsWord) (more : Text) :
    read? latin (s ++ more) = readOpening latin (s ++ more) := by
  cases s with
  | nil => exact absurd rfl h.1
  | cons c s =>
    have hc : c ≠ 0x2F := h.ne_of_mem (List.mem_cons_self ..) (by omega)
    rw [List.cons_append]
    unfold read?
    split
    · rename_i heq
      exact absurd (List.cons.inj heq).1 hc
    · rfl

/-- A start tag with nothing but a name. -/
theorem read?_opening (h : s.IsWord) : read? latin s = some (.opening s [] false) := by
  have hread := read?_eq_readOpening latin h []
  rw [List.append_nil] at hread
  have hlast : (s.getLast? == some (ch '/')) = false := by
    rw [beq_eq_false_iff_ne]
    intro heq
    exact h.ne_of_mem (List.mem_of_getLast? heq) (show ch '/' < 0x61 by decide) rfl
  simp only [hread, readOpening, hlast, Bool.false_eq_true, if_false,
    takeWhile_of_all (notSpace_of_isWord h), dropWhile_of_all (notSpace_of_isWord h),
    isQualifiedName_of_isWord latin h, if_true, readAttributes, List.reverse_nil, Option.map_some]

/-- The tag of an element without content. -/
theorem read?_empty (h : s.IsWord) :
    read? latin (s ++ [ch '/']) = some (.opening s [] true) := by
  have hlast : ((s ++ [ch '/']).getLast? == some (ch '/')) = true := by simp
  simp only [read?_eq_readOpening latin h, readOpening, hlast, if_true, List.dropLast_concat,
    takeWhile_of_all (notSpace_of_isWord h), dropWhile_of_all (notSpace_of_isWord h),
    isQualifiedName_of_isWord latin h, readAttributes, List.reverse_nil, Option.map_some]

theorem read?_closing (h : s.IsWord) : read? latin (ch '/' :: s) = some (.closing s) := by
  change readClosing s = _
  rw [readClosing, takeWhile_of_all (notSpace_of_isWord h), dropWhile_of_all (notSpace_of_isWord h)]
  rfl

end Tag

theorem splitName_of_isWord {s : Text} (h : s.IsWord) : splitName s = ([], s) := by
  rw [splitName, dropWhile_of_all (notColon_of_isWord h)]

/-- Without namespaces and attribute rules, a word names the element that it is. -/
theorem openElement?_of_isWord (latin : Bool) {policy : AttributePolicy} (hrules : policy.rules = [])
    {s : Text} (h : s.IsWord) :
    openElement? latin policy Scope.initial s [] = some ⟨s, [], Scope.initial⟩ := by
  have hdefaults : policy.defaults s [] = [] := by
    rw [AttributePolicy.defaults, AttributePolicy.rulesOf, hrules]
    rfl
  have hname : Scope.initial.elementName? s = some s := by
    rw [Scope.elementName?, splitName_of_isWord h]
    rfl
  simp only [openElement?, List.mapM_nil, List.map_nil, hdefaults]
  simp [hasRepeat, Scope.bindAll?, hname]

end Markup

end PropertyList
