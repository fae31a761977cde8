import Mathlib.Data.Int.Notation
import Mathlib.Tactic.SplitIfs
import PropertyList.Failure

/-! Checked constructors of leaves. They accept just the payloads that a property list admits, and
keep them. -/
namespace PropertyList

theorem rangeProblem?_eq_none {least greatest n : ℤ} :
    rangeProblem? least greatest n = none ↔ least ≤ n ∧ n ≤ greatest := by
  unfold rangeProblem?
  split_ifs with hleast hgreatest
  · simp only [false_iff]
    omega
  · simp only [false_iff]
    omega
  · simp only [true_iff]
    omega

theorem characterProblem?_eq_none {s : Text} :
    characterProblem? s = none ↔ s.isXml = true := by
  rw [characterProblem?, Option.map_eq_none_iff, Text.firstForbidden, List.find?_eq_none]
  constructor
  · intro h
    apply List.all_eq_true.mpr
    intro c hc
    obtain ⟨i, hi⟩ := List.mem_iff_getElem?.mp hc
    simpa using h (c, i) (List.mem_zipIdx_iff_getElem?.mpr hi)
  · intro h p hp
    have hc : isXmlChar p.1 = true := List.all_eq_true.mp h p.1 (List.fst_mem_of_mem_zipIdx hp)
    simp [hc]

theorem titled_eq_ok {α : Type} {title : Text} {checked : Except (List Issue) α} {a : α} :
    titled title checked = .ok a ↔ checked = .ok a := by
  unfold titled
  split
  · simp
  · split_ifs <;> simp

namespace Leaf

theorem checked_eq_ok {issues : List Issue} {leaf found : Leaf} :
    checked issues leaf = .ok found ↔ issues = [] ∧ leaf = found := by
  unfold checked
  split_ifs with h
  · simp [List.isEmpty_iff.mp h]
  · simpa using fun hnil => absurd (List.isEmpty_iff.mpr hnil) h

theorem ofString_eq_ok {s : Text} {leaf : Leaf} :
    ofString s = .ok leaf ↔ s.isXml = true ∧ .string s = leaf := by
  rw [ofString, checked_eq_ok, Option.toList_eq_nil_iff, Option.map_eq_none_iff,
    characterProblem?_eq_none]

theorem ofKey_eq_ok {s : Text} {leaf : Leaf} :
    ofKey s = .ok leaf ↔ s.isXml = true ∧ .key s = leaf := by
  rw [ofKey, checked_eq_ok, Option.toList_eq_nil_iff, Option.map_eq_none_iff,
    characterProblem?_eq_none]

theorem ofDate_eq_ok {seconds microseconds : ℤ} {leaf : Leaf} :
    ofDate seconds microseconds = .ok leaf ↔
      (minSeconds ≤ seconds ∧ seconds ≤ maxSeconds) ∧
        (0 ≤ microseconds ∧ microseconds ≤ maxMicroseconds) ∧
        .date ⟨seconds, microseconds.toNat⟩ = leaf := by
  rw [ofDate, checked_eq_ok, List.append_eq_nil_iff, Option.toList_eq_nil_iff,
    Option.toList_eq_nil_iff, Option.map_eq_none_iff, Option.map_eq_none_iff,
    rangeProblem?_eq_none, rangeProblem?_eq_none, and_assoc]

theorem valid_of_ofString {s : Text} {leaf : Leaf} (h : ofString s = .ok leaf) : leaf.Valid := by
  obtain ⟨hxml, rfl⟩ := ofString_eq_ok.mp h
  exact hxml

theorem valid_of_ofKey {s : Text} {leaf : Leaf} (h : ofKey s = .ok leaf) : leaf.Valid := by
  obtain ⟨hxml, rfl⟩ := ofKey_eq_ok.mp h
  exact hxml

theorem valid_of_ofDate {seconds microseconds : ℤ} {leaf : Leaf}
    (h : ofDate seconds microseconds = .ok leaf) : leaf.Valid := by
  obtain ⟨hseconds, ⟨hzero, hmicro⟩, rfl⟩ := ofDate_eq_ok.mp h
  exact ⟨hseconds.1, hseconds.2, Int.toNat_le.mpr hmicro⟩

end Leaf

end PropertyList
