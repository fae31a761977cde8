import Mathlib.Tactic.SplitIfs
import PropertyList.Value.OfNode

/-! Entries set one after another. A key that is set again keeps its first place, and takes the value
that was set last. -/
namespace PropertyList

namespace Value

variable {names : List Text} {entries set : List (Value × Value)}

theorem map_fst_setEntry_text (h : set.map Prod.fst = names.map string) (name : Text) (v : Value) :
    (setEntry (.string name) v set).map Prod.fst =
      (if name ∈ names then names else names ++ [name]).map string := by
  induction set generalizing names with
  | nil =>
    rw [List.map_nil, eq_comm, List.map_eq_nil_iff] at h
    subst h
    rfl
  | cons entry set ih =>
    cases names with
    | nil => cases h
    | cons first names =>
      rw [List.map_cons, List.map_cons, List.cons.injEq] at h
      rw [setEntry, h.1, sameKey]
      by_cases hname : first = name
      · rw [if_pos (beq_iff_eq.mpr hname), if_pos (by rw [hname]; exact List.mem_cons_self),
          List.map_cons, List.map_cons, h.2]
      · rw [if_neg (by simpa using hname), List.map_cons, ih h.2, h.1]
        by_cases hmem : name ∈ names
        · rw [if_pos hmem, if_pos (List.mem_cons_of_mem _ hmem), List.map_cons]
        · rw [if_neg hmem, if_neg, List.cons_append, List.map_cons]
          rw [List.mem_cons, not_or]
          exact ⟨Ne.symm hname, hmem⟩

theorem entry?_cons (name key : Text) (v : Value) (rest : List (Value × Value)) :
    entry? name ((.string key, v) :: rest) = if key = name then some v else entry? name rest := by
  simp only [ entry?, beq_iff_eq]

theorem entry?_append (name : Text) (a b : List (Value × Value)) :
    entry? name (a ++ b) = ( entry? name a).or ( entry? name b) := by
  induction a with
  | nil => rfl
  | cons entry a ih =>
    obtain ⟨key, v⟩ := entry
    cases key with
    | string other =>
      rw [List.cons_append, entry?_cons, entry?_cons, ih]
      split_ifs <;> rfl
    | _ => exact ih

theorem entry?_setEntry (name other : Text) (v : Value) (set : List (Value × Value)) :
    entry? name (setEntry (.string other) v set) =
      if other = name then some v else entry? name set := by
  induction set with
  | nil => exact entry?_cons name other v []
  | cons entry set ih =>
    obtain ⟨key, w⟩ := entry
    cases key with
    | string first =>
      rw [setEntry, sameKey, entry?_cons]
      by_cases hfirst : first = other
      · rw [if_pos (beq_iff_eq.mpr hfirst), hfirst, entry?_cons]
        split_ifs <;> rfl
      · rw [if_neg (by simpa using hfirst), entry?_cons, ih]
        by_cases hname : first = name
        · have hother : ¬ other = name := by
            rw [← hname]
            exact Ne.symm hfirst
          rw [if_pos hname, if_neg hother, if_pos hname]
        · rw [if_neg hname, if_neg hname]
    | _ => exact ih

/-- The keys of entries that are set one after another keep their first places. -/
theorem map_fst_foldl_setEntry {seen : List Text} (hset : set.map Prod.fst = seen.map string)
    (hentries : entries.map Prod.fst = names.map string) :
    (entries.foldl (fun set entry => setEntry entry.1 entry.2 set) set).map Prod.fst =
      (seen ++ (names.removeAll seen).eraseDups).map string := by
  induction entries generalizing set seen names with
  | nil =>
    rw [List.map_nil, eq_comm, List.map_eq_nil_iff] at hentries
    rw [hentries, List.foldl_nil, hset, List.removeAll, List.filter_nil, List.eraseDups_nil,
      List.append_nil]
  | cons entry entries ih =>
    cases names with
    | nil => cases hentries
    | cons name names =>
      rw [List.map_cons, List.map_cons, List.cons.injEq] at hentries
      have hstep := map_fst_setEntry_text hset name entry.2
      rw [List.foldl_cons, hentries.1, ih hstep hentries.2, List.cons_removeAll]
      by_cases hname : name ∈ seen
      · rw [if_pos hname, if_neg (by simpa using hname)]
      · have hfilter : names.removeAll (seen ++ [name]) =
            (names.removeAll seen).filter fun other => !other == name := by
          rw [List.removeAll, List.removeAll, List.filter_filter]
          apply List.filter_congr
          intro other _
          rw [Bool.eq_iff_iff]
          simp [and_comm]
        rw [if_neg hname, if_pos (by simpa using hname), List.eraseDups_cons, hfilter,
          List.append_assoc, List.singleton_append]

/-- A key that is set again takes the last value. -/
theorem entry?_foldl_setEntry (name : Text) (hentries : entries.map Prod.fst = names.map string) :
    entry? name (entries.foldl (fun set entry => setEntry entry.1 entry.2 set) set) =
      ( entry? name entries.reverse).or ( entry? name set) := by
  induction entries generalizing set names with
  | nil => rfl
  | cons entry entries ih =>
    cases names with
    | nil => cases hentries
    | cons other names =>
      rw [List.map_cons, List.map_cons, List.cons.injEq] at hentries
      obtain ⟨key, v⟩ := entry
      obtain ⟨rfl, hrest⟩ := hentries
      rw [List.foldl_cons, ih hrest, entry?_setEntry, List.reverse_cons, entry?_append,
        Option.or_assoc, entry?_cons]
      split_ifs <;> rfl

end Value

namespace Node

/-- The texts of the keys of a dictionary: every second child from the first on, if it is a text. -/
def keyTexts : List Node → List Text
  | [] => []
  | [key] => key.keyText?.toList
  | key :: _ :: rest => key.keyText?.toList ++ keyTexts rest

theorem map_fst_entries (children : List Node) :
    (entries children).map Prod.fst = (keyTexts children).map Value.string := by
  fun_induction keyTexts children with
  | case1 => rfl
  | case2 key => cases h : key.keyText? <;> simp [entries, h]
  | case3 key node rest ih => cases h : key.keyText? <;> simp [entries, h, ih]

/-- In the value of a dictionary, each key stands once, at its first place, with its last value. -/
theorem exists_value_dict (children : List Node) :
    ∃ set, value (.dict children) = .dict set ∧
      set.map Prod.fst = (keyTexts children).eraseDups.map .string ∧
      ∀ name, Value.entry? name set = Value.entry? name (entries children).reverse := by
  have hkeys := map_fst_entries children
  refine ⟨_, rfl, ?_, ?_⟩
  · have hall : (keyTexts children).removeAll [] = keyTexts children := by
      rw [List.removeAll, List.filter_eq_self]
      exact fun _ _ => rfl
    have hnone : ([] : List (Value × Value)).map Prod.fst = ([] : List Text).map Value.string := rfl
    rw [Value.map_fst_foldl_setEntry hnone hkeys, hall, List.nil_append]
  · intro name
    rw [Value.entry?_foldl_setEntry name hkeys, Value.entry?, Option.or_none]

end Node

end PropertyList
