import PropertyList.Proofs.Leaf.Data

/-! Base64 in any wrapping. Blanks may stand anywhere in a text, between its groups, inside of them
and in its padding; its bytes stay the same. -/
namespace PropertyList

namespace Text

/-- Whether a text is made of another one by blanks put in anywhere. -/
inductive Spread : Text → Text → Prop
  | nil : Spread [] []
  | kept (c : CodePoint) {s t : Text} : Spread s t → Spread (c :: s) (c :: t)
  | blank {c : CodePoint} (hc : isBlank c = true) {s t : Text} : Spread s t → Spread s (c :: t)

theorem spread_compact (s : Text) : s.compact.Spread s := by
  induction s with
  | nil => exact .nil
  | cons c rest ih =>
    by_cases hc : isBlank c = true
    · have hdropped : compact (c :: rest) = compact rest := by
        rw [compact, List.filter_cons_of_neg (by rw [hc]; decide), ← compact]
      rw [hdropped]
      exact .blank hc ih
    · have hkept : compact (c :: rest) = c :: compact rest := by
        rw [compact, List.filter_cons_of_pos (by rw [Bool.eq_false_iff.mpr hc]; rfl), ← compact]
      rw [hkept]
      exact .kept c ih

theorem Spread.compact_eq {s t : Text} (h : s.Spread t) : t.compact = s.compact := by
  induction h with
  | nil => rfl
  | kept c _ ih =>
    rw [compact, compact, List.filter_cons, List.filter_cons, ← compact, ← compact, ih]
  | blank hc _ ih =>
    rw [compact, List.filter_cons_of_neg (by rw [hc]; decide), ← compact, ih]

/-- The texts that a text without blanks is spread to are those that `compact` turns into it. -/
theorem spread_iff {s t : Text} (h : ∀ c ∈ s, isBlank c = false) : s.Spread t ↔ t.compact = s := by
  constructor
  · intro hspread
    rw [hspread.compact_eq, compact_of_not_blank h]
  · rintro rfl
    exact spread_compact t

end Text

/-- Of all numbers, only a depth and a width of at least one are taken, unless there are no bytes. -/
theorem dataTextOf_eq_ok {bytes : Bytes} {depth columns : Int} {s : Text}
    (h : dataTextOf bytes depth columns = .ok s) :
    bytes = [] ∧ s = [] ∨
      0 ≤ depth ∧ 1 ≤ columns ∧ s = encodeData bytes depth.toNat columns.toNat := by
  by_cases hempty : bytes.isEmpty = true
  · rw [dataTextOf, if_pos hempty] at h
    exact .inl ⟨List.isEmpty_iff.mp hempty, (Except.ok.inj h).symm⟩
  · rw [dataTextOf, if_neg hempty, blockOf] at h
    split at h
    · cases h
    · split at h
      · cases h
      · split at h
        · cases h
        · refine .inr ⟨by omega, by omega, ?_⟩
          rw [encodeData, if_neg hempty]
          exact (Except.ok.inj h).symm

/-- Bytes are read back from their Base64 text with any blanks put into it anywhere, by lenient and
by strict readers. The blocks of bytes are such texts, whatever their depth and width are. -/
theorem decodeData_of_spread (bytes : Bytes) :
    (∀ s : Text, (Base64.encode bytes).Spread s → ∀ strict, decodeData strict s = pure bytes) ∧
    (∀ depth columns : Nat, 1 ≤ columns →
      (Base64.encode bytes).Spread (encodeData bytes depth columns)) ∧
    ∀ depth columns : Int, ∀ s, dataTextOf bytes depth columns = .ok s →
      (Base64.encode bytes).Spread s := by
  have hblank := (Base64.encode_isGraphic bytes).isBlank_eq_false
  refine ⟨fun s hs => decodeData_of_compact ((Text.spread_iff hblank).mp hs), ?_, ?_⟩
  · intro depth columns hcolumns
    exact (Text.spread_iff hblank).mpr (compact_encodeData bytes depth hcolumns)
  · intro depth columns s hs
    apply (Text.spread_iff hblank).mpr
    rcases dataTextOf_eq_ok hs with ⟨rfl, rfl⟩ | ⟨-, hcolumns, rfl⟩
    · rfl
    · exact compact_encodeData bytes depth.toNat (by omega)

/-- A byte whose group and padding are torn apart, and two bytes one tab deep in lines of three
characters. -/
theorem decodeData_of_spread_torn :
    decodeData true (text " A\n\tQ= \t=\r\n") = pure [1] ∧
    (Base64.encode [1, 2]).Spread (encodeData [1, 2] 1 3) ∧
    (Base64.encode [1, 2]).Spread (text "\n\tAQI\n\t=\n\t") := by
  have htorn : (Base64.encode [1]).Spread (text " A\n\tQ= \t=\r\n") := by
    have hcompact : (text " A\n\tQ= \t=\r\n").compact = Base64.encode [1] := by decide
    rw [← hcompact]
    exact Text.spread_compact _
  have htext : dataTextOf [1, 2] 1 3 = .ok (text "\n\tAQI\n\t=\n\t") := rfl
  exact ⟨(decodeData_of_spread [1]).1 _ htorn true,
    (decodeData_of_spread [1, 2]).2.1 1 3 (by decide),
    (decodeData_of_spread [1, 2]).2.2 1 3 _ htext⟩

end PropertyList
