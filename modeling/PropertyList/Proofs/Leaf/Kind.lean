import PropertyList.Document.Reader
import PropertyList.Proofs.Leaf.Codec

/-! Kinds of what readers give. A leaf that was read is of the kind that its tag stands for, and no
text of a document makes a reader drop its leaf. -/
namespace PropertyList

variable {strict : Bool} {tag s : Text} {kind : Kind}

theorem kind_of_decodeDate {leaf : Leaf} (h : (decodeDate strict s).outcome = .ok leaf) :
    leaf.kind = .date := by
  unfold decodeDate at h
  split at h
  · rename_i found hfound
    cases h
    obtain ⟨moment, -, hmoment⟩ := Option.bind_eq_some_iff.mp hfound
    split at hmoment
    · rename_i hdate
      cases hmoment
      obtain ⟨-, -, rfl⟩ := Leaf.ofDate_eq_ok.mp hdate
      rfl
    · cases hmoment
  · split_ifs at h
    · cases h
    · cases h
      rfl

theorem containerOfTag?_eq_none_iff (h : kindOfTag? tag = some kind) :
    containerOfTag? tag = none ↔ kind ≠ .array ∧ kind ≠ .dict := by
  rw [containerOfTag?, h]
  cases kind <;> simp

/-- The text of a document always gives a leaf, if it is read at all. -/
theorem Leaf.exists_of_decode (hxml : s.isXml = true) (hkind : kindOfTag? tag = some kind)
    (hleaf : containerOfTag? tag = none) {found : Option Leaf}
    (h : (decode strict tag s).outcome = .ok found) : ∃ leaf, found = some leaf ∧ leaf.kind = kind := by
  obtain ⟨harray, hdict⟩ := (containerOfTag?_eq_none_iff hkind).mp hleaf
  rw [decode, hkind] at h
  cases kind with
  | boolean =>
    cases h
    exact ⟨_, rfl, rfl⟩
  | integer =>
    obtain ⟨n, -, hfound⟩ := Run.outcome_bind_eq_ok.mp h
    cases hfound
    exact ⟨_, rfl, rfl⟩
  | real =>
    obtain ⟨x, -, hfound⟩ := Run.outcome_bind_eq_ok.mp h
    cases hfound
    exact ⟨_, rfl, rfl⟩
  | date =>
    obtain ⟨leaf, hdate, hfound⟩ := Run.outcome_bind_eq_ok.mp h
    cases hfound
    exact ⟨leaf, rfl, kind_of_decodeDate hdate⟩
  | data =>
    obtain ⟨b, -, hfound⟩ := Run.outcome_bind_eq_ok.mp h
    cases hfound
    exact ⟨_, rfl, rfl⟩
  | string =>
    simp only [decodeString_of_isXml strict tag hxml, pure_bind, ofString_of_isXml hxml] at h
    cases h
    exact ⟨_, rfl, rfl⟩
  | key =>
    simp only [decodeString_of_isXml strict tag hxml, pure_bind, ofKey_of_isXml hxml] at h
    cases h
    exact ⟨_, rfl, rfl⟩
  | array => exact absurd rfl harray
  | dict => exact absurd rfl hdict

/-- An element with a known tag that is no container becomes a leaf of the kind of its tag. -/
theorem exists_leaf_of_readElement (hxml : s.isXml = true) (hkind : kindOfTag? tag = some kind)
    (hleaf : containerOfTag? tag = none) {found : Option Node}
    (h : (readElement strict tag s).outcome = .ok found) :
    ∃ leaf, (Leaf.decode strict tag s).outcome = .ok (some leaf) ∧ found = some (.leaf leaf) ∧
      leaf.kind = kind := by
  rw [readElement, hkind, Option.isSome_some, if_pos rfl] at h
  obtain ⟨decoded, hdecoded, hfound⟩ := Run.outcome_bind_eq_ok.mp h
  obtain ⟨leaf, rfl, hsame⟩ := Leaf.exists_of_decode hxml hkind hleaf hdecoded
  cases hfound
  exact ⟨leaf, hdecoded, rfl, hsame⟩

end PropertyList
