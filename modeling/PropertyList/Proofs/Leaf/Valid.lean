import PropertyList.Proofs.Leaf.Codec

/-! What readers give is valid: a leaf that was read is one that the checked constructors accept. -/
namespace PropertyList

theorem wrap_le (negative : Bool) {n : ℕ} (h : n ≤ maxInteger) : wrap negative n ≤ maxInteger := by
  unfold wrap
  split_ifs
  · exact Nat.le_of_lt_succ (Nat.mod_lt _ (Nat.succ_pos _))
  · exact h

/-- Whatever is read as an integer fits into 64 bits. -/
theorem decodeInteger_le {strict : Bool} {s : Text} {n : ℕ}
    (h : (decodeInteger strict s).outcome = .ok n) : n ≤ maxInteger := by
  unfold decodeInteger at h
  split at h
  · split_ifs at h
    · cases h
    · cases h
      exact Nat.zero_le _
  · split_ifs at h with _ _ hfits
    · cases h
    · cases h
    · cases h
      exact wrap_le _ hfits
    · cases h
    · cases h
      exact wrap_le _ le_rfl

theorem valid_of_dateOf? {s : Text} {leaf : Leaf} (h : dateOf? s = some leaf) : leaf.Valid := by
  obtain ⟨moment, -, hmoment⟩ := Option.bind_eq_some_iff.mp h
  split at hmoment
  · rename_i found hfound
    cases hmoment
    exact Leaf.valid_of_ofDate hfound
  · cases hmoment

theorem valid_of_decodeDate {strict : Bool} {s : Text} {leaf : Leaf}
    (h : (decodeDate strict s).outcome = .ok leaf) : leaf.Valid := by
  unfold decodeDate at h
  split at h
  · rename_i found hfound
    cases h
    exact valid_of_dateOf? hfound
  · split_ifs at h
    · cases h
    · cases h
      decide

/-- Every leaf that is read is valid. -/
theorem Leaf.valid_of_decode {strict : Bool} {tag s : Text} {leaf : Leaf}
    (h : (decode strict tag s).outcome = .ok (some leaf)) : leaf.Valid := by
  unfold decode at h
  split at h
  · cases h
    trivial
  · obtain ⟨n, hn, hleaf⟩ := Run.outcome_bind_eq_ok.mp h
    cases hleaf
    exact decodeInteger_le hn
  · obtain ⟨x, -, hleaf⟩ := Run.outcome_bind_eq_ok.mp h
    cases hleaf
    trivial
  · obtain ⟨found, hfound, hleaf⟩ := Run.outcome_bind_eq_ok.mp h
    cases hleaf
    exact valid_of_decodeDate hfound
  · obtain ⟨b, -, hleaf⟩ := Run.outcome_bind_eq_ok.mp h
    cases hleaf
    trivial
  · obtain ⟨found, -, hleaf⟩ := Run.outcome_bind_eq_ok.mp h
    cases found with
    | none => cases hleaf
    | some s =>
      obtain ⟨checked, hchecked, hsame⟩ := Run.outcome_bind_eq_ok.mp hleaf
      cases hsame
      exact valid_of_ofString (titled_eq_ok.mp hchecked)
  · obtain ⟨found, -, hleaf⟩ := Run.outcome_bind_eq_ok.mp h
    cases found with
    | none => cases hleaf
    | some s =>
      obtain ⟨checked, hchecked, hsame⟩ := Run.outcome_bind_eq_ok.mp hleaf
      cases hsame
      exact valid_of_ofKey (titled_eq_ok.mp hchecked)
  · cases h

end PropertyList
