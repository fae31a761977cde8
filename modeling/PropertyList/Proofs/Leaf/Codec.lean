import PropertyList.Leaf.Codec
import PropertyList.Proofs.Leaf.Data
import PropertyList.Proofs.Leaf.Date
import PropertyList.Proofs.Leaf.Integer

/-! Leaves read back from their tag and text. Every leaf but a real is read back as it was, and a
real becomes the number that its text denotes. -/
namespace PropertyList

theorem decodeString_of_isXml (strict : Bool) (tag : Text) {s : Text} (h : s.isXml = true) :
    decodeString strict tag s = pure (some s) := by
  have hplain : s.any isSurrogate = false := by
    apply List.any_eq_false.mpr
    intro c hc
    simp [isSurrogate_eq_false (List.all_eq_true.mp h c hc)]
  rw [decodeString, hplain]
  rfl

namespace Leaf

theorem ofString_of_isXml {s : Text} (h : s.isXml = true) : ofString s = .ok (.string s) :=
  ofString_eq_ok.mpr ⟨h, rfl⟩

theorem ofKey_of_isXml {s : Text} (h : s.isXml = true) : ofKey s = .ok (.key s) :=
  ofKey_eq_ok.mpr ⟨h, rfl⟩

/-- The leaf that the element of a leaf denotes. -/
def reread : Leaf → Leaf
  | .real x => .real x.reread
  | leaf => leaf

/-- The text of a valid leaf may stand in a document. -/
theorem isXml_of_content? {leaf : Leaf} (h : leaf.Valid) {depth columns : ℕ} {content : Text}
    (hcontent : leaf.content? depth columns = some content) : content.isXml = true := by
  cases leaf with
  | boolean value => cases hcontent
  | integer value =>
    cases hcontent
    exact (Text.isGraphic_of_isDigit fun c => isDigit_of_mem_decimal).isXml
  | real value =>
    cases hcontent
    exact (encodeReal_isGraphic value).isXml
  | string value =>
    cases hcontent
    exact h
  | key value =>
    cases hcontent
    exact h
  | data value =>
    cases hcontent
    have hgraphic := (Base64.encode_isGraphic value).isXml
    unfold encodeData
    split
    · rfl
    · apply List.all_eq_true.mpr
      intro c hc
      rcases Text.mem_of_mem_block hc with hmem | rfl | rfl
      · exact List.all_eq_true.mp hgraphic c hmem
      · decide
      · decide
  | date value =>
    cases hcontent
    exact (encodeDate_isGraphic value).isXml

theorem decode_boolean (strict value : Bool) (s : Text) :
    decode strict (Leaf.boolean value).tag s = pure (some (.boolean value)) := by
  cases value <;> rfl

/-- A valid leaf is read back from its tag and its text at any depth, whoever reads it. -/
theorem decode_content? (strict : Bool) {leaf : Leaf} (h : leaf.Valid) (depth : ℕ) {columns : ℕ}
    (hcolumns : 1 ≤ columns) :
    decode strict leaf.tag ((leaf.content? depth columns).getD []) = pure (some leaf.reread) := by
  cases leaf with
  | boolean value => exact decode_boolean strict value _
  | integer value =>
    have hkind : kindOfTag? (text "integer") = some .integer := by decide
    simp only [decode, tag, content?, Option.getD_some, hkind, decodeInteger_decimal strict h,
      pure_bind, reread]
  | real value =>
    have hkind : kindOfTag? (text "real") = some .real := by decide
    simp only [decode, tag, content?, Option.getD_some, hkind, decodeReal_encodeReal, pure_bind,
      reread]
  | string value =>
    have hkind : kindOfTag? (text "string") = some .string := by decide
    simp only [decode, tag, content?, Option.getD_some, hkind, decodeString_of_isXml strict _ h,
      pure_bind, ofString_of_isXml h, titled, Run.ofExcept_ok, reread]
  | key value =>
    have hkind : kindOfTag? (text "key") = some .key := by decide
    simp only [decode, tag, content?, Option.getD_some, hkind, decodeString_of_isXml strict _ h,
      pure_bind, ofKey_of_isXml h, titled, Run.ofExcept_ok, reread]
  | data value =>
    have hkind : kindOfTag? (text "data") = some .data := by decide
    simp only [decode, tag, content?, Option.getD_some, hkind,
      decodeData_encodeData strict value depth hcolumns, pure_bind, reread]
  | date value =>
    have hkind : kindOfTag? (text "date") = some .date := by decide
    simp only [decode, tag, content?, Option.getD_some, hkind, decodeDate_encodeDate strict h,
      pure_bind, reread]

end Leaf

end PropertyList
