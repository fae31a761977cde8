import PropertyList.Proofs.Document.RoundTrip

/-! Documents written again. A real has its six places from the first time on, so that the tree in
a document has just this document. -/
namespace PropertyList

theorem Leaf.Valid.reread {l : Leaf} (h : l.Valid) : l.reread.Valid := by
  cases l <;> exact h

mutual

theorem Node.valid_reread : (node : Node) → node.Valid → node.reread.Valid
  | .leaf _, h => Leaf.Valid.reread h
  | .container _ children, h => Node.allValid_rereadAll children h
  | .bare, h => h.elim

theorem Node.allValid_rereadAll :
    (nodes : List Node) → Node.AllValid nodes → Node.AllValid (Node.rereadAll nodes)
  | [], h => h
  | node :: rest, h => ⟨Node.valid_reread node h.1, Node.allValid_rereadAll rest h.2⟩

end

/-- Whether a leaf, if it is a real, is a floating-point number of 64 bits. -/
def Leaf.IsCanonical : Leaf → Prop
  | .real x => x.IsCanonical
  | _ => True

mutual

/-- Every real in a node is a floating-point number of 64 bits. -/
def Node.IsCanonical : Node → Prop
  | .leaf l => l.IsCanonical
  | .container _ children => AllCanonical children
  | .bare => True

def Node.AllCanonical : List Node → Prop
  | [] => True
  | node :: rest => node.IsCanonical ∧ AllCanonical rest

end

theorem Leaf.element_reread {l : Leaf} (h : l.IsCanonical) (depth columns : ℕ) :
    l.reread.element depth columns = l.element depth columns := by
  cases l with
  | real x =>
    have htext : encodeReal x.reread = encodeReal x := encodeReal_reread h
    simp only [Leaf.element, Leaf.reread, Leaf.content?, Leaf.tag, htext]
  | _ => rfl

mutual

theorem Node.layout_reread (columns depth : ℕ) :
    (node : Node) → node.IsCanonical → node.reread.layout columns depth = node.layout columns depth
  | .leaf l, h => by
    rw [Node.reread, Node.layout, Node.layout, Leaf.element_reread h]
  | .container kind children, h => by
    rw [Node.reread, Node.layout, Node.layout, Node.layoutAll_rereadAll columns (depth + 1) children h]
  | .bare, _ => rfl

theorem Node.layoutAll_rereadAll (columns depth : ℕ) : (nodes : List Node) →
    Node.AllCanonical nodes →
      Node.layoutAll columns depth (Node.rereadAll nodes) = Node.layoutAll columns depth nodes
  | [], _ => rfl
  | node :: rest, h => by
    rw [Node.rereadAll, Node.layoutAll, Node.layoutAll, Node.layout_reread columns depth node h.1,
      Node.layoutAll_rereadAll columns depth rest h.2]

end

/-- A configuration that was made has at least one column. -/
theorem Config.one_le_columns {strict : Bool} {columns : ℤ} {config : Config}
    (h : Config.ofColumns strict columns = .ok config) : 1 ≤ config.columns := by
  unfold Config.ofColumns at h
  split at h
  · cases h
  · rename_i hcolumns
    cases h
    change 1 ≤ columns.toNat
    omega

/-- What is read from the document of a tree has the same document, byte for byte, in every
configuration that can be made; a real has the same text when it is written again. -/
theorem toDocument_fromDocument {tree : Node} (htree : tree.Valid) (hreals : tree.IsCanonical)
    {strict : Bool} {columns : ℤ} {config : Config}
    (hconfig : Config.ofColumns strict columns = .ok config) :
    (∃ document again, toDocument (some (.wanted tree)) (.wanted config) = .ok document ∧
      (∀ length ∈ [none, some (document.utf8.length : ℤ)],
        fromDocument (.wanted (.ofBytes document.utf8)) length (.wanted config) =
          pure (some again)) ∧
      toDocument (some (.wanted again)) (.wanted config) = .ok document) ∧
    ∀ x : Binary64, x.IsCanonical → ∀ strict, ∃ y,
      decodeReal strict (encodeReal x) = pure y ∧ encodeReal y = encodeReal x := by
  constructor
  · have hcolumns := Config.one_le_columns hconfig
    obtain ⟨document, hdocument, hread⟩ := exists_toDocument htree hcolumns
    refine ⟨document, tree.reread, hdocument, ?_, ?_⟩
    · intro length hlength
      have hcut : cutInput document.utf8 length = .ok document.utf8 := by
        rcases List.mem_cons.mp hlength with rfl | hsome
        · rfl
        · have hwhole := cutInput_append document.utf8 []
          rw [List.append_nil] at hwhole
          rw [List.mem_singleton.mp hsome, hwhole]
      rw [fromDocument_wanted, hcut, Run.ofExcept_ok, pure_bind, hread]
    · have hwrite := write_eq_ok config (Node.isWritable_of_valid tree htree)
      have hagain := write_eq_ok config
        (Node.isWritable_of_valid tree.reread (Node.valid_reread tree htree))
      rw [Node.layout_reread config.columns 0 tree hreals, ← hwrite] at hagain
      exact hagain.trans hdocument
  · intro x hx strict
    exact ⟨x.reread, decodeReal_encodeReal strict x, encodeReal_reread hx⟩

/-- The least positive number and the negative zero, written without any places of their own. -/
theorem toDocument_fromDocument_array :
    (∃ document again, toDocument (some (.wanted (.array [.leaf (.real (.finite false 1 0)),
        .leaf (.real (.finite true 0 0))]))) (.wanted ⟨false, 60⟩) = .ok document ∧
      (∀ length ∈ [none, some (document.utf8.length : ℤ)],
        fromDocument (.wanted (.ofBytes document.utf8)) length (.wanted ⟨false, 60⟩) =
          pure (some again)) ∧
      toDocument (some (.wanted again)) (.wanted ⟨false, 60⟩) = .ok document) ∧
    ∀ x : Binary64, x.IsCanonical → ∀ strict, ∃ y,
      decodeReal strict (encodeReal x) = pure y ∧ encodeReal y = encodeReal x :=
  toDocument_fromDocument
    (show (Node.array [.leaf (.real (.finite false 1 0)), .leaf (.real (.finite true 0 0))]).Valid
      from ⟨trivial, trivial, trivial⟩)
    ⟨show (Binary64.finite false 1 0).IsCanonical by decide,
      show (Binary64.finite true 0 0).IsCanonical by decide, trivial⟩
    (show Config.ofColumns false 60 = .ok ⟨false, 60⟩ from rfl)

end PropertyList
