import PropertyList.Proofs.Document.Bytes
import PropertyList.Proofs.Document.FixedPoint
import PropertyList.Proofs.Value.Normal
import PropertyList.Proofs.Value.Room

/-! Values read back from their documents. A document turns every real into the number that its text
denotes, and a value of a node does so too, so that a value comes back in its normal form but for
the digits that its reals lose. -/
namespace PropertyList

namespace Value

mutual

/-- A value with the numbers that the texts of its reals denote, in lists and dictionaries. -/
def reread : Value → Value
  | .real x => .real x.reread
  | .list items => .list (rereadAll items)
  | .dict entries => .dict (rereadEntries entries)
  | v => v

def rereadAll : List Value → List Value
  | [] => []
  | v :: rest => v.reread :: rereadAll rest

def rereadEntries : List (Value × Value) → List (Value × Value)
  | [] => []
  | (key, v) :: rest => (key, v.reread) :: rereadEntries rest

end

theorem rereadEntries_append (a b : List (Value × Value)) :
    rereadEntries (a ++ b) = rereadEntries a ++ rereadEntries b := by
  induction a with
  | nil => rfl
  | cons entry a ih => rw [List.cons_append, rereadEntries, rereadEntries, ih, List.cons_append]

theorem setEntry_rereadEntries (key value : Value) (entries : List (Value × Value)) :
    setEntry key value.reread (rereadEntries entries) =
      rereadEntries (setEntry key value entries) := by
  induction entries with
  | nil => rfl
  | cons entry entries ih =>
    rw [rereadEntries, setEntry, setEntry]
    split_ifs
    · rfl
    · rw [rereadEntries, ih]

theorem ofEntries_rereadEntries (entries : List (Value × Value)) :
    ofEntries (rereadEntries entries) = (ofEntries entries).reread := by
  have hfold (set : List (Value × Value)) :
      (rereadEntries entries).foldl (fun set entry => setEntry entry.1 entry.2 set)
          (rereadEntries set) =
        rereadEntries (entries.foldl (fun set entry => setEntry entry.1 entry.2 set) set) := by
    induction entries generalizing set with
    | nil => rfl
    | cons entry entries ih =>
      rw [rereadEntries, List.foldl_cons, List.foldl_cons, setEntry_rereadEntries, ih]
  exact congrArg Value.dict (hfold [])

end Value

namespace Node

theorem keyText?_reread (node : Node) : node.reread.keyText? = node.keyText? := by
  rcases node with l | ⟨kind, children⟩ | _
  · cases l <;> rfl
  · rfl
  · rfl

theorem keyNotices_reread (node : Node) : node.reread.keyNotices = node.keyNotices := by
  have hkind : node.reread.kind? = node.kind? := by
    rcases node with l | ⟨kind, children⟩ | _
    · cases l <;> rfl
    · rfl
    · rfl
  rw [keyNotices, keyNotices, keyText?_reread, hkind]

mutual

/-- A node that is read back has the value that its reals, read back, have. -/
theorem value_reread : (node : Node) → node.reread.value = node.value.reread
  | .leaf l => by cases l <;> rfl
  | .container .array children => by
    rw [reread, value, value, values_rereadAll children, Value.reread]
  | .container .dict children => by
    rw [reread, value, value, entries_rereadAll children, Value.ofEntries_rereadEntries]
  | .bare => rfl

theorem values_rereadAll : (nodes : List Node) →
    values (rereadAll nodes) = Value.rereadAll (values nodes)
  | [] => rfl
  | node :: rest => by
    rw [rereadAll, values, values, Value.rereadAll, value_reread node, values_rereadAll rest]

theorem entries_rereadAll : (nodes : List Node) →
    entries (rereadAll nodes) = Value.rereadEntries (entries nodes)
  | [] => rfl
  | [key] => by
    rw [rereadAll, rereadAll, entries, entries, keyText?_reread]
    cases key.keyText? <;> rfl
  | key :: node :: rest => by
    rw [rereadAll, rereadAll, entries, entries, keyText?_reread, value_reread node,
      entries_rereadAll rest, Value.rereadEntries_append]
    cases key.keyText? <;> rfl

end

theorem skipped_rereadAll (nodes : List Node) : skipped (rereadAll nodes) = skipped nodes := by
  fun_induction skipped nodes with
  | case1 => rfl
  | case2 key => rw [rereadAll, rereadAll, skipped, keyNotices_reread]
  | case3 key node rest ih => rw [rereadAll, rereadAll, skipped, keyNotices_reread, ih]

mutual

theorem notices_reread : (node : Node) → node.reread.notices = node.notices
  | .leaf l => by cases l <;> rfl
  | .container .array children => by
    rw [reread, notices, notices, noticesOfItems_rereadAll children]
  | .container .dict children => by
    rw [reread, notices, notices, skipped_rereadAll, noticesOfEntries_rereadAll children]
  | .bare => rfl

theorem noticesOfItems_rereadAll : (nodes : List Node) →
    noticesOfItems (rereadAll nodes) = noticesOfItems nodes
  | [] => rfl
  | node :: rest => by
    rw [rereadAll, noticesOfItems, noticesOfItems, notices_reread node,
      noticesOfItems_rereadAll rest]

theorem noticesOfEntries_rereadAll : (nodes : List Node) →
    noticesOfEntries (rereadAll nodes) = noticesOfEntries nodes
  | [] => rfl
  | [_] => rfl
  | key :: node :: rest => by
    rw [rereadAll, rereadAll, noticesOfEntries, noticesOfEntries, keyText?_reread,
      notices_reread node, noticesOfEntries_rereadAll rest]

end

end Node

/-- The bytes of a valid tree, and the tree in them. -/
theorem exists_documentBytes {tree : Node} (htree : tree.Valid) {config : Config}
    (hcolumns : 1 ≤ config.columns) :
    ∃ bytes, documentBytes (some (.wanted tree)) (.wanted config) = .ok (bytes, bytes.length) ∧
      ∀ reading : Config, readTree reading bytes = pure (some tree.reread) := by
  obtain ⟨document, hdocument, hread⟩ := exists_toDocument htree hcolumns
  have hwrite : toDocument (some (.wanted tree)) (.wanted config) = _ :=
    write_eq_ok config (Node.isWritable_of_valid tree htree)
  rw [hwrite] at hdocument
  cases hdocument
  exact ⟨_, documentBytes_of_valid config htree, hread⟩

/-- A value that has a node, holds no other nodes, and whose records are dumped as their fields, is
read back from its document in its normal form, with each real read back as the number that its text
denotes. The moment in universal time that a moment comes back as is the same instant. -/
theorem valueOfDocument_documentOfValue {host : Host} {room : ℕ} {value : Value} {tree : Node}
    (hnode : Node.ofValue host room value = .ok tree) (hdump : value.DumpedBy host)
    (hvalue : value.Regular false) {config : Config} (hcolumns : 1 ≤ config.columns) :
    (∃ bytes, documentOfValue host room value (.wanted config) = .ok bytes ∧
      valueOfDocument (.wanted (.ofBytes bytes)) (.wanted config) = pure value.normal.reread) ∧
    (∀ (strict : Bool) (x : Binary64), decodeReal strict (encodeReal x) = pure x.reread) ∧
    ∀ (m : Moment) (node : Node), Node.ofMoment m = .ok node →
      m.universal.instant = m.instant ∧ m.universal.offset = some 0 ∧
        m.universal.day.exists? = true ∧ m.universal.clock.exists? = true := by
  refine ⟨?_, decodeReal_encodeReal, ?_⟩
  · have hdirect := Node.ofValueIn_of_ofValue hdump hnode
    have htree := Node.isNodeOf_ofValueIn false false value hvalue (by simp) tree hdirect
    obtain ⟨bytes, hbytes, hread⟩ := exists_documentBytes htree.valid hcolumns
    have hreread := Node.isWritable_of_valid _ (Node.valid_reread tree htree.valid)
    refine ⟨bytes, ?_, ?_⟩
    · simp only [documentOfValue, hnode, hbytes, bind, Except.bind, pure, Except.pure]
    · have hcut : cutInput bytes none = .ok bytes := rfl
      rw [valueOfDocument, fromDocument_wanted, hcut, Run.ofExcept_ok, pure_bind, hread, pure_bind]
      change Value.ofNode tree.reread = _
      rw [Value.ofNode_eq hreread, Node.notices_reread, htree.quiet rfl, Node.value_reread,
        htree.value_eq]
      rfl
  · intro m node hm
    obtain ⟨leaf, hleaf, -⟩ := except_map_eq_ok.mp hm
    obtain ⟨hinstant, hexists⟩ := Timestamp.instant_universal (titled_eq_ok.mp hleaf)
    exact ⟨hinstant, Moment.offset_universal m, hexists⟩

/-- A record with a field that has no value, a tuple and a member of an enumeration. -/
theorem valueOfDocument_documentOfValue_record :
    ∃ bytes, documentOfValue .plain 30 (.record ⟨[], text "Trip"⟩ [(text "note", .null),
        (text "stops", .tuple [.enumeration ⟨[], text "Stop"⟩ (.integer 2), .byteArray [7]]),
        (text "done", .boolean true)]) (.wanted .default) = .ok bytes ∧
      valueOfDocument (.wanted (.ofBytes bytes)) (.wanted .default) =
        pure (.dict [(.string (text "stops"), .list [.integer 2, .bytes [7]]),
          (.string (text "done"), .boolean true)]) := by
  have hnode : Node.ofValue .plain 30 (.record ⟨[], text "Trip"⟩ [(text "note", .null),
      (text "stops", .tuple [.enumeration ⟨[], text "Stop"⟩ (.integer 2), .byteArray [7]]),
      (text "done", .boolean true)]) =
        .ok (.dict [.leaf (.key (text "stops")), .array [.leaf (.integer 2), .leaf (.data [7])],
          .leaf (.key (text "done")), .leaf (.boolean true)]) := rfl
  have hregular : Value.Regular false (.record ⟨[], text "Trip"⟩ [(text "note", .null),
      (text "stops", .tuple [.enumeration ⟨[], text "Stop"⟩ (.integer 2), .byteArray [7]]),
      (text "done", .boolean true)]) :=
    ⟨by decide, trivial, ⟨trivial, trivial, trivial⟩, trivial, trivial⟩
  exact (valueOfDocument_documentOfValue hnode (Value.dumpedBy_plain _) hregular
    (show 1 ≤ Config.default.columns by decide)).1

end PropertyList
