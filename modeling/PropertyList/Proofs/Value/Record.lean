import PropertyList.Document.Exchange
import PropertyList.Proofs.Value.Typing
import PropertyList.Value.Catalog

/-! Records read back from their documents. A value that the field of a record holds has a node, and
the type of the field makes the same value of what the node comes back as, but for the offsets of its
moments. -/
namespace PropertyList

open Value

/-- A value of a type that has a node and is found again in its normal form. -/
structure Survives (type : FieldType) (v : Value) : Prop where
  null_or_ne : v = .null ∧ type.isOptional = true ∨ v ≠ .null ∧ v.normal ≠ .null
  regular : v.Regular false
  exists_node : v ≠ .null → ∀ inRecord, ∃ tree, Node.ofValueIn inRecord v = .ok tree
  reread_eq : v.normal.reread = v.normal
  check_eq : type.check v.normal = .ok v.universal

/-- Items of a list that have nodes and are found again. -/
structure AllSurvive (type : FieldType) (items : List Value) : Prop where
  regular : AllRegular false items
  exists_nodes : ∀ inRecord, ∃ children, Node.itemNodes inRecord items = .ok children
  reread_eq : rereadAll (normalAll items) = normalAll items
  check_eq : ∀ i, FieldType.checkItems type.check i (normalAll items) = .ok (universalAll items)

/-- Fields of a record that have nodes, but for those without a value, and are found again among
entries that hold them. -/
structure FieldsSurvive (fields : List (Text × FieldType × Option Value))
    (given : List (Text × Value)) : Prop where
  regular : FieldsRegular given
  exists_nodes : ∃ children, Node.fieldNodes given = .ok children
  reread_eq : rereadEntries (normalFields given) = normalFields given
  check_eq : ∀ entries, (∀ field ∈ given, entry? field.1 entries = field.2.normal?) →
    FieldType.checkFields fields entries = .ok (universalFields given)

variable {type : FieldType}

theorem Survives.ne_null {v : Value} (h : Survives type v) (htype : type.isOptional = false) :
    v ≠ .null ∧ v.normal ≠ .null := by
  rcases h.null_or_ne with ⟨-, hoptional⟩ | hne
  · rw [htype] at hoptional
    cases hoptional
  · exact hne

theorem allSurvive_of_forall (htype : type.isOptional = false) {items : List Value}
    (h : ∀ item ∈ items, Survives type item) : AllSurvive type items := by
  induction items with
  | nil => exact ⟨trivial, fun _ => ⟨[], rfl⟩, rfl, fun _ => rfl⟩
  | cons item items ih =>
    rw [List.forall_mem_cons] at h
    obtain ⟨hitem, hitems⟩ := h
    have hrest := ih hitems
    refine ⟨⟨hitem.regular, hrest.regular⟩, ?_, ?_, ?_⟩
    · intro inRecord
      obtain ⟨node, hnode⟩ := hitem.exists_node (hitem.ne_null htype).1 inRecord
      obtain ⟨children, hchildren⟩ := hrest.exists_nodes inRecord
      exact ⟨node :: children, by rw [Node.itemNodes, hnode, hchildren]; rfl⟩
    · rw [normalAll, rereadAll, hitem.reread_eq, hrest.reread_eq]
    · intro i
      rw [normalAll, FieldType.checkItems, hitem.check_eq, hrest.check_eq]
      rfl

theorem AllSurvive.list {items : List Value} (h : AllSurvive type items) :
    Survives (.list type) (.list items) where
  null_or_ne := .inr ⟨nofun, nofun⟩
  regular := h.regular
  exists_node := by
    intro _ inRecord
    obtain ⟨children, hchildren⟩ := h.exists_nodes inRecord
    have hvalid := (Node.areItemsOf_itemNodes false inRecord items h.regular (fun _ => rfl) children
      hchildren).valid
    refine ⟨.array children, ?_⟩
    rw [Node.ofValueIn, hchildren]
    exact Node.arrayOf_of_allValid hvalid
  reread_eq := by rw [normal, reread, h.reread_eq]
  check_eq := by
    rw [normal, FieldType.check, asList, universal]
    dsimp only
    rw [h.check_eq]
    rfl

theorem fieldsSurvive_nil : FieldsSurvive [] [] :=
  ⟨trivial, ⟨[], rfl⟩, rfl, fun _ _ => rfl⟩

/-- A field without a value has none by default. -/
theorem FieldsSurvive.cons_null {fields : List (Text × FieldType × Option Value)}
    {given : List (Text × Value)} (h : FieldsSurvive fields given) (name : Text) :
    FieldsSurvive ((name, type, some .null) :: fields) ((name, .null) :: given) where
  regular := ⟨trivial, h.regular⟩
  exists_nodes := by
    rw [Node.fieldNodes_null]
    exact h.exists_nodes
  reread_eq := by
    rw [normalFields_null]
    exact h.reread_eq
  check_eq := by
    intro entries hentries
    rw [List.forall_mem_cons] at hentries
    obtain ⟨hnone, hmore⟩ := hentries
    simp only [normal?] at hnone
    simp only [FieldType.checkFields, hnone, h.check_eq entries hmore]
    rfl

/-- A field with a value is an entry. -/
theorem FieldsSurvive.cons {fields : List (Text × FieldType × Option Value)}
    {given : List (Text × Value)} (h : FieldsSurvive fields given) {name : Text}
    (hname : name.isXml = true) {v : Value} (hv : Survives type v) (hne : v ≠ .null)
    (initial : Option Value) :
    FieldsSurvive ((name, type, initial) :: fields) ((name, v) :: given) where
  regular := ⟨hv.regular, h.regular⟩
  exists_nodes := by
    obtain ⟨node, hnode⟩ := hv.exists_node hne true
    obtain ⟨children, hchildren⟩ := h.exists_nodes
    refine ⟨.leaf (.key name) :: node :: children, ?_⟩
    rw [Node.fieldNodes_of_ne_null hne, hnode, Node.entryOf_of_isXml hname, hchildren]
    rfl
  reread_eq := by
    rw [normalFields_of_ne_null hne, rereadEntries, hv.reread_eq, h.reread_eq]
  check_eq := by
    intro entries hentries
    rw [List.forall_mem_cons] at hentries
    obtain ⟨hsome, hmore⟩ := hentries
    simp only [normal?_of_ne_null hne] at hsome
    simp only [FieldType.checkFields, hsome, hv.check_eq, h.check_eq entries hmore]
    rfl

theorem fieldsSurvive_of_forall {fields : List (Text × FieldType × Option Value)}
    {given : List (Text × Value)} (hfields : FieldType.arePortable fields = true)
    (hnames : given.map Prod.fst = fields.map Prod.fst)
    (h : ∀ pair ∈ fields.zip given, pair.1.2.1.isPortable = true →
      Survives pair.1.2.1 pair.2.2) : FieldsSurvive fields given := by
  induction fields generalizing given with
  | nil =>
    rw [List.map_nil, List.map_eq_nil_iff] at hnames
    rw [hnames]
    exact fieldsSurvive_nil
  | cons field fields ih =>
    obtain ⟨name, type, initial⟩ := field
    cases given with
    | nil => cases hnames
    | cons first given =>
      obtain ⟨other, v⟩ := first
      simp only [List.map_cons, List.cons.injEq] at hnames
      obtain ⟨rfl, hnames⟩ := hnames
      rw [List.zip_cons_cons, List.forall_mem_cons] at h
      simp only [FieldType.arePortable, Bool.and_eq_true] at hfields
      obtain ⟨⟨⟨hname, htype⟩, hinitial⟩, hmore⟩ := hfields
      have hv : Survives type v := h.1 htype
      have hrest := ih hmore hnames h.2
      -- a field without a value is not written, and the default stands in for it
      rcases hv.null_or_ne with ⟨rfl, hoptional⟩ | ⟨hne, -⟩
      · rw [hoptional] at hinitial
        have hnull : initial = some .null := by
          match initial, hinitial with
          | some .null, _ => rfl
        rw [hnull]
        exact hrest.cons_null _
      · exact hrest.cons hname hv hne initial

theorem FieldsSurvive.record {fields : List (Text × FieldType × Option Value)}
    {given : List (Text × Value)} (h : FieldsSurvive fields given)
    (hnodup : (given.map Prod.fst).Nodup) (className : ClassName) :
    Survives (.record className fields) (.record className given) where
  null_or_ne := .inr ⟨nofun, nofun⟩
  regular := ⟨hnodup, h.regular⟩
  exists_node := by
    intro _ inRecord
    obtain ⟨children, hchildren⟩ := h.exists_nodes
    refine ⟨.dict children, ?_⟩
    rw [Node.ofValueIn, hchildren]
    rfl
  reread_eq := by rw [normal, reread, h.reread_eq]
  check_eq := by
    rw [normal, FieldType.check, universal, h.check_eq _ (entry?_normalFields hnodup)]
    rfl

/-- Every value of a portable type has a node, and is found again. -/
theorem survives_of_holds {v : Value} (h : type.Holds v) (htype : type.isPortable = true) :
    Survives type v := by
  -- by induction on how the value is held; the lemmas above put together what its parts satisfy
  induction h with
  | string h =>
    refine ⟨.inr ⟨nofun, nofun⟩, trivial, ?_, rfl, rfl⟩
    intro _ inRecord
    exact ⟨_, Node.ofText_of_isXml h⟩
  | integer hzero hmax =>
    refine ⟨.inr ⟨nofun, nofun⟩, trivial, ?_, rfl, rfl⟩
    intro _ inRecord
    exact ⟨_, Node.ofInteger_of_le hzero hmax⟩
  | boolean b =>
    refine ⟨.inr ⟨nofun, nofun⟩, trivial, ?_, rfl, rfl⟩
    intro _ inRecord
    exact ⟨_, rfl⟩
  | moment h =>
    refine ⟨.inr ⟨nofun, nofun⟩, ⟨h.day, h.clock⟩, ?_, rfl, rfl⟩
    intro _ inRecord
    exact Node.exists_ofMoment h
  | bytes b =>
    refine ⟨.inr ⟨nofun, nofun⟩, trivial, ?_, rfl, rfl⟩
    intro _ inRecord
    exact ⟨_, rfl⟩
  | absent type =>
    refine ⟨.inl ⟨rfl, rfl⟩, trivial, ?_, rfl, rfl⟩
    intro hne
    exact absurd rfl hne
  | @present type v h ih =>
    simp only [FieldType.isPortable, Bool.and_eq_true, Bool.not_eq_true'] at htype
    have hv := ih htype.2
    refine ⟨.inr (hv.ne_null htype.1), hv.regular, hv.exists_node, hv.reread_eq, ?_⟩
    rw [FieldType.check]
    · exact hv.check_eq
    · exact (hv.ne_null htype.1).2
  | list h ih =>
    simp only [FieldType.isPortable, Bool.and_eq_true, Bool.not_eq_true'] at htype
    apply AllSurvive.list
    exact allSurvive_of_forall htype.1 fun item hitem => ih item hitem htype.2
  | @choice className choices s h =>
    have hxml : s.isXml = true := List.all_eq_true.mp htype s h
    refine ⟨.inr ⟨nofun, nofun⟩, trivial, ?_, rfl, ?_⟩
    · intro _ inRecord
      exact ⟨_, Node.ofText_of_isXml hxml⟩
    · have hcontains : choices.contains s = true := List.contains_iff_mem.mpr h
      simp only [normal, FieldType.check, hcontains, if_true, universal]
  | record hnames h ih =>
    simp only [FieldType.isPortable, Bool.and_eq_true, decide_eq_true_eq] at htype
    rw [← hnames] at htype
    exact (fieldsSurvive_of_forall htype.2 hnames ih).record htype.1 _

/-- A record that a tree holds is what its type makes of the entries of the tree. -/
theorem Schema.ofNode_eq {schema : Schema} {node : Node} {entries : List (Value × Value)}
    {record : Value} (hnode : Value.ofNode node = pure (.dict entries))
    (hcheck : schema.type.check (.dict entries) = .ok record) :
    schema.ofNode node = pure record := by
  have hrecord : schema.record entries = .ok record := titled_eq_ok.mpr hcheck
  rw [Schema.ofNode, hnode, pure_bind]
  dsimp only
  rw [hrecord, Run.ofExcept_ok]

/-- A record of a portable schema that is dumped as its fields is read back from its document,
whoever reads it. -/
theorem exists_recordOfNode {schema : Schema} (hschema : schema.type.isPortable = true)
    {value : Value} (hvalue : schema.type.Holds value) {host : Host} {most room : ℕ}
    (hdump : value.DumpedBy host) (hcalls : ∀ v, host.calls v ≤ most)
    (hroom : schema.type.height + most ≤ room) {config : Config} (hcolumns : 1 ≤ config.columns)
    (reading : Config) :
    ∃ bytes tree, documentOfValue host room value (.wanted config) = .ok bytes ∧
      fromDocument (.wanted (.ofBytes bytes)) none (.wanted reading) = pure (some tree) ∧
      recordOfNode (.wanted tree) schema = pure value.universal := by
  have hsurvives := survives_of_holds hvalue hschema
  obtain ⟨tree, hnode⟩ := hsurvives.exists_node (hsurvives.ne_null rfl).1 false
  have htree := Node.isNodeOf_ofValueIn false false value hsurvives.regular (by simp) tree hnode
  obtain ⟨bytes, hbytes, hread⟩ := exists_documentBytes htree.valid hcolumns
  have hheight := Value.height_le_of_holds hvalue false
  refine ⟨bytes, tree.reread, ?_, ?_, ?_⟩
  · have hofValue : Node.ofValue host room value = .ok tree := by
      rw [Node.ofValue_eq hdump hcalls (by omega), hnode]
    simp only [documentOfValue, hofValue, hbytes, bind, Except.bind, pure, Except.pure]
  · exact hread reading
  · have hwritable := Node.isWritable_of_valid _ (Node.valid_reread tree htree.valid)
    have hfound : Value.ofNode tree.reread = pure value.normal := by
      rw [Value.ofNode_eq hwritable, Node.notices_reread, htree.quiet rfl, Node.value_reread,
        htree.value_eq, hsurvives.reread_eq]
      rfl
    cases hvalue with
    | record hnames h => exact Schema.ofNode_eq hfound hsurvives.check_eq

section Catalog

variable {path : Text} {schema : Schema}

theorem Schema.isPortable_of_mem (h : schema ∈ catalog path) : schema.type.isPortable = true := by
  simp only [catalog, List.mem_cons, List.not_mem_nil, or_false] at h
  obtain rfl | rfl | rfl | rfl | rfl := h <;> rfl

theorem Schema.height_le_of_mem (h : schema ∈ catalog path) : schema.type.height ≤ 7 := by
  simp only [catalog, List.mem_cons, List.not_mem_nil, or_false] at h
  obtain rfl | rfl | rfl | rfl | rfl := h <;> exact Nat.le_of_ble_eq_true rfl

/-- A person, a team or a profile that is dumped as its fields comes back from its document as it is,
with a field that has no value, the members of enumerations and the items of lists in their order. A
moment comes back as the same instant in universal time. Room for seven calls, beside those for a
single value, is enough for all of them. -/
theorem recordOfNode_documentOfValue (hschema : schema ∈ Schema.catalog path) {value : Value}
    (hvalue : schema.type.Holds value) {host : Host} {most room : ℕ} (hdump : value.DumpedBy host)
    (hcalls : ∀ v, host.calls v ≤ most) (hroom : 7 + most ≤ room) {config : Config}
    (hcolumns : 1 ≤ config.columns) :
    (∃ bytes tree, documentOfValue host room value (.wanted config) = .ok bytes ∧
      fromDocument (.wanted (.ofBytes bytes)) none (.wanted config) = pure (some tree) ∧
      recordOfNode (.wanted tree) schema = pure value.universal) ∧
    ∀ m : Moment, m.IsDate → m.universal.instant = m.instant ∧ m.universal.IsDate := by
  have hheight := Schema.height_le_of_mem hschema
  refine ⟨exists_recordOfNode (Schema.isPortable_of_mem hschema) hvalue hdump hcalls (by omega)
    hcolumns config, ?_⟩
  intro m hm
  obtain ⟨node, hnode⟩ := Node.exists_ofMoment hm
  obtain ⟨leaf, hleaf, -⟩ := except_map_eq_ok.mp hnode
  obtain ⟨hinstant, hday, hclock⟩ := Timestamp.instant_universal (titled_eq_ok.mp hleaf)
  refine ⟨hinstant, rfl, hday, hclock, ?_, ?_⟩
  · rw [hinstant]
    exact hm.first
  · rw [hinstant]
    exact hm.last

/-- A profile of a person without an address, made two hours east of universal time. -/
theorem recordOfNode_documentOfValue_profile :
    ∃ bytes tree, documentOfValue .plain 14 (.record ⟨[], text "Profile"⟩ [
        (text "title", .string (text "<a>")),
        (text "owner", .record ⟨[], text "Person"⟩ [(text "name", .string (text "Bob")),
          (text "age", .integer 25)]),
        (text "tags", .list [.string (text "b"), .string (text "a")]),
        (text "color", .enumeration ⟨[], text "Color"⟩ (.string (text "blue"))),
        (text "active", .boolean true),
        (text "created", .moment ⟨⟨2024, 1, 15⟩, ⟨1, 30, 45, 0⟩, some 7200000000⟩),
        (text "avatar", .bytes [137, 80])]) (.wanted .default) = .ok bytes ∧
      fromDocument (.wanted (.ofBytes bytes)) none (.wanted .default) = pure (some tree) ∧
      recordOfNode (.wanted tree) (.profile []) = pure (.record ⟨[], text "Profile"⟩ [
        (text "title", .string (text "<a>")),
        (text "owner", .record ⟨[], text "Person"⟩ [(text "name", .string (text "Bob")),
          (text "age", .integer 25)]),
        (text "tags", .list [.string (text "b"), .string (text "a")]),
        (text "color", .enumeration ⟨[], text "Color"⟩ (.string (text "blue"))),
        (text "active", .boolean true),
        (text "created", .moment ⟨⟨2024, 1, 14⟩, ⟨23, 30, 45, 0⟩, some 0⟩),
        (text "avatar", .bytes [137, 80])]) := by
  have hdate : Moment.IsDate ⟨⟨2024, 1, 15⟩, ⟨1, 30, 45, 0⟩, some 7200000000⟩ :=
    ⟨rfl, by decide, by decide, by decide, by decide⟩
  have howner : (Schema.owner []).type.Holds (.record ⟨[], text "Person"⟩ [
      (text "name", .string (text "Bob")), (text "age", .integer 25)]) := by
    refine .record rfl ?_
    simp only [Schema.owner, List.zip_cons_cons, List.zip_nil_left, List.forall_mem_cons]
    exact ⟨.string rfl, .integer (by decide) (by decide), nofun⟩
  have hprofile : (Schema.profile []).type.Holds (.record ⟨[], text "Profile"⟩ [
      (text "title", .string (text "<a>")),
      (text "owner", .record ⟨[], text "Person"⟩ [(text "name", .string (text "Bob")),
        (text "age", .integer 25)]),
      (text "tags", .list [.string (text "b"), .string (text "a")]),
      (text "color", .enumeration ⟨[], text "Color"⟩ (.string (text "blue"))),
      (text "active", .boolean true),
      (text "created", .moment ⟨⟨2024, 1, 15⟩, ⟨1, 30, 45, 0⟩, some 7200000000⟩),
      (text "avatar", .bytes [137, 80])]) := by
    refine .record rfl ?_
    simp only [Schema.profile, Schema.profileOf, List.zip_cons_cons, List.zip_nil_left,
      List.forall_mem_cons]
    refine ⟨.string rfl, howner, .list ?_, .choice (by decide), .boolean true, .moment hdate,
      .bytes _, nofun⟩
    rw [List.forall_mem_cons, List.forall_mem_singleton]
    exact ⟨.string rfl, .string rfl⟩
  have hmem : Schema.profile [] ∈ Schema.catalog [] := by simp [Schema.catalog]
  exact (recordOfNode_documentOfValue hmem hprofile
    (Value.dumpedBy_plain _) (fun _ => Nat.le_refl 7) (by decide)
    (show 1 ≤ Config.default.columns by decide)).1

end Catalog

end PropertyList
