import Mathlib.Data.Int.Notation
import Mathlib.Data.List.Forall2
import Mathlib.Data.List.Nodup
import PropertyList.Node.Heap
import PropertyList.Proofs.Leaf.Checked
import PropertyList.Proofs.Run

/-! Nodes through whole programs. Whatever a program does to its nodes, every one of them stays as its
class declares it, and a command that fails leaves all nodes as they were, though it may have made new
ones. Only `append` looks at nothing but the type of a child, so that a bare node can come in by this
way alone. -/
namespace PropertyList

namespace Heap

variable {heap grown : Heap}

theorem getElem?_mono (h : heap <+: grown) {ref : Ref} {cell : Cell} (hcell : heap[ref]? = some cell) :
    grown[ref]? = some cell := by
  obtain ⟨more, rfl⟩ := h
  have hlt := (List.getElem?_eq_some_iff.mp hcell).1
  rw [List.getElem?_append_left hlt, hcell]

/-- Whether a node of some kind lies at a place. -/
def Holds (heap : Heap) (ref : Ref) : Prop :=
  ∃ cell ∈ heap[ref]?, cell.kind?.isSome = true

theorem Holds.mono {ref : Ref} (h : heap.Holds ref) (hgrown : heap <+: grown) :
    grown.Holds ref := by
  obtain ⟨cell, hcell, hkind⟩ := h
  exact ⟨cell, getElem?_mono hgrown hcell, hkind⟩

/-- A node that is changed keeps its kind, and so do all others. -/
theorem Holds.set {ref target : Ref} {cell changed : Cell} (h : heap.Holds ref)
    (hcell : heap[target]? = some cell) (hkind : changed.kind? = cell.kind?) :
    Heap.Holds (heap.set target changed) ref := by
  obtain ⟨other, hother, hsome⟩ := h
  by_cases hsame : target = ref
  · subst hsame
    obtain rfl : cell = other := Option.some.inj (hcell.symm.trans hother)
    have hlt := (List.getElem?_eq_some_iff.mp hcell).1
    exact ⟨changed, List.getElem?_set_self hlt, hkind ▸ hsome⟩
  · exact ⟨other, (List.getElem?_set_ne hsame).trans hother, hsome⟩

theorem holds_append (heap : Heap) {cell : Cell} (h : cell.kind?.isSome = true) :
    Heap.Holds (heap ++ [cell]) heap.length :=
  ⟨cell, List.getElem?_concat_length, h⟩

end Heap

/-- Whether a field may hold something. Children are nodes of some kind. -/
def Content.Fits (heap : Heap) : Declared → Content → Prop
  | .constant s, .text t => t = s
  | .boolean, .boolean _ => True
  | .integer least greatest, .integer n => least ≤ n ∧ n ≤ greatest
  | .real, .real _ => True
  | .text, .text s => s.isXml = true
  | .bytes, .bytes _ => True
  | .children, .children refs => ∀ ref ∈ refs, heap.Holds ref
  | _, _ => False

/-- Whether an entry of a node is a field of its class with something that the field may hold. -/
def Field.Fits (heap : Heap) (field : Field) (entry : Text × Content) : Prop :=
  entry.1 = field.name ∧ entry.2.Fits heap field.declared

/-- Whether a node has just the fields of its class, and each of them holds what it may. -/
def Cell.Valid (heap : Heap) (cell : Cell) : Prop :=
  List.Forall₂ (Field.Fits heap) ((cell.kind?.map Kind.fields).getD []) cell.contents

/-- Whether every node is as its class declares it. -/
def Heap.Valid (heap : Heap) : Prop := ∀ cell ∈ heap, cell.Valid heap

theorem Content.Fits.mono {heap grown : Heap} {declared : Declared} {content : Content}
    (h : content.Fits heap declared) (hkeeps : ∀ ref, heap.Holds ref → grown.Holds ref) :
    content.Fits grown declared := by
  cases declared with
  | children =>
    cases content with
    | children refs => exact fun ref href => hkeeps ref (h ref href)
    | _ => exact h
  | _ => cases content <;> exact h

/-- A child that is put behind the others is a child like them. -/
theorem Content.Fits.push {heap : Heap} {declared : Declared} {content : Content}
    (h : content.Fits heap declared) {ref : Ref} (href : heap.Holds ref) :
    (content.push ref).Fits heap declared := by
  cases content with
  | children refs =>
    cases declared with
    | children => exact List.forall_mem_append.mpr ⟨h, List.forall_mem_singleton.mpr href⟩
    | _ => exact h.elim
  | _ => exact h

theorem Cell.Valid.mono {heap grown : Heap} {cell : Cell} (h : cell.Valid heap)
    (hkeeps : ∀ ref, heap.Holds ref → grown.Holds ref) : cell.Valid grown :=
  List.Forall₂.imp (fun _ _ hfits => ⟨hfits.1, hfits.2.mono hkeeps⟩) h

/-- What a field holds by default passes its own check. -/
theorem Field.fits_initial (heap : Heap) {kind : Kind} :
    ∀ field ∈ kind.fields, field.initial.Fits heap field.declared := by
  have hdate : minSeconds ≤ 0 ∧ 0 ≤ maxSeconds := by decide
  cases kind <;> simp [Kind.fields, Content.Fits, hdate, Text.isXml]

/-- No class has two fields of one name. -/
theorem Kind.nodup_fields (kind : Kind) : (kind.fields.map Field.name).Nodup := by
  cases kind <;> decide

namespace Heap

variable {heap : Heap} {cell changed : Cell} {target : Ref}

theorem Valid.add (h : heap.Valid) (hcell : cell.Valid heap) : Heap.Valid (heap ++ [cell]) := by
  have hkeeps (ref : Ref) (href : heap.Holds ref) := href.mono (List.prefix_append heap [cell])
  intro other hother
  rcases List.mem_append.mp hother with hold | hnew
  · exact (h other hold).mono hkeeps
  · rw [List.mem_singleton.mp hnew]
    exact hcell.mono hkeeps

theorem Valid.set (h : heap.Valid) (hcell : heap[target]? = some cell)
    (hkind : changed.kind? = cell.kind?) (hchanged : changed.Valid heap) :
    Heap.Valid (heap.set target changed) := by
  intro other hother
  have hkeeps (ref : Ref) (href : heap.Holds ref) := href.set hcell hkind
  rcases List.mem_or_eq_of_mem_set hother with hold | rfl
  · exact (h other hold).mono hkeeps
  · exact hchanged.mono hkeeps

end Heap

/-- A field that is changed into something it may hold leaves the node valid. -/
theorem Cell.Valid.update {heap : Heap} {cell : Cell} {name : Text} {change : Content → Content}
    (h : cell.Valid heap)
    (hchange : ∀ kind ∈ cell.kind?, ∀ field ∈ kind.fields, field.name = name → ∀ content,
      content.Fits heap field.declared → (change content).Fits heap field.declared) :
    (cell.update name change).Valid heap := by
  have hfields : ∀ field ∈ (cell.kind?.map Kind.fields).getD [], field.name = name → ∀ content,
      Content.Fits heap field.declared content →
        Content.Fits heap field.declared (change content) := by
    cases hkind : cell.kind? with
    | none => simp
    | some kind => exact hchange kind hkind
  unfold Valid at h
  unfold Valid Cell.update
  dsimp only
  generalize (cell.kind?.map Kind.fields).getD [] = fields at h hfields ⊢
  generalize cell.contents = contents at h ⊢
  induction h with
  | nil => exact .nil
  | @cons field entry _ _ hfits _ ih =>
    rw [List.forall_mem_cons] at hfields
    refine .cons ?_ (ih hfields.2)
    dsimp only
    split_ifs with hname
    · exact ⟨hfits.1, hfields.1 (hfits.1.symm.trans hname) _ hfits.2⟩
    · exact hfits

/-! What a check ensures, and what it leaves alone. -/

/-- Whether a check only makes nodes, all of them valid, and its results are as they should be in the
heap that is reached. -/
def Check.Ensures {α : Type} (check : Check α) (P : Heap → α → Prop) : Prop :=
  ∀ heap : Heap, heap.Valid →
    heap <+: (check heap).2 ∧ (check heap).2.Valid ∧
      ∀ a, (check heap).1 = .ok a → P (check heap).2 a

namespace Check

variable {α β : Type} {check : Check α} {P Q : Heap → α → Prop} {R : Heap → β → Prop}

theorem ensures_ofExcept {result : Except (List Issue) α} (h : ∀ heap a, result = .ok a → P heap a) :
    (ofExcept result).Ensures P :=
  fun heap hheap => ⟨List.prefix_rfl, hheap, h heap⟩

theorem Ensures.map (h : check.Ensures P) {f : α → β} (hf : ∀ heap a, P heap a → R heap (f a)) :
    (check.map f).Ensures R := by
  intro heap hheap
  obtain ⟨hgrown, hvalid, hresult⟩ := h heap hheap
  refine ⟨hgrown, hvalid, ?_⟩
  intro b hb
  obtain ⟨a, ha, rfl⟩ := except_map_eq_ok.mp hb
  exact hf _ a (hresult a ha)

theorem Ensures.inside (h : check.Ensures P) (step : Place) : (check.inside step).Ensures P := by
  intro heap hheap
  obtain ⟨hgrown, hvalid, hresult⟩ := h heap hheap
  exact ⟨hgrown, hvalid, fun a ha => hresult a (issuesInside_eq_ok.mp ha)⟩

/-- What the first check ensures has to stand when the second one makes more nodes. -/
theorem Ensures.both (h : check.Ensures P) {second : Check β} (hsecond : second.Ensures R)
    (hmono : ∀ heap grown : Heap, heap <+: grown → ∀ a, P heap a → P grown a) :
    (check.both second).Ensures fun heap parts => P heap parts.1 ∧ R heap parts.2 := by
  intro heap hheap
  obtain ⟨hgrown, hvalid, hresult⟩ := h heap hheap
  obtain ⟨hmore, hreached, hother⟩ := hsecond _ hvalid
  refine ⟨hgrown.trans hmore, hreached, ?_⟩
  intro parts hparts
  obtain ⟨hfirst, hlast⟩ := both_eq_ok.mp hparts
  exact ⟨hmono _ _ hmore _ (hresult _ hfirst), hother _ hlast⟩

theorem Ensures.making {kind : Kind} {check : Check (List (Text × Content))}
    (h : check.Ensures fun heap contents => List.Forall₂ (Field.Fits heap) kind.fields contents) :
    (making kind check).Ensures Heap.Holds := by
  intro heap hheap
  obtain ⟨hgrown, hvalid, hresult⟩ := h heap hheap
  unfold Check.making
  cases hcheck : (check heap).1 with
  | error issues => exact ⟨hgrown, hvalid, nofun⟩
  | ok contents =>
    refine ⟨hgrown.trans (List.prefix_append _ _), hvalid.add (hresult contents hcheck), ?_⟩
    rintro ref ⟨⟩
    exact Heap.holds_append _ rfl

end Check

section Fields

variable {Object : Type} {checker : Checker Object} {children : Object → Check (List Ref)}
  (hchildren : ∀ object, (children object).Ensures fun heap refs => ∀ ref ∈ refs, heap.Holds ref)

theorem Checker.integerIn_eq_ok {least greatest n : ℤ} {object : Object}
    (h : checker.integerIn least greatest object = .ok n) : least ≤ n ∧ n ≤ greatest := by
  obtain ⟨m, -, hm⟩ := except_bind_eq_ok.mp h
  split at hm
  · cases hm
  · rename_i hrange
    cases hm
    exact rangeProblem?_eq_none.mp hrange

theorem Checker.xmlText_eq_ok {s : Text} {object : Object} (h : checker.xmlText object = .ok s) :
    s.isXml = true := by
  obtain ⟨t, -, ht⟩ := except_bind_eq_ok.mp h
  split at ht
  · cases ht
  · rename_i hcharacters
    cases ht
    exact characterProblem?_eq_none.mp hcharacters

include hchildren

/-- What passes the check of a field is what the field may hold. -/
theorem Declared.ensures_check (declared : Declared) (object : Object) :
    (declared.check checker children object).Ensures fun heap content =>
      content.Fits heap declared := by
  cases declared with
  | constant s =>
    refine Check.ensures_ofExcept fun heap content h => ?_
    split_ifs at h
    cases h
    rfl
  | integer least greatest =>
    refine Check.ensures_ofExcept fun heap content h => ?_
    obtain ⟨n, hn, rfl⟩ := except_map_eq_ok.mp h
    exact checker.integerIn_eq_ok hn
  | text =>
    refine Check.ensures_ofExcept fun heap content h => ?_
    obtain ⟨s, hs, rfl⟩ := except_map_eq_ok.mp h
    exact checker.xmlText_eq_ok hs
  | children => exact (hchildren object).map fun heap refs hrefs => hrefs
  | _ =>
    refine Check.ensures_ofExcept fun heap content h => ?_
    obtain ⟨a, -, rfl⟩ := except_map_eq_ok.mp h
    trivial

theorem Field.ensures_check {kind : Kind} {field : Field} (hfield : field ∈ kind.fields)
    (given : List (Text × Object)) :
    (field.check checker children given).Ensures fun heap content =>
      content.Fits heap field.declared := by
  unfold Field.check
  split
  · refine Check.ensures_ofExcept fun heap content h => ?_
    cases h
    exact Field.fits_initial heap field hfield
  · exact (Declared.ensures_check hchildren field.declared _).inside _

/-- The fields of a class come out in their order. The induction is on the fields. -/
theorem ensures_checkFields {kind : Kind} (given : List (Text × Object)) {fields : List Field}
    (hfields : ∀ field ∈ fields, field ∈ kind.fields) :
    (checkFields checker children given fields).Ensures fun heap contents =>
      List.Forall₂ (Field.Fits heap) fields contents := by
  induction fields with
  | nil =>
    refine Check.ensures_ofExcept fun heap contents h => ?_
    cases h
    exact .nil
  | cons field rest ih =>
    rw [List.forall_mem_cons] at hfields
    have hfirst : (field.check checker children given).Ensures fun heap content =>
        content.Fits heap field.declared := Field.ensures_check hchildren hfields.1 given
    have hboth := hfirst.both (ih hfields.2) fun heap grown hgrown content hfits =>
      hfits.mono fun ref href => href.mono hgrown
    exact hboth.map fun heap parts hparts => .cons ⟨rfl, hparts.1⟩ hparts.2

theorem Kind.ensures_make (kind : Kind) (given : List (Text × Object)) :
    (kind.make checker children given).Ensures Heap.Holds :=
  (ensures_checkFields hchildren given fun _ hfield => hfield).making

end Fields

section Children

variable {Object : Type} {checker : Checker Object}

theorem ensures_checkAll {check : Object → Check Ref}
    (h : ∀ object, (check object).Ensures Heap.Holds) (i : ℕ) (items : List Object) :
    (checkAll check i items).Ensures fun heap refs => ∀ ref ∈ refs, heap.Holds ref := by
  induction items generalizing i with
  | nil =>
    refine Check.ensures_ofExcept fun heap refs hrefs => ?_
    cases hrefs
    simp
  | cons object rest ih =>
    have hboth := ((h object).inside (.index i)).both (ih (i + 1))
      fun heap grown hgrown ref href => href.mono hgrown
    exact hboth.map fun heap parts hparts => List.forall_mem_cons.mpr hparts

/-- Whether the nodes that are taken as they are for children are of some kind. -/
def Checker.Sound (checker : Checker Object) : Prop :=
  ∀ target heap object ref, checker.child target heap object = .ok (.node ref) → heap.Holds ref

/-- The children of a node are of some kind. The induction is on the room for objects inside each
other. -/
theorem Checker.Sound.ensures_children (h : checker.Sound) (target : Option Ref) (room : ℕ)
    (object : Object) :
    (checker.children target room object).Ensures fun heap refs => ∀ ref ∈ refs, heap.Holds ref := by
  induction room generalizing object with
  | zero => exact Check.ensures_ofExcept nofun
  | succ room ih =>
    rw [Checker.children]
    split
    · exact Check.ensures_ofExcept nofun
    · refine ensures_checkAll (fun item heap hheap => ?_) 0 _
      unfold Checker.childOf
      cases hchild : checker.child target heap item with
      | error issues => exact ⟨List.prefix_rfl, hheap, nofun⟩
      | ok child =>
        cases child with
        | node ref =>
          refine ⟨List.prefix_rfl, hheap, ?_⟩
          rintro other ⟨⟩
          exact h target heap item ref hchild
        | made kind given => exact (Kind.ensures_make ih kind given).inside _ heap hheap

end Children

namespace Command

variable {Object : Type} {checker : Checker Object} {room : ℕ} {heap reached : Heap}
  {command : Command Object} {failure : Failure}

/-- Whether what is put into a container is a node of some kind. -/
def IsSound (heap : Heap) : Command Object → Prop
  | .append _ (.wanted child) => heap.Holds child
  | _ => True

/-- Whether a command came to a good end: all nodes are valid, and if it failed, those that were there
are as they were. -/
def Settles {α : Type} (heap : Heap) : EStateM.Result Failure Heap α → Prop
  | .ok _ reached => reached.Valid
  | .error _ reached => heap <+: reached ∧ reached.Valid

theorem settles_run {α : Type} {check : Check α} {P : Heap → α → Prop} (h : check.Ensures P)
    (hheap : heap.Valid) (title : Text) : Settles heap (check.run title heap) := by
  obtain ⟨hgrown, hvalid, -⟩ := h heap hheap
  unfold Check.run
  split
  · exact hvalid
  · exact ⟨hgrown, hvalid⟩

/-- A cell of some kind is there. -/
theorem getElem?_cellAt {target : Ref} {kind : Kind} (h : (heap.cellAt target).kind? = some kind) :
    heap[target]? = some (heap.cellAt target) := by
  unfold Heap.cellAt at h ⊢
  cases hcell : heap[target]? with
  | some cell => rfl
  | none =>
    rw [hcell] at h
    cases h

/-- A command sees the heap that it is run on. -/
theorem get_bind {α : Type} (next : Heap → EStateM Failure Heap α) :
    (get >>= next) heap = next heap heap :=
  rfl

theorem bind_eq {α β : Type} (first : EStateM Failure Heap α) (next : α → EStateM Failure Heap β) :
    (first >>= next) heap =
      match first heap with
      | .ok a reached => next a reached
      | .error failure reached => .error failure reached := by
  simp only [bind, EStateM.bind]
  cases first heap <;> rfl

theorem run_assign (target : Ref) (name : Text) (given : Object) :
    (assign target name given).run checker room heap =
      match (heap.cellAt target).field? name with
      | none =>
        .error (.invalid (heap.cellAt target).title [⟨[.field name], .unknownField name⟩]) heap
      | some field =>
        match (field.check checker (checker.children (some target) room)
            [(field.name, given)]).run (heap.cellAt target).title heap with
        | .ok content reached =>
          .ok target (reached.set target ((heap.cellAt target).update name fun _ => content))
        | .error failure reached => .error failure reached := by
  simp only [run, get_bind]
  cases (heap.cellAt target).field? name with
  | none => rfl
  | some field =>
    dsimp only
    rw [bind_eq]
    cases (field.check checker (checker.children (some target) room)
      [(field.name, given)]).run (heap.cellAt target).title heap <;> rfl

theorem run_append (target : Ref) (child : Given Ref) :
    (append target child : Command Object).run checker room heap =
      if (heap.cellAt target).isContainer then
        match child.get .node with
        | .ok ref =>
          .ok ref (heap.set target
            ((heap.cellAt target).update (text "children") (Content.push ref)))
        | .error failure => .error failure heap
      else .error (.noContainer (heap.cellAt target).title) heap := by
  simp only [run, get_bind]
  split_ifs
  · cases child.get .node <;> rfl
  · rfl

/-- A field that is assigned holds what passed its check. -/
theorem settles_assign (hchecker : checker.Sound) (hheap : heap.Valid) (target : Ref) (name : Text)
    (given : Object) : Settles heap ((assign target name given).run checker room heap) := by
  rw [run_assign]
  cases hfield : (heap.cellAt target).field? name with
  | none => exact ⟨List.prefix_rfl, hheap⟩
  | some field =>
    obtain ⟨kind, hkind, hfind⟩ := Option.bind_eq_some_iff.mp hfield
    have hmem := List.mem_of_find?_eq_some hfind
    have hname : field.name = name := by simpa using List.find?_some hfind
    obtain ⟨hgrown, hvalid, hcontent⟩ := Field.ensures_check
      (hchecker.ensures_children (some target) room) hmem [(field.name, given)] heap hheap
    unfold Check.run
    dsimp only
    cases htitled : titled (heap.cellAt target).title
        (field.check checker (checker.children (some target) room) [(field.name, given)] heap).1 with
    | error failure => exact ⟨hgrown, hvalid⟩
    | ok content =>
      have hfits := hcontent content (titled_eq_ok.mp htitled)
      have hreached := Heap.getElem?_mono hgrown (getElem?_cellAt hkind)
      refine hvalid.set hreached rfl ((hvalid _ (List.mem_of_getElem? hreached)).update ?_)
      intro other hother same hsame hsameName _ _
      -- the field of the name is the one that was checked
      obtain rfl : kind = other := Option.some.inj (hkind.symm.trans hother)
      obtain rfl : same = field :=
        List.inj_on_of_nodup_map kind.nodup_fields hsame hmem (hsameName.trans hname.symm)
      exact hfits

theorem settles_append (hheap : heap.Valid) (target : Ref) {child : Given Ref}
    (h : (append target child : Command Object).IsSound heap) :
    Settles heap ((append target child : Command Object).run checker room heap) := by
  rw [run_append]
  split_ifs with hcontainer
  · cases child with
    | other className => exact ⟨List.prefix_rfl, hheap⟩
    | wanted ref =>
      obtain ⟨holder, hholder⟩ := Option.isSome_iff_exists.mp hcontainer
      obtain ⟨kind, hkind, -⟩ := Option.bind_eq_some_iff.mp hholder
      have hcell := getElem?_cellAt hkind
      refine hheap.set hcell rfl ((hheap _ (List.mem_of_getElem? hcell)).update ?_)
      intro _ _ _ _ _ content hfits
      exact hfits.push h
  · exact ⟨List.prefix_rfl, hheap⟩

/-- A command leaves all nodes valid, and if it fails, those that were there as they were. -/
theorem settles (hchecker : checker.Sound) (hheap : heap.Valid) (h : command.IsSound heap) :
    Settles heap (command.run checker room heap) := by
  cases command with
  | construct kind given =>
    exact settles_run (Kind.ensures_make (hchecker.ensures_children none room) kind given) hheap _
  | constructBare => exact hheap.add .nil
  | assign target name given => exact settles_assign hchecker hheap target name given
  | append target child => exact settles_append hheap target h

/-- The heap behind some commands, one after another, whether they fail or not. -/
def afterAll (checker : Checker Object) (room : ℕ) (commands : List (Command Object)) (heap : Heap) :
    Heap :=
  commands.foldl (fun heap command => command.after checker room heap) heap

/-- Whether all commands are sound where they are carried out. -/
def AreSound (checker : Checker Object) (room : ℕ) : Heap → List (Command Object) → Prop
  | _, [] => True
  | heap, command :: rest =>
    command.IsSound heap ∧ AreSound checker room (command.after checker room heap) rest

theorem valid_after (hchecker : checker.Sound) (hheap : heap.Valid) (h : command.IsSound heap) :
    (command.after checker room heap).Valid := by
  have hsettles : Settles heap (command.run checker room heap) := settles hchecker hheap h
  unfold after
  cases hrun : command.run checker room heap with
  | ok ref reached =>
    rw [hrun] at hsettles
    exact hsettles
  | error failure reached =>
    rw [hrun] at hsettles
    exact hsettles.2

theorem valid_afterAll (hchecker : checker.Sound) {commands : List (Command Object)}
    (hheap : heap.Valid) (h : AreSound checker room heap commands) :
    (afterAll checker room commands heap).Valid := by
  induction commands generalizing heap with
  | nil => exact hheap
  | cons command rest ih => exact ih (valid_after hchecker hheap h.1) h.2

theorem AreSound.of_append {front back : List (Command Object)}
    (h : AreSound checker room heap (front ++ back)) : AreSound checker room heap front := by
  induction front generalizing heap with
  | nil => trivial
  | cons command rest ih => exact ⟨h.1, ih h.2⟩

/-- Whatever a program does to its nodes, and however objects are converted, behind every step each
node has just the fields of its class, the tag of its kind, a payload that a property list admits, and
children of some kind only, if no bare node is appended. A step that fails leaves all nodes as they
were; those that it may have made are valid. -/
theorem valid_of_program (hchecker : checker.Sound) {commands : List (Command Object)}
    (h : AreSound checker room [] commands) (front : List (Command Object))
    (hfront : front <+: commands) :
    (afterAll checker room front []).Valid ∧
      ∀ (command : Command Object) (failure : Failure) (reached : Heap),
        command.IsSound (afterAll checker room front []) →
        command.run checker room (afterAll checker room front []) = .error failure reached →
          afterAll checker room front [] <+: reached ∧ reached.Valid := by
  obtain ⟨back, rfl⟩ := hfront
  have hvalid := valid_afterAll hchecker (by simp [Heap.Valid]) h.of_append
  refine ⟨hvalid, ?_⟩
  intro command failure reached hsound hrun
  have hsettles : Settles _ (command.run checker room _) := settles hchecker hvalid hsound
  rw [hrun] at hsettles
  exact hsettles

end Command

/-- Objects of a small language. -/
inductive Argument where
  | scalar (value : Value)
  | node (ref : Ref)
  | list (items : List Argument)
  | dict (entries : List (Text × Argument))

namespace Argument

/-- What a conversion of values makes of an argument. All that is no scalar counts as a list. -/
def read {α : Type} (convert : Value → Except Problem α) : Argument → Except (List Issue) α
  | .scalar value => (convert value).mapError fun problem => [⟨[], problem⟩]
  | _ => (convert (.list [])).mapError fun problem => [⟨[], problem⟩]

/-- What an argument stands for as a child. A node is no child of itself where it is assigned. -/
def child (target : Option Ref) (heap : Heap) : Argument → Except (List Issue) (Child Argument)
  | .node ref =>
    if target = some ref then .error [⟨[], .loop⟩]
    else if (heap.cellAt ref).kind?.isSome then .ok (.node ref)
    else .error [⟨[], .noTag⟩]
  | .dict entries =>
    match entries.lookup (text "type") with
    | some (.scalar (.string name)) =>
      match Kind.ofName? name with
      | some kind => .ok (.made kind entries)
      | none => .error [⟨[], .unknownTag name (Kind.all.map Kind.name)⟩]
    | _ => .error [⟨[], .noTag⟩]
  | _ => .error [⟨[], .noAttributes⟩]

/-- A library that converts scalars as the fields of leaves are read. -/
def checker : Checker Argument where
  isConstant s
    | .scalar (.string t) => t == s
    | _ => false
  boolean := read Value.asBoolean
  integer := read Value.asInteger
  real := read Value.asReal
  text := read Value.asText
  bytes := read Value.asBytes
  items
    | .list items => .ok items
    | _ => .error [⟨[], .noList⟩]
  child := child
  tooDeep := [⟨[], .loop⟩]

theorem sound_checker : checker.Sound := by
  intro target heap object ref h
  change child target heap object = _ at h
  cases object with
  | node other =>
    rw [child] at h
    split_ifs at h with hself hkind
    cases h
    obtain ⟨kind, hkind⟩ := Option.isSome_iff_exists.mp hkind
    exact ⟨_, Command.getElem?_cellAt hkind, by rw [hkind]; rfl⟩
  | dict entries =>
    rw [child] at h
    split at h
    · split at h <;> cases h
    · cases h
  | _ => cases h

end Argument

/-- A text that is a child twice, beside a new date, in a list that is a child of itself. The list is
refused where it is assigned to itself, and a character where no document may hold it. -/
theorem Command.valid_of_program_shared :
    Command.AreSound Argument.checker 9 []
        [.construct .array [], .construct .string [(text "value", .scalar (.string (text "a")))],
          .append 0 (.wanted 1), .assign 0 (text "children") (.list [.node 1, .dict [
            (text "type", .scalar (.string (text "date"))),
            (text "seconds", .scalar (.integer (-1)))], .node 1]),
          .append 0 (.wanted 0), .assign 0 (text "children") (.list [.node 0]),
          .assign 1 (text "value") (.scalar (.string [0x1]))] ∧
      Heap.Valid [
        ⟨some .array, [(text "type", .text (text "array")), (text "children", .children [1, 2, 1, 0])]⟩,
        ⟨some .string, [(text "type", .text (text "string")), (text "value", .text (text "a"))]⟩,
        ⟨some .date, [(text "type", .text (text "date")), (text "seconds", .integer (-1)),
          (text "microseconds", .integer 0)]⟩] := by
  have hsound : Command.AreSound Argument.checker 9 []
        [.construct .array [], .construct .string [(text "value", .scalar (.string (text "a")))],
          .append 0 (.wanted 1), .assign 0 (text "children") (.list [.node 1, .dict [
            (text "type", .scalar (.string (text "date"))),
            (text "seconds", .scalar (.integer (-1)))], .node 1]),
          .append 0 (.wanted 0), .assign 0 (text "children") (.list [.node 0]),
          .assign 1 (text "value") (.scalar (.string [0x1]))] :=
    ⟨trivial, trivial, ⟨_, rfl, rfl⟩, trivial, ⟨_, rfl, rfl⟩, trivial, trivial, trivial⟩
  exact ⟨hsound, (Command.valid_of_program Argument.sound_checker hsound _ List.prefix_rfl).1⟩

end PropertyList
