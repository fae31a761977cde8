import PropertyList.Proofs.Document.Reader
import PropertyList.Proofs.Document.Writer
import PropertyList.Proofs.Markup.Content
import PropertyList.Proofs.Markup.Tag

/-! Layouts read back. A text lays out some nodes if it is read as content that holds just these
nodes, wherever it stands; indentation lays out nothing, and layouts follow one another and stand
inside the tags of a container. -/
namespace PropertyList
open Markup

mutual

/-- The node that the layout of a node denotes: every real in it becomes the number that its text
denotes, and all else stays. -/
def Node.reread : Node → Node
  | .leaf l => .leaf l.reread
  | .container kind children => .container kind (rereadAll children)
  | .bare => .bare

def Node.rereadAll : List Node → List Node
  | [] => []
  | node :: rest => node.reread :: rereadAll rest

end

namespace Markup

/-- An element that has just been opened, outside of all namespaces. -/
def OpenElement.fresh (tag : Text) : OpenElement := ⟨tag, tag, [], Scope.initial, []⟩

section Tags

variable {latin : Bool} {policy : AttributePolicy} {tag : Text}

theorem reads_tag (htag : tag.IsWord) {raw : Text}
    (hraw : raw = tag ∨ raw = ch '/' :: tag ∨ raw = tag ++ [ch '/']) {read : Text}
    {before middle reached : Assembly}
    (htext : Assembly.addPiece latin policy before (.characters read.reverse) = some middle)
    (hpiece : Assembly.addPiece latin policy middle (.tag raw) = some reached) :
    Reads latin policy (ch '<' :: raw ++ [ch '>']) read before [] reached := by
  have hmem : ∀ c ∈ raw, c ∈ tag ∨ c = ch '/' := by
    rcases hraw with rfl | rfl | rfl
    · exact fun c hc => .inl hc
    · exact fun c hc => (List.mem_cons.mp hc).symm
    · exact fun c hc => (List.mem_append.mp hc).imp_right List.mem_singleton.mp
  have hplain (c : ℕ) (hc : c ∈ raw) :
      c ≠ ch '>' ∧ c ≠ ch '"' ∧ c ≠ ch '\'' ∧ c ≠ ch '!' ∧ c ≠ ch '?' := by
    rcases hmem c hc with h | rfl
    · have hne (d : ℕ) (hd : d < 0x61) : c ≠ d := htag.ne_of_mem h hd
      exact ⟨hne _ (by decide), hne _ (by decide), hne _ (by decide), hne _ (by decide),
        hne _ (by decide)⟩
    · decide
  have hne : raw ≠ [] := by
    rcases hraw with rfl | rfl | rfl
    · exact htag.1
    · simp
    · simp
  apply Reads.tag hne ⟨_, _⟩ (fun c hc => ⟨(hplain c hc).1, (hplain c hc).2.1, (hplain c hc).2.2.1⟩)
    htext hpiece
  · exact fun heq => (hplain _ (List.mem_of_head? heq)).2.2.2.1 rfl
  · exact fun heq => (hplain _ (List.mem_of_head? heq)).2.2.2.2 rfl

theorem reads_openTag (hrules : policy.rules = []) (htag : tag.IsWord) {read : Text}
    (hread : read.IsIndent) {element : OpenElement} (hscope : element.scope = Scope.initial)
    (outer : List OpenElement) :
    Reads latin policy (openTag tag) read (.inside element outer) []
      (.inside (.fresh tag) (element.extend [.text read.reverse] :: outer)) := by
  apply reads_tag htag (.inl rfl) (Assembly.addPiece_of_isIndent hread.reverse element outer)
  have hopen := openElement?_of_isWord latin hrules htag
  rw [Assembly.addPiece, Tag.read?_opening latin htag]
  simp [Assembly.open?, Assembly.inside, OpenElement.extend, OpenElement.fresh, hscope, hopen]

/-- The end of an element puts it into its parent, with the text in front of its end tag. -/
theorem reads_closeTag (htag : tag.IsWord) {read s : Text}
    (htext : characterData latin read.reverse = some s) (element : OpenElement)
    (hname : element.rawName = tag) (parent : OpenElement) (outer : List OpenElement) :
    Reads latin policy (closeTag tag) read (.inside element (parent :: outer)) []
      (.inside (parent.extend
        [.element element.name element.attributes (element.extend [.text s]).content.reverse])
        outer) := by
  have hcharacters : Assembly.addPiece latin policy (.inside element (parent :: outer))
      (.characters read.reverse) = some (.inside (element.extend [.text s]) (parent :: outer)) := by
    simp [Assembly.addPiece, Assembly.inside, htext, Assembly.addText, OpenElement.extend]
  apply reads_tag htag (.inr (.inl rfl)) hcharacters
  rw [Assembly.addPiece, Tag.read?_closing latin htag]
  simp [Assembly.close?, Assembly.inside, OpenElement.extend, hname]

theorem reads_emptyTag (hrules : policy.rules = []) (htag : tag.IsWord) {read : Text}
    (hread : read.IsIndent) {element : OpenElement} (hscope : element.scope = Scope.initial)
    (outer : List OpenElement) :
    Reads latin policy (emptyTag tag) read (.inside element outer) []
      (.inside (element.extend [.element tag [] [], .text read.reverse]) outer) := by
  have hsplit : emptyTag tag = ch '<' :: (tag ++ [ch '/']) ++ [ch '>'] := by simp [emptyTag]
  rw [hsplit]
  apply reads_tag htag (.inr (.inr rfl)) (Assembly.addPiece_of_isIndent hread.reverse element outer)
  have hopen := openElement?_of_isWord latin hrules htag
  rw [Assembly.addPiece, Tag.read?_empty latin htag]
  simp [Assembly.open?, Assembly.close?, Assembly.inside, OpenElement.extend, hscope, hopen]

end Tags

end Markup

/-- A text lays out nodes: inside an element without namespaces, behind indentation, it is read as
items that hold just these nodes, and leaves nothing but indentation behind them. -/
def Lays (policy : AttributePolicy) (s : Text) (nodes : List Node) : Prop :=
  ∀ read : Text, read.IsIndent → ∀ element : OpenElement, element.scope = Scope.initial →
    ∀ outer, ∃ items after, after.IsIndent ∧
      Reads false policy s read (.inside element outer) after
        (.inside (element.extend items) outer) ∧
      ∀ strict, nodesOf strict items.reverse = pure nodes

namespace Lays

variable {policy : AttributePolicy}

theorem of_isIndent {s : Text} (h : s.IsIndent) : Lays policy s [] := by
  intro read hread element _ outer
  have hplain : ch '<' ∉ s := by
    intro hmem
    rcases h _ hmem with heq | heq <;> cases heq
  exact ⟨[], s.reverse ++ read, h.reverse.append hread, Reads.characters hplain read _,
    fun _ => nodesOf_nil⟩

theorem append {s t : Text} {nodes more : List Node} (h : Lays policy s nodes)
    (h' : Lays policy t more) : Lays policy (s ++ t) (nodes ++ more) := by
  intro read hread element hscope outer
  obtain ⟨items, between, hbetween, hreads, hnodes⟩ := h read hread element hscope outer
  obtain ⟨others, after, hafter, hreads', hnodes'⟩ :=
    h' between hbetween (element.extend items) hscope outer
  rw [OpenElement.extend_extend] at hreads'
  refine ⟨others ++ items, after, hafter, hreads.trans hreads', ?_⟩
  intro strict
  rw [List.reverse_append, nodesOf_append, hnodes, hnodes', pure_bind, pure_bind]

/-- A layout between the tags of a container lays out the container. -/
theorem container (hrules : policy.rules = []) {s : Text} {nodes : List Node}
    (h : Lays policy s nodes) (kind : ContainerKind) :
    Lays policy (openTag kind.tag ++ s ++ closeTag kind.tag) [.container kind nodes] := by
  have htag := kind.isWord_tag
  have hkind : containerOfTag? kind.tag = some kind := by cases kind <;> decide
  intro read hread element hscope outer
  have hopen : Reads false policy _ _ _ _ _ := reads_openTag hrules htag hread hscope outer
  obtain ⟨items, after, hafter, hreads, hnodes⟩ :=
    h [] Text.isIndent_nil (.fresh kind.tag) rfl
      (element.extend [.text read.reverse] :: outer)
  have hclose : Reads false policy _ _ _ _ _ := reads_closeTag htag
    (characterData_of_isIndent false hafter.reverse) ((OpenElement.fresh kind.tag).extend items) rfl
    (element.extend [.text read.reverse]) outer
  rw [OpenElement.extend_extend, OpenElement.extend_extend] at hclose
  refine ⟨_, [], Text.isIndent_nil, (hopen.trans hreads).trans hclose, ?_⟩
  intro strict
  have hcontent : ((OpenElement.fresh kind.tag).extend ([.text after.reverse] ++ items)).content =
      .text after.reverse :: items := by
    simp [OpenElement.extend, OpenElement.fresh]
  have hname : ((OpenElement.fresh kind.tag).extend items).name = kind.tag := rfl
  rw [hcontent, hname]
  simp only [List.reverse_cons, List.reverse_nil, List.nil_append,
    List.singleton_append, nodesOf_text, nodesOf_container hkind, nodesOf_append, hnodes, nodesOf_nil,
    pure_bind, List.append_nil]

/-- The element of a leaf lays out the leaf that its tag and text denote. -/
theorem leaf (hrules : policy.rules = []) {l : Leaf} (h : l.Valid) (depth : ℕ) {columns : ℕ}
    (hcolumns : 1 ≤ columns) : Lays policy (l.element depth columns) [.leaf l.reread] := by
  have htag := l.isWord_tag
  have hknown : ∀ tag ∈ leafTags,
      containerOfTag? tag = none ∧ (kindOfTag? tag).isSome = true := by decide
  obtain ⟨hnone, hkind⟩ := hknown _ l.tag_mem_leafTags
  have helement (strict : Bool) (content : List Item)
      (hcontent : innerTextOf content = (l.content? depth columns).getD []) (s : Text) :
      nodesOf strict [.text s, .element l.tag [] content] = pure [.leaf l.reread] := by
    rw [nodesOf_text, nodesOf_leaf hnone, readElement, if_pos hkind, hcontent,
      Leaf.decode_content? strict h depth hcolumns, nodesOf_nil]
    rfl
  intro read hread element hscope outer
  unfold Leaf.element
  split
  · rename_i hcontent
    refine ⟨_, [], Text.isIndent_nil, reads_emptyTag hrules htag hread hscope outer, ?_⟩
    intro strict
    exact helement strict [] (by rw [hcontent]; rfl) _
  · rename_i content hcontent
    have hxml := Leaf.isXml_of_content? h hcontent
    have hopen : Reads false policy _ _ _ _ _ := reads_openTag hrules htag hread hscope outer
    have htext : Reads false policy _ _ _ _ _ := Reads.characters
      (Text.not_mem_escaped (by decide) (by decide) content) []
      (.inside (.fresh l.tag) (element.extend [.text read.reverse] :: outer))
    rw [List.append_nil] at htext
    have hdata : characterData false content.escaped.reverse.reverse = some content := by
      rw [List.reverse_reverse]
      exact characterData_escaped false hxml
    have hclose : Reads false policy _ _ _ _ _ := reads_closeTag htag hdata (.fresh l.tag) rfl
      (element.extend [.text read.reverse]) outer
    rw [OpenElement.extend_extend] at hclose
    refine ⟨_, [], Text.isIndent_nil, (hopen.trans htext).trans hclose, ?_⟩
    intro strict
    exact helement strict _ (by rw [hcontent]; simp [innerTextOf, Item.innerText,
      OpenElement.extend, OpenElement.fresh]) _

end Lays

mutual

/-- The layout of a valid node is read as this node, at every depth. -/
theorem Node.lays_layout {policy : AttributePolicy} (hrules : policy.rules = []) {columns : ℕ}
    (hcolumns : 1 ≤ columns) (depth : ℕ) : (node : Node) → node.Valid →
      Lays policy (node.layout columns depth) [node.reread]
  | .leaf l, h => by
    have htabs : Lays policy (tabs depth) [] := .of_isIndent (Text.isIndent_tabs depth)
    have hbreak : Lays policy (text "\n") [] := .of_isIndent (by decide)
    have hleaf := Lays.leaf hrules (l := l) h depth hcolumns
    rw [Node.layout]
    exact (htabs.append hleaf).append hbreak
  | .container kind children, h => by
    have htabs : Lays policy (tabs depth) [] := .of_isIndent (Text.isIndent_tabs depth)
    have hbreak : Lays policy (text "\n") [] := .of_isIndent (by decide)
    have hchildren := Node.lays_layoutAll hrules hcolumns (depth + 1) children h
    have hinside := (hbreak.append hchildren).append htabs
    rw [List.nil_append, List.append_nil] at hinside
    have hwhole := (htabs.append (hinside.container hrules kind)).append hbreak
    simpa only [Node.layout, Node.reread, List.append_assoc, List.nil_append, List.append_nil]
      using hwhole
  | .bare, h => h.elim

theorem Node.lays_layoutAll {policy : AttributePolicy} (hrules : policy.rules = []) {columns : ℕ}
    (hcolumns : 1 ≤ columns) (depth : ℕ) : (nodes : List Node) → Node.AllValid nodes →
      Lays policy (Node.layoutAll columns depth nodes) (Node.rereadAll nodes)
  | [], _ => .of_isIndent Text.isIndent_nil
  | node :: rest, h => by
    have hnode := Node.lays_layout hrules hcolumns depth node h.1
    have hrest := Node.lays_layoutAll hrules hcolumns depth rest h.2
    rw [Node.layoutAll, Node.rereadAll]
    exact hnode.append hrest

end

end PropertyList
