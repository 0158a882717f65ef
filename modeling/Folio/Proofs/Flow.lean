import Folio.Markdown.Tree
import Folio.Rendering

/-!
# The top level of a document

Blocks have no running text outside of paragraphs, headings and cells: a node at the top level that could stand in a
text is markup (`isFlow_of_mem_blockNodes`). Every step of reading a page keeps its frames free of other leaves, and keeps
the document open.
-/

namespace Folio.Markdown

/-! ### Blocks -/

/-- The leaves that are blocks. -/
def Leaf.IsFlow : Leaf → Prop
  | .code .. | .math .. | .html _ | .thematicBreak | .definition .. => True
  | _ => False

def Block.IsFlow : Block → Prop
  | .leaf content _ => content.IsFlow
  | _ => True

/-- Are all of some blocks no running text? -/
abbrev Flow (bs : List Block) : Prop := ∀ b ∈ bs, b.IsFlow

theorem flow_append {bs bs' : List Block} : Flow (bs ++ bs') ↔ Flow bs ∧ Flow bs' := List.forall_mem_append

theorem flow_reverse {bs : List Block} : Flow bs.reverse ↔ Flow bs := by simp [Flow]

theorem flow_replicate_blank (n : Nat) : Flow (List.replicate n .blank) := by
  intro b hb
  rw [List.eq_of_mem_replicate hb]
  trivial

theorem flow_takeDefinitions (n : Nat) (gs : List Glyph) : Flow (takeDefinitions n gs).1 := by
  induction n generalizing gs with
  | zero => nofun
  | succ n ih =>
    rw [takeDefinitions]
    cases readDefinition gs with
    | none => nofun
    | some d =>
      dsimp only
      cases span d.taken with
      | none => exact ih _
      | some p => exact List.forall_mem_cons.2 ⟨trivial, ih _⟩

theorem isFlow_fenceLeaf (f : Fence) (opening : Line) (ls : List Line) (whole : Bool) :
    (f.leaf opening ls whole).IsFlow := by
  unfold Fence.leaf
  dsimp only
  split <;> trivial

theorem Open.flow_blocks (atEnd : Bool) (o : Open) : Flow (o.blocks atEnd) := by
  cases o with
  | nothing => nofun
  | underlined => nofun
  | paragraph ls =>
    have definitions : Flow (splitParagraph ls.reverse).1 := flow_takeDefinitions _ _
    refine flow_append.2 ⟨?_, flow_reverse.2 definitions⟩
    intro b hb
    obtain ⟨p, -, rfl⟩ := Option.map_eq_some_iff.1 (Option.mem_toList.1 hb)
    trivial
  | fenced f opening ls => exact List.forall_mem_singleton.2 (isFlow_fenceLeaf f opening _ atEnd)
  | _ => exact List.forall_mem_singleton.2 trivial

/-! ### Pages -/

/-- Do the open containers hold blocks alone? -/
def FlowFrames (fs : List Frame) : Prop := ∀ f ∈ fs, Flow f.blocks

theorem closeFrames_ne_nil (stop : Point) (n : Nat) {fs : List Frame} (h : fs ≠ []) : closeFrames stop n fs ≠ [] := by
  induction n generalizing fs with
  | zero => exact h
  | succ n ih =>
    rcases fs with _ | ⟨f, _ | ⟨g, fs⟩⟩
    · exact h
    · exact h
    · exact ih (List.cons_ne_nil _ _)

theorem flowFrames_closeFrames (stop : Point) (n : Nat) {fs : List Frame} (h : FlowFrames fs) :
    FlowFrames (closeFrames stop n fs) := by
  induction n generalizing fs with
  | zero => exact h
  | succ n ih =>
    rcases fs with _ | ⟨f, _ | ⟨g, fs⟩⟩
    · exact h
    · exact h
    · obtain ⟨-, hg, hfs⟩ := List.forall_mem_cons.1 h |>.imp_right List.forall_mem_cons.1
      exact ih (List.forall_mem_cons.2 ⟨List.forall_mem_cons.2 ⟨trivial, hg⟩, hfs⟩)

theorem flowFrames_containers (d : Dialect) (interrupts : Bool) (n : Nat) (gs : List Glyph) :
    FlowFrames (containers d interrupts n gs).1 := by
  induction n generalizing gs with
  | zero => nofun
  | succ n ih =>
    unfold containers
    cases container? d interrupts gs with
    | none => nofun
    | some c =>
      cases gs with
      | nil => nofun
      | cons g gs => exact List.forall_mem_cons.2 ⟨nofun, ih _⟩

namespace Page

/-- The document is open, and the open containers hold blocks alone. -/
structure IsFlow (p : Page) : Prop where
  rooted : p.frames ≠ []
  flow : FlowFrames p.frames

variable {p : Page}

theorem isFlow_add {bs : List Block} (hbs : Flow bs) (h : p.IsFlow) : (p.add bs).IsFlow := by
  obtain ⟨rooted, flow⟩ := h
  obtain ⟨_ | ⟨f, fs⟩, _⟩ := p
  · exact ⟨rooted, flow⟩
  · obtain ⟨hf, hfs⟩ := List.forall_mem_cons.1 flow
    exact ⟨List.cons_ne_nil _ _, List.forall_mem_cons.2 ⟨flow_append.2 ⟨hbs, hf⟩, hfs⟩⟩

theorem isFlow_add_leaf {content : Leaf} (position : Position) (hc : content.IsFlow) (h : p.IsFlow) :
    (p.add [.leaf content position]).IsFlow :=
  isFlow_add (List.forall_mem_singleton.2 hc) h

theorem isFlow_add_blank (h : p.IsFlow) : (p.add [.blank]).IsFlow := isFlow_add (List.forall_mem_singleton.2 trivial) h

theorem isFlow_finish (atEnd : Bool) (h : p.IsFlow) : (p.finish atEnd).IsFlow :=
  have ⟨rooted, flow⟩ := isFlow_add (flow_append.2 ⟨flow_replicate_blank _, p.current.flow_blocks atEnd⟩) h
  ⟨rooted, flow⟩

theorem isFlow_place (h : p.IsFlow) : p.place.IsFlow := by
  unfold place
  split
  · exact ⟨(isFlow_add_blank h).rooted, (isFlow_add_blank h).flow⟩
  · exact h

theorem isFlow_keepBlank (h : p.IsFlow) : p.keepBlank.IsFlow := by
  unfold keepBlank
  split
  · split
    · exact isFlow_add_blank h
    · exact h
  · exact h

theorem isFlow_closeTo (n : Nat) (h : p.IsFlow) : (p.closeTo n).IsFlow :=
  ⟨closeFrames_ne_nil _ _ h.rooted, flowFrames_closeFrames _ _ h.flow⟩

/-- Closing containers keeps the blocks, and the document stays open. -/
theorem isFlow_leave (n : Nat) (h : p.IsFlow) : ((p.finish false).keepBlank.closeTo n).place.IsFlow :=
  isFlow_place (isFlow_closeTo n (isFlow_keepBlank (isFlow_finish false h)))

theorem isFlow_enter {fs : List Frame} (hfs : FlowFrames fs) (h : p.IsFlow) : (p.enter fs).IsFlow :=
  ⟨List.append_ne_nil_of_right_ne_nil _ h.rooted,
    List.forall_mem_append.2 ⟨fun f hf => hfs f (List.mem_reverse.1 hf), h.flow⟩⟩

theorem isFlow_filled (h : p.IsFlow) : ({ p with frames := p.frames.map Frame.filled } : Page).IsFlow := by
  refine ⟨mt List.map_eq_nil_iff.1 h.rooted, fun f hf => ?_⟩
  obtain ⟨g, hg, rfl⟩ := List.mem_map.1 hf
  exact h.flow g hg

/-- What a page holds does not depend on its other parts. -/
theorem IsFlow.of_frames {q : Page} (h : p.IsFlow) (e : q.frames = p.frames) : q.IsFlow := by
  obtain ⟨rooted, flow⟩ := h
  exact ⟨e ▸ rooted, e ▸ flow⟩

theorem isFlow_start (kind : LineKind) (line : Line) (h : p.IsFlow) : (p.start kind line).IsFlow := by
  cases kind with
  | heading depth content => exact isFlow_add (List.forall_mem_singleton.2 trivial) h
  | topicBreak => exact isFlow_add_leaf _ trivial h
  | html kind =>
    unfold start
    dsimp only
    split
    · exact isFlow_finish false (h.of_frames rfl)
    · exact h.of_frames rfl
  | _ => exact h.of_frames rfl

theorem isFlow_underline (depth : Nat) (lines : List Line) (line : Line) (h : p.IsFlow) :
    (p.underline depth lines line).IsFlow := by
  have definitions : (p.add (splitParagraph lines.reverse).1.reverse).IsFlow :=
    isFlow_add (flow_reverse.2 (flow_takeDefinitions _ _)) h
  unfold underline
  dsimp only
  cases span (splitParagraph lines.reverse).2 with
  | none => exact definitions.of_frames rfl
  | some position =>
    have heading : Flow [.heading depth (dropSpaces (splitParagraph lines.reverse).2) ⟨position.start, line.stop⟩] :=
      List.forall_mem_singleton.2 trivial
    exact (isFlow_add heading definitions).of_frames rfl

theorem isFlow_proceed (kind : LineKind) (line : Line) (h : p.IsFlow) : (p.proceed kind line).IsFlow := by
  have other : (((p.finish false).place).start kind line).IsFlow := isFlow_start _ _ (isFlow_place (isFlow_finish _ h))
  obtain ⟨frames, current, interrupts, mayFollow, blank, stop⟩ := p
  cases kind with
  | more =>
    cases current with
    | fenced f opening ls => exact h.of_frames rfl
    | html kind ls =>
      unfold proceed
      dsimp only
      split
      · exact isFlow_finish false (h.of_frames rfl)
      · exact h.of_frames rfl
    | _ => exact other
  | closing =>
    cases current with
    | fenced f opening ls => exact (isFlow_add_leaf _ (isFlow_fenceLeaf f opening _ true) h).of_frames rfl
    | _ => exact other
  | underline depth =>
    cases current with
    | paragraph ls => exact isFlow_underline depth ls line h
    | _ => exact other
  | tableStart align =>
    cases current with
    | paragraph ls =>
      cases ls with
      | nil => exact other
      | cons head ls =>
        have finished := isFlow_finish false (p := ⟨frames, .paragraph ls, interrupts, mayFollow, blank, stop⟩)
        exact (finished (h.of_frames rfl)).of_frames rfl
    | _ => exact other
  | _ => cases current <;> first | exact other | exact h.of_frames rfl

theorem isFlow_step (d : Dialect) (line : Line) (h : p.IsFlow) : (p.step d line).IsFlow := by
  have opened (all : Bool) (gs : List Glyph) (q : Page) : FlowFrames (q.opens d all gs).1 := by
    unfold opens
    split
    · nofun
    · exact flowFrames_containers d _ _ _
  have filled := isFlow_filled h
  unfold step settle
  dsimp only
  split
  · exact (isFlow_start _ _ (isFlow_enter (opened _ _ _) (isFlow_leave _ filled))).of_frames rfl
  · split
    · exact (isFlow_start _ _ (isFlow_leave _ filled)).of_frames rfl
    · exact (isFlow_proceed _ _ filled).of_frames rfl

theorem isFlow_startingAt (a : Point) : (startingAt a).IsFlow :=
  ⟨List.cons_ne_nil _ _, List.forall_mem_singleton.2 nofun⟩

theorem isFlow_foldl_step (d : Dialect) (ls : List Line) (h : p.IsFlow) : (ls.foldl (Page.step d) p).IsFlow := by
  induction ls generalizing p with
  | nil => exact h
  | cons l ls ih => exact ih (isFlow_step d l h)

end Page

theorem flow_blocksOf (d : Dialect) (ls : List Line) : Flow (blocksOf d ls) := by
  have all : ((((ls.foldl (Page.step d) (Page.startingAt (linesSpan ls none).start)).finish true).closeTo 1)).IsFlow :=
    Page.isFlow_closeTo 1 (Page.isFlow_finish true (Page.isFlow_foldl_step d ls (Page.isFlow_startingAt _)))
  unfold blocksOf Page.done
  split
  · rename_i f fs h
    exact flow_reverse.2 (all.flow f (h ▸ List.mem_cons_self))
  · nofun

/-! ### Nodes -/

theorem flow_withTasks {bs : List Block} (h : Flow bs) : Flow (withTasks bs) := by
  induction bs with
  | nil => nofun
  | cons b bs ih =>
    obtain ⟨hb, hbs⟩ := List.forall_mem_cons.1 h
    refine List.forall_mem_cons.2 ⟨?_, ih hbs⟩
    cases b with
    | container kind p bs =>
      cases kind with
      | item mark =>
        unfold Block.withTasks
        dsimp only
        split <;> trivial
      | _ => trivial
    | _ => exact hb

open Rendering (isPhrasing isHtml)

/-- A node that is markup or could not stand in a text. -/
def Node.IsFlow (n : Node) : Prop := isPhrasing n = true → isHtml n = true

def Sibling.IsFlow : Sibling → Prop
  | .node n => n.IsFlow
  | _ => True

theorem Block.isFlow_toSibling (env : Surroundings) {b : Block} (h : b.IsFlow) : (b.toSibling env).IsFlow := by
  cases b with
  | blank => trivial
  | container kind p bs =>
    cases kind with
    | item mark => trivial
    | _ => exact fun h => Bool.noConfusion h
  | leaf content p =>
    cases content with
    | html v => exact fun _ => rfl
    | code | math | thematicBreak | definition => exact fun h => Bool.noConfusion h
    | _ => exact h.elim
  | _ => exact fun h => Bool.noConfusion h

theorem Sibling.mem_takeItems {mark : Char} {blanks : List Sibling} {afterBare : Bool} {xs : List Sibling} {x : Sibling}
    (hx : x ∈ (takeItems mark blanks afterBare xs).2.2) : x ∈ blanks ∨ x = .blank ∨ x ∈ xs := by
  induction xs generalizing blanks afterBare with
  | nil => exact .inl hx
  | cons y xs ih =>
    cases y with
    | blank =>
      rcases ih hx with h | h | h
      · exact (List.mem_cons.1 h).elim (fun e => .inr (.inl e)) .inl
      · exact .inr (.inl h)
      · exact .inr (.inr (List.mem_cons_of_mem _ h))
    | node n => exact (List.mem_append.1 hx).imp id .inr
    | item m bare n =>
      unfold takeItems at hx
      split at hx
      · rcases ih hx with h | h | h
        · exact absurd h List.not_mem_nil
        · exact .inr (.inl h)
        · exact .inr (.inr (List.mem_cons_of_mem _ h))
      · exact (List.mem_append.1 hx).imp id .inr

theorem Sibling.isFlow_group (n : Nat) {xs : List Sibling} (h : ∀ x ∈ xs, x.IsFlow) {m : Node}
    (hm : some m ∈ group n xs) : m.IsFlow := by
  induction n generalizing xs with
  | zero => exact absurd hm List.not_mem_nil
  | succ n ih =>
    rcases xs with _ | ⟨y, xs⟩
    · exact absurd hm List.not_mem_nil
    · obtain ⟨hy, hxs⟩ := List.forall_mem_cons.1 h
      cases y with
      | blank => exact ih hxs ((List.mem_cons.1 hm).resolve_left nofun)
      | node x =>
        rcases List.mem_cons.1 hm with e | hm
        · exact Option.some.inj e ▸ hy
        · exact ih hxs hm
      | item mark bare x =>
        rcases List.mem_cons.1 hm with e | hm
        · rw [Option.some.inj e]
          exact fun h => Bool.noConfusion h
        · refine ih (fun z hz => ?_) hm
          rcases mem_takeItems hz with hz | rfl | hz
          · exact absurd hz List.not_mem_nil
          · trivial
          · exact hxs z hz

theorem isFlow_of_mem_blockNodes {d : Dialect} {bs : List Block} (h : Flow bs) {n : Node} (hn : n ∈ blockNodes d bs) :
    n.IsFlow := by
  have tasks : Flow (if d.gfm then withTasks bs else bs) := by
    split
    · exact flow_withTasks h
    · exact h
  have parts (env : Surroundings) {bs : List Block} (h : Flow bs) : ∀ x ∈ siblings env bs, x.IsFlow := by
    induction bs with
    | nil => nofun
    | cons b bs ih =>
      obtain ⟨hb, hbs⟩ := List.forall_mem_cons.1 h
      exact List.forall_mem_cons.2 ⟨Block.isFlow_toSibling env hb, ih hbs⟩
  obtain ⟨m, hm, rfl⟩ := List.mem_filterMap.1 hn
  exact Sibling.isFlow_group _ (parts _ tasks) hm

/-- At the top level what could stand in a text is markup. -/
theorem isFlow_of_mem_parse {d : Dialect} {ls : List Line} {n : Node} (hn : n ∈ blockNodes d (blocksOf d ls)) : n.IsFlow :=
  isFlow_of_mem_blockNodes (flow_blocksOf d ls) hn

end Folio.Markdown
