import Folio.Proofs.Html.Steps
import Folio.Proofs.Rendering

/-!
# Trees with one root

A rendering gives a tree whose only root is at its top (`rootless_render`), and the steps behind it put no root into a
tree. The elements of a document are then all reached through elements.
-/

namespace Folio.Html.Node

mutual

/-- The roots within a tree that no other one holds. -/
def roots : Node → List Node
  | .root cs => [.root cs]
  | .element _ _ cs => rootsAll cs
  | .text _ => []

/-- The roots within a forest that no other one holds. -/
def rootsAll : List Node → List Node
  | [] => []
  | n :: ns => roots n ++ rootsAll ns

end

theorem rootsAll_eq_flatMap (ns : List Node) : rootsAll ns = ns.flatMap roots := by
  induction ns with
  | nil => rfl
  | cons n ns ih => rw [rootsAll, List.flatMap_cons, ih]

theorem seesThrough_roots : SeesThrough roots := fun _ _ cs => rootsAll_eq_flatMap cs

theorem rootsAll_append (ns ms : List Node) : rootsAll (ns ++ ms) = rootsAll ns ++ rootsAll ms := by
  simp only [rootsAll_eq_flatMap, List.flatMap_append]

/-- No root stands in a forest. -/
def Rootless (ns : List Node) : Prop := rootsAll ns = []

namespace Rootless

variable {n : Node} {ns ms : List Node}

@[simp] theorem nil : Rootless [] := rfl

@[simp] theorem cons_iff : Rootless (n :: ns) ↔ roots n = [] ∧ Rootless ns := List.append_eq_nil_iff

@[simp] theorem append_iff : Rootless (ns ++ ms) ↔ Rootless ns ∧ Rootless ms := by
  rw [Rootless, rootsAll_append]
  exact List.append_eq_nil_iff

theorem iff_forall : Rootless ns ↔ ∀ n ∈ ns, roots n = [] := by
  rw [Rootless, rootsAll_eq_flatMap, List.flatMap_eq_nil_iff]

@[simp] theorem reverse_iff : Rootless ns.reverse ↔ Rootless ns := by
  simp only [iff_forall, List.mem_reverse]

theorem sublist (h : Rootless ns) (sub : ms.Sublist ns) : Rootless ms :=
  iff_forall.2 fun n hn => iff_forall.1 h n (sub.subset hn)

@[simp] theorem roots_element {t : String} {p : Properties} : roots (.element t p ns) = [] ↔ Rootless ns := Iff.rfl

@[simp] theorem roots_text {v : String} : roots (.text v) = [] := rfl

end Rootless

end Folio.Html.Node

namespace Folio.Fragment

open Html Html.Node

/-! ### Fragments -/

theorem rootless_closeAll {done : List Node} {stack : List Frame} (hd : Rootless done)
    (hs : ∀ f ∈ stack, Rootless f.before) : Rootless (closeAll done stack) := by
  induction stack generalizing done with
  | nil => exact Rootless.reverse_iff.2 hd
  | cons f stack ih =>
    obtain ⟨hf, hs⟩ := List.forall_mem_cons.1 hs
    exact ih (by simp [element, hd, hf]) hs

theorem rootless_build {stack : List Frame} {done : List Node} (ts : List Token) (hd : Rootless done)
    (hs : ∀ f ∈ stack, Rootless f.before) : Rootless (build stack done ts) := by
  induction ts generalizing stack done with
  | nil => exact rootless_closeAll hd hs
  | cons t ts ih =>
    cases t with
    | text s => exact ih (by simp [hd]) hs
    | start name as selfClosing =>
      rw [build]
      split
      · exact ih (by simp [element, hd]) hs
      · exact ih .nil (List.forall_mem_cons.2 ⟨hd, hs⟩)
    | close name =>
      cases stack with
      | nil => exact ih hd hs
      | cons f stack =>
        obtain ⟨hf, hrest⟩ := List.forall_mem_cons.1 hs
        rw [build]
        split
        · exact ih (by simp [element, hd, hf]) hrest
        · exact ih hd hs

theorem rootless_parse (html : String) : Rootless (parse html) := rootless_build _ .nil (List.forall_mem_nil _)

end Folio.Fragment

namespace Folio.Rendering

open Html Html.Node

/-! ### Parts of texts -/

/-- No root stands in the nodes that wait for their places. -/
def RootlessSlots (slots : List (Option (List Html.Node))) : Prop := ∀ ns, some ns ∈ slots → Rootless ns

theorem rootless_takeSlot {slots : List (Option (List Html.Node))} (h : RootlessSlots slots) (p : Properties) :
    Rootless (takeSlot p slots).1 ∧ RootlessSlots (takeSlot p slots).2 := by
  rw [takeSlot]
  split
  · rename_i i _
    constructor
    · dsimp only
      cases there : slots[i]? with
      | none => exact .nil
      | some slot =>
        cases slot with
        | none => exact .nil
        | some ns => exact h ns (List.mem_of_getElem? there)
    · intro ns hns
      rcases List.mem_or_eq_of_mem_set hns with hns | hns
      · exact h ns hns
      · cases hns
  · exact ⟨.nil, h⟩

mutual

theorem rootless_fill {slots : List (Option (List Html.Node))} (h : RootlessSlots slots) : (n : Html.Node) →
    roots n = [] → Rootless (fill slots n).1 ∧ RootlessSlots (fill slots n).2
  | .text _, _ => ⟨by simp [fill], h⟩
  | .element t p cs, hn => by
    rw [fill]
    split
    · exact rootless_takeSlot h p
    · obtain ⟨first, rest⟩ := rootless_fillAll h cs hn
      exact ⟨by simpa using first, rest⟩

theorem rootless_fillAll {slots : List (Option (List Html.Node))} (h : RootlessSlots slots) : (ns : List Html.Node) →
    Rootless ns → Rootless (fillAll slots ns).1 ∧ RootlessSlots (fillAll slots ns).2
  | [], _ => ⟨.nil, h⟩
  | n :: ns, hns => by
    obtain ⟨hn, hns⟩ := Rootless.cons_iff.1 hns
    obtain ⟨first, left⟩ := rootless_fill h n hn
    obtain ⟨rest, left⟩ := rootless_fillAll left ns hns
    exact ⟨Rootless.append_iff.2 ⟨first, rest⟩, left⟩

end

/-- No root stands in a part. -/
def Slot.IsRootless : Slot → Prop
  | .markup _ => True
  | .rendered ns => Rootless ns

theorem rootlessSlots_renderedOf {ss : List Slot} (h : ∀ s ∈ ss, s.IsRootless) : RootlessSlots (renderedOf ss) := by
  induction ss with
  | nil => exact fun ns hns => absurd hns List.not_mem_nil
  | cons s ss ih =>
    obtain ⟨first, rest⟩ := List.forall_mem_cons.1 h
    cases s with
    | markup html => exact ih rest
    | rendered ms =>
      intro ns hns
      rcases List.mem_cons.1 hns with hns | hns
      · cases hns
        exact first
      · exact ih rest ns hns

theorem rootless_combine {mixed : Bool} {ss : List Slot} (h : ∀ s ∈ ss, s.IsRootless) :
    Rootless (combine mixed ss) := by
  cases mixed with
  | true => exact (rootless_fillAll (rootlessSlots_renderedOf h) _ (Fragment.rootless_parse _)).1
  | false =>
    induction ss with
    | nil => exact .nil
    | cons s ss ih =>
      obtain ⟨first, rest⟩ := List.forall_mem_cons.1 h
      cases s with
      | markup html => exact ih rest
      | rendered ns => exact Rootless.append_iff.2 ⟨first, ih rest⟩

/-! ### Steps -/

/-- A step gives what has a property, from whatever state it starts. -/
def Yields {α : Type} (P : α → Prop) (step : Render α) : Prop := ∀ c, P (step.run c).value.1

namespace Yields

variable {α β : Type} {P : α → Prop} {Q : β → Prop} {step : Render α} {f : α → Render β}

theorem pure {a : α} (h : P a) : Yields P (pure a) := fun _ => h

theorem bind (h : Yields P step) (hnext : ∀ a, P a → Yields Q (f a)) : Yields Q (step >>= f) :=
  fun c => hnext _ (h c) _

/-- What a step changes in the state makes no difference. -/
theorem behind {next : Unit → Render β} (step : Render Unit) (h : ∀ u, Yields Q (next u)) : Yields Q (step >>= next) :=
  fun _ => h _ _

theorem ask {f : Context → Render β} (h : ∀ c, Yields Q (f c)) : Yields Q (get >>= f) := fun c => h c c

theorem map (h : Yields P step) {f : α → β} (hf : ∀ a, P a → Q (f a)) : Yields Q (f <$> step) :=
  fun c => hf _ (h c)

theorem within (scope : Scope) (h : Yields P step) : Yields P (within scope step) :=
  .behind _ fun _ => .bind h fun _ ha => .behind _ fun _ => .pure ha

end Yields

@[simp] theorem roots_element {t : String} {p : List (String × PropertyValue)} {cs : List Html.Node} :
    roots (element t p cs) = [] ↔ Rootless cs := Iff.rfl

theorem rootless_leaf (l : Markdown.Leaf) : Yields Rootless (leaf l) := by
  refine .ask fun c => ?_
  cases l with
  | imageReference alt identifier label kind =>
    dsimp only
    cases c.definition? identifier <;> exact .pure rfl
  | html html =>
    dsimp only
    cases c.options.allowRawHtml with
    | true => exact .pure (Fragment.rootless_parse html)
    | false => exact .behind _ fun _ => .pure rfl
  | _ => exact fun _ => rfl

theorem rootless_wrap (kind : Markdown.Branch) (ns : List Markdown.Node) {children : List Html.Node}
    (h : Rootless children) : Yields Rootless (wrap kind ns children) := by
  refine .ask fun c => ?_
  cases kind with
  | root => exact .pure h
  | paragraph =>
    dsimp only
    cases c.isTight <;> exact .pure (by simp [h])
  | linkReference identifier label kind =>
    dsimp only
    cases c.definition? identifier <;> exact .pure (by simp [link, h])
  | listItem spread checked =>
    cases checked with
    | none => exact .pure (by simp [listItem, h])
    | some checked => cases checked <;> exact .pure (by simp [listItem, checkbox, h])
  | _ => exact .pure (by simp [link, h])

theorem rootless_text {α : Type} {P : α → Prop} (ns : List Markdown.Node) {step : Bool → Render (List Slot)}
    {next : List Html.Node → Render α} (hstep : ∀ mixed, Yields (∀ s ∈ ·, s.IsRootless) (step mixed))
    (hnext : ∀ content, Rootless content → Yields P (next content)) : Yields P (text ns step next) :=
  .ask fun _ => .bind (hstep _) fun _ hss => hnext _ (rootless_combine hss)

theorem rootless_table {rows : List Html.Node} (h : Rootless rows) (headed : Bool) :
    roots (table headed rows) = [] := by
  have tbody {rows : List Html.Node} (h : Rootless rows) :
      Rootless (if rows.isEmpty then [] else [element "tbody" [] rows]) := by
    split
    · rfl
    · simpa using h
  have head := h.sublist (List.take_sublist 1 rows)
  have body := tbody (h.sublist (List.drop_sublist 1 rows))
  cases headed with
  | true => exact Rootless.append_iff.2 ⟨by simpa using head, body⟩
  | false => exact tbody h

mutual

theorem rootless_node (n : Markdown.Node) : Yields Rootless (renderNode n) := by
  match n with
  | .leaf l p =>
    rw [renderNode]
    exact rootless_leaf l
  | .branch kind p children =>
    have each := rootless_each children
    cases kind with
    | footnoteDefinition => exact .pure rfl
    | tableRow => exact fun c => rfl
    | tableCell => exact fun c => rfl
    | table align =>
      rw [renderNode_table]
      exact .bind (rootless_rows children align true) fun _ hrows => .pure (by simp [rootless_table hrows])
    | list ordered start spread =>
      rw [renderNode_list]
      exact rootless_text children (fun mixed => (each mixed).within _) fun _ => rootless_wrap _ _
    | _ =>
      simp only [renderNode]
      change Yields Rootless (text children (renderEach · children) (wrap _ children))
      exact rootless_text children each fun _ => rootless_wrap _ _

theorem rootless_each (ns : List Markdown.Node) (mixed : Bool) :
    Yields (∀ s ∈ ·, s.IsRootless) (renderEach mixed ns) := by
  match ns with
  | [] => exact .pure (List.forall_mem_nil _)
  | n :: ns =>
    have first : Yields Slot.IsRootless (renderPart mixed n) := by
      have node : Yields Slot.IsRootless (Slot.rendered <$> renderNode n) := (rootless_node n).map fun _ h => h
      rcases n with ⟨l, p⟩ | ⟨kind, p, cs⟩
      · cases mixed <;> cases l <;> first | exact node | exact .pure trivial
      · cases mixed <;> exact node
    rw [renderEach_cons]
    exact .bind first fun _ hs => .bind (rootless_each ns mixed) fun _ hss => .pure (List.forall_mem_cons.2 ⟨hs, hss⟩)

theorem rootless_rows (rows : List Markdown.Node) (align : List (Option Markdown.Align)) (first : Bool) :
    Yields Rootless (renderRows align first rows) := by
  match rows with
  | [] => exact .pure rfl
  | .leaf l p :: rows =>
    simp only [renderRows]
    exact rootless_rows rows align false
  | .branch kind p cells :: rows =>
    have rest := rootless_rows rows align false
    cases kind with
    | tableRow =>
      simp only [renderRows]
      exact .bind ((rootless_cells cells align).within _) fun _ hcells => .bind rest fun _ hrest =>
        .pure (by simp [hcells, hrest])
    | _ =>
      simp only [renderRows]
      exact rest

theorem rootless_cells (cells : List Markdown.Node) (align : List (Option Markdown.Align)) :
    Yields Rootless (renderCells align cells) := by
  match cells with
  | [] => exact .pure rfl
  | .leaf l p :: cells =>
    simp only [renderCells]
    exact rootless_cells cells _
  | .branch kind p children :: cells =>
    have rest := rootless_cells cells
    cases kind with
    | tableCell =>
      rw [renderCells_cons]
      refine .ask fun _ => rootless_text children (rootless_each children) fun _ hcontent => ?_
      exact .bind (rest _) fun _ hrest => .pure (by simp [hcontent, hrest])
    | _ =>
      simp only [renderCells]
      exact rest _

end

/-! ### Pages -/

theorem rootless_children (ns : List Markdown.Node) : Yields Rootless (renderChildren ns) :=
  .ask fun _ => (rootless_each ns _).map fun _ => rootless_combine

theorem rootless_addBackLinks {links content : List Html.Node} (hlinks : Rootless links) (h : Rootless content) :
    Rootless (addBackLinks links content) := by
  have behind : Rootless (content ++ links) := Rootless.append_iff.2 ⟨h, hlinks⟩
  unfold addBackLinks
  split
  · rename_i tag p children last
    split
    · have paragraph : Rootless children := Rootless.iff_forall.1 h _ (List.mem_of_getLast? last)
      have spaced : Rootless (links.flatMap fun l => [.text " ", l]) := by
        rw [Rootless.iff_forall, List.forall_mem_flatMap]
        intro l hl
        simpa using Rootless.iff_forall.1 hlinks l hl
      exact Rootless.append_iff.2 ⟨h.sublist (List.dropLast_sublist content), by simp [paragraph, spaced]⟩
    · exact behind
  · exact behind

theorem rootless_footnotes (notes : List Context.Footnote) : Yields Rootless (renderFootnotes notes) := by
  induction notes with
  | nil => exact .pure rfl
  | cons note notes ih =>
    refine .bind (rootless_children note.children) fun content hcontent => .bind ih fun rest hrest => .pure ?_
    have links : Rootless ((List.range note.references).map fun i => backLink (footnoteId note.identifier) (i + 1)) :=
      Rootless.iff_forall.2 (List.forall_mem_map.2 fun _ _ => rfl)
    exact Rootless.cons_iff.2 ⟨rootless_addBackLinks links hcontent, hrest⟩

theorem rootless_footnoteSection : Yields Rootless footnoteSection := by
  -- the footnotes are taken from the state, which may hold any nodes
  refine .ask fun c => .behind _ fun _ => ?_
  split
  · exact .pure rfl
  · exact .bind (rootless_footnotes _) fun _ hitems => .pure (by simp [hitems])

/-- A rendering has its only root at the top. -/
theorem rootless_render (options : Options) (tree : Markdown.Node) :
    Rootless (render options tree).value.children := by
  have page : Yields Rootless (do
      let content ← renderChildren tree.children
      let footnotes ← footnoteSection
      pure (content ++ footnotes)) :=
    .bind (rootless_children _) fun _ hcontent => .bind rootless_footnoteSection fun _ hnotes =>
      .pure (Rootless.append_iff.2 ⟨hcontent, hnotes⟩)
  exact page (Context.ofTree options tree)

end Folio.Rendering

namespace Folio.Heading

open Html Html.Node

/-! ### Steps behind the rendering -/

theorem seesNoText_rootsAll : SeesNoText rootsAll where
  text _ _ := rfl
  element t p {cs ds} same := by
    simp only [rootsAll, roots, same]
  cons {n m ns ms} first rest := by
    simp only [rootsAll, List.append_nil] at first ⊢
    rw [first, rest]

end Folio.Heading

namespace Folio.Pipeline

open Html Html.Node Heading Outline

/-- The steps behind the rendering put no root into a document. -/
theorem rootsAll_nestAll_marked (cs : List Node) : rootsAll (nestAll (marked cs)) = rootsAll cs := by
  have seen := seesThrough_roots
  rw [rootsAll_eq_flatMap, flatMap_nestAll seen, flatMap_marked seen, ← rootsAll_eq_flatMap]
  exact seesNoText_rootsAll.assignAll (fun _ _ _ _ => rfl) _ cs

end Folio.Pipeline
