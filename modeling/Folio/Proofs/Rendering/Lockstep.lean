import Folio.Proofs.Rendering.Rewriting

/-!
# Two renderings in lockstep

The rendering of a rewritten document goes side by side with that of the document itself: the steps of both are `Twins`
if they give related results and leave states that belong together. `Rewriting.Suits` asks this of single leaves and of
single wrappers around content that is related already, and `twins_node` gives it for trees.
-/

namespace Folio.Rendering

open Html

variable {r : Rewriting} {ds : List (String × Definition)} {ss : List Scope}

/-- From states that belong together, with some definitions and scopes, two steps give results that are related, and
they leave such states. -/
def Twins {α β : Type} (r : Rewriting) (ds : List (String × Definition)) (ss : List Scope) (P : α → β → Prop)
    (x : Render α) (y : Render β) : Prop :=
  ∀ c : Context, c.definitions = ds → c.scopes = ss →
    P (x.run c).value.1 (y.run (r.state c)).value.1 ∧ (y.run (r.state c)).value.2 = r.state (x.run c).value.2 ∧
      (x.run c).value.2.definitions = ds ∧ (x.run c).value.2.scopes = ss

namespace Twins

variable {α α' β β' : Type} {P : α → α' → Prop} {Q : β → β' → Prop} {x : Render α} {x' : Render α'}

theorem pure {a : α} {a' : α'} (h : P a a') : Twins r ds ss P (pure a) (pure a') := fun _ hd hs => ⟨h, rfl, hd, hs⟩

theorem bind {f : α → Render β} {f' : α' → Render β'} (h : Twins r ds ss P x x')
    (hnext : ∀ a a', P a a' → Twins r ds ss Q (f a) (f' a')) : Twins r ds ss Q (x >>= f) (x' >>= f') := by
  intro c hd hs
  obtain ⟨first, state, kept, within⟩ := h c hd hs
  have second := hnext _ _ first _ kept within
  rw [← state] at second
  exact second

theorem ask {f : Context → Render β} {f' : Context → Render β'}
    (h : ∀ c, c.definitions = ds → c.scopes = ss → Twins r ds ss Q (f c) (f' (r.state c))) :
    Twins r ds ss Q (get >>= f) (get >>= f') := fun c hd hs => h c hd hs c hd hs

theorem map {f : α → β} {f' : α' → β'} (h : Twins r ds ss P x x') (hf : ∀ a a', P a a' → Q (f a) (f' a')) :
    Twins r ds ss Q (f <$> x) (f' <$> x') := by
  intro c hd hs
  obtain ⟨first, state, kept, within⟩ := h c hd hs
  exact ⟨hf _ _ first, state, kept, within⟩

theorem within (s : Scope) (h : Twins r ds (s :: ss) P x x') :
    Twins r ds ss P (within s x) (within (r.scope s) x') := by
  intro c hd hs
  obtain ⟨first, state, kept, inside⟩ := h (c.enter s) hd (congrArg (s :: ·) hs)
  have exit {c : Context} (hs : c.scopes = s :: ss) : c.exit.2.definitions = c.definitions ∧ c.exit.2.scopes = ss ∧
      (r.state c).exit.2 = r.state c.exit.2 := by
    obtain ⟨_, scopes, _⟩ := c
    subst hs
    exact ⟨rfl, rfl, rfl⟩
  obtain ⟨definitions, scopes, left⟩ := exit inside
  exact ⟨first, (congrArg (fun c => c.exit.2) state).trans left, definitions.trans kept, scopes⟩

end Twins

/-! ### What stays as it is -/

theorem definition?_state (c : Context) (identifier : String) :
    (r.state c).definition? identifier = c.definition? identifier := rfl

theorem twins_leaf (l : Markdown.Leaf) : Twins r ds ss (Alike [.same]) (leaf l) (leaf l) := by
  cases l with
  | imageReference alt identifier label kind =>
    refine .ask fun c _ _ => ?_
    dsimp only
    rw [definition?_state]
    cases c.definition? identifier <;> exact .pure (.refl _)
  | html html =>
    refine .ask fun c _ _ => ?_
    have same : (r.state c).options = c.options := rfl
    dsimp only
    rw [same]
    cases c.options.allowRawHtml with
    | true => exact .pure (.refl _)
    | false => exact fun _ hd hs => ⟨.refl _, rfl, hd, hs⟩
  | _ => exact fun _ hd hs => ⟨.refl _, rfl, hd, hs⟩

section
variable {vs : List Verdict} {ns ms : List Html.Node} {kind : Markdown.Branch}

theorem Alike.around (h : Alike vs ns ms) (tag : String) (es : List (String × PropertyValue)) :
    Alike (.same :: vs) [Rendering.element tag es ns] [Rendering.element tag es ms] := same_cons_iff.2 h.element

/-- A wrapper that stays is the same in both, unless it is a paragraph and tight lists become loose. -/
theorem twins_wrap (h : isWrapper kind = true) (tight : kind = .paragraph → ∀ spread, r.spread spread = spread)
    (children children' : List Markdown.Node) (alike : Alike vs ns ms) :
    Twins r ds ss (Alike (.same :: vs)) (wrap kind children ns) (wrap kind children' ms) := by
  refine .ask fun c _ _ => ?_
  cases kind with
  | list | listItem | table | tableRow | tableCell | footnoteDefinition => cases h
  | root => exact .pure (Alike.same_cons_iff.2 alike)
  | paragraph =>
    have scope (s : Scope) : r.scope s = s := by
      cases s with
      | list spread => exact congrArg Scope.list (tight rfl spread)
      | _ => rfl
    have same : (r.state c).isTight = c.isTight := by
      rw [Context.isTight, Rewriting.scope_state, scope]
      rfl
    dsimp only
    rw [same]
    cases c.isTight with
    | true => exact .pure (Alike.same_cons_iff.2 alike)
    | false => exact .pure (alike.around ..)
  | linkReference identifier label kind =>
    dsimp only
    rw [definition?_state]
    cases c.definition? identifier with
    | some d => exact .pure (alike.around ..)
    | none => exact .pure (Alike.same_cons_iff.2 alike)
  | _ => exact .pure (alike.around ..)

theorem twins_wrap_list (ordered : Bool) (start : Option Nat) (spread : Bool) (around children : List Markdown.Node)
    (alike : Alike vs ns ms) :
    Twins r ds ss (Alike (.same :: vs)) (wrap (.list ordered start spread) children ns)
      (wrap (.list ordered start (r.spread spread)) (r.nodes around children) ms) := by
  refine .ask fun c _ _ => ?_
  dsimp only
  rw [Rewriting.any_isTask_nodes]
  exact .pure (alike.around ..)

theorem twins_wrap_listItem (spread : Bool) (checked : Option Bool) (children children' : List Markdown.Node)
    (alike : Alike vs ns ms) :
    Twins r ds ss (Alike (.same :: vs)) (wrap (.listItem spread checked) children ns)
      (wrap (.listItem spread checked) children' ms) := by
  refine .ask fun c _ _ => .pure ?_
  cases checked with
  | none => exact alike.around ..
  | some checked => exact ((Alike.refl (checkbox checked)).append alike).element

end

/-! ### Trees -/

/-- The scopes of a rendering tell that the innermost list or table around a node is a tight list. -/
def Matches (ss : List Scope) (around : List Markdown.Node) : Prop :=
  ss.head?.getD .root = .list false ↔ isInTightList around = true

theorem Matches.isTight {around : List Markdown.Node} (h : Matches ss around) {c : Context} (hs : c.scopes = ss) :
    c.isTight = isInTightList around := by
  rw [Context.isTight, Context.scope, hs, Bool.eq_iff_iff, decide_eq_true_eq]
  exact h

/-- The two renderings of a document and of the rewritten one differ in each visited node as a judge says. -/
structure Rewriting.Suits (r : Rewriting) (ds : List (String × Definition))
    (judge : List Markdown.Node × Markdown.Node → Verdict) : Prop where
  leaf : ∀ (around : List Markdown.Node) (l : Markdown.Leaf) (p : Option Markdown.Position) (ss : List Scope),
    Twins r ds ss (Alike [judge (around, .leaf l p)]) (Rendering.leaf l) (Rendering.leaf (r.leaf l))
  wrap : ∀ {around : List Markdown.Node} {kind : Markdown.Branch} (p : Option Markdown.Position)
    (children children' : List Markdown.Node) {ss : List Scope} {vs : List Verdict} {ns ms : List Html.Node},
    isWrapper kind = true → Matches ss around → Alike vs ns ms →
      Twins r ds ss (Alike (judge (around, .branch kind p children) :: vs)) (Rendering.wrap kind children ns)
        (Rendering.wrap (r.branch around kind) children' ms)
  other : ∀ (around : List Markdown.Node) {kind : Markdown.Branch} (p : Option Markdown.Position)
    (children : List Markdown.Node), isWrapper kind = false → judge (around, .branch kind p children) = .same

section
variable {α β : Type} {P : α → β → Prop} {vs : List Verdict} {ns ns' : List Markdown.Node}
  {step step' : Bool → Render (List Slot)} {next : List Html.Node → Render α} {next' : List Html.Node → Render β}

theorem twins_text (h : NoHtml (Markdown.Node.leavesAll ns)) (h' : NoHtml (Markdown.Node.leavesAll ns'))
    (each : Twins r ds ss (fun x y => Alike vs (slotNodes x) (slotNodes y)) (step false) (step' false))
    (hnext : ∀ ms ms', Alike vs ms ms' → Twins r ds ss P (next ms) (next' ms')) :
    Twins r ds ss P (text ns step next) (text ns' step' next') := by
  refine .ask fun c _ _ => ?_
  -- Without markup neither text is mixed.
  rw [isMixed_eq_false h, isMixed_eq_false h', Bool.and_false, Bool.and_false]
  exact each.bind fun _ _ alike => hnext _ _ alike

end

section
variable {judge : List Markdown.Node × Markdown.Node → Verdict}

mutual

/-- A rewritten node is rendered to what is put together like the nodes of the node itself. -/
theorem twins_node (suits : r.Suits ds judge) {around : List Markdown.Node} (ss : List Scope)
    (tight : Matches ss around) (n : Markdown.Node) (h : NoHtml n.leaves) :
    Twins r ds ss (Alike ((visits around n).map judge)) (renderNode n) (renderNode (r.node around n)) := by
  match n, h with
  | .leaf l p, _ =>
    rw [renderNode, Rewriting.node, renderNode]
    exact suits.leaf around l p ss
  | .branch kind p children, h =>
    rw [Markdown.Node.leaves] at h
    have each {ss : List Scope} (tight : Matches ss (.branch kind p children :: around)) :=
      twins_each suits ss tight children h
    have rows (untight : isInTightList (.branch kind p children :: around) = false) :=
      twins_rows suits ss untight children h
    have noHtml : NoHtml (Markdown.Node.leavesAll (r.nodes (.branch kind p children :: around) children)) :=
      Rewriting.noHtml_nodes h
    -- Only wrappers may become something else. Every other branch has a way of its own to be rendered, and stays.
    by_cases wrapper : isWrapper kind = true
    · have inside : Matches ss (.branch kind p children :: around) := by
        rw [Matches, isInTightList_wrapper wrapper]
        exact tight
      rw [renderNode_wrapper wrapper, Rewriting.node_wrapper around wrapper,
        renderNode_wrapper (r.isWrapper_branch around kind wrapper), visits_wrapper wrapper, List.map_cons]
      exact twins_text h noHtml (each inside) fun _ _ alike => suits.wrap p children _ wrapper tight alike
    · rw [Bool.not_eq_true] at wrapper
      have same := suits.other around p children wrapper
      cases kind with
      | footnoteDefinition => exact .pure .nil
      | tableRow | tableCell => exact fun _ hd hs => ⟨.nil, rfl, hd, hs⟩
      | table align =>
        rw [visits, Rewriting.node_table, renderNode_table, renderNode_table, Rewriting.isHeaded_nodes, List.map_cons,
          same]
        exact (rows rfl align true).bind fun _ _ alike => .pure (Alike.same_cons_iff.2 (alike.2.table alike.1))
      | list ordered start spread =>
        have inside : Matches (.list spread :: ss) (.branch (.list ordered start spread) p children :: around) := by
          cases spread <;> simp [Matches, isInTightList]
        rw [visits_list, Rewriting.node_list, renderNode_list, renderNode_list, List.map_cons, same]
        exact twins_text h noHtml ((each inside).within _) fun _ _ alike => twins_wrap_list _ _ _ _ _ alike
      | listItem spread checked =>
        rw [visits_listItem, Rewriting.node_listItem, renderNode_listItem, renderNode_listItem, List.map_cons, same]
        exact twins_text h noHtml (each tight) fun _ _ alike => twins_wrap_listItem _ _ _ _ alike
      | _ => cases wrapper

theorem twins_each (suits : r.Suits ds judge) {around : List Markdown.Node} (ss : List Scope)
    (tight : Matches ss around) (ns : List Markdown.Node) (h : NoHtml (Markdown.Node.leavesAll ns)) :
    Twins r ds ss (fun x y => Alike ((allVisits around ns).map judge) (slotNodes x) (slotNodes y))
      (renderEach false ns) (renderEach false (r.nodes around ns)) := by
  match ns, h with
  | [], _ =>
    rw [Rewriting.nodes, renderEach]
    exact .pure .nil
  | n :: ns, h =>
    obtain ⟨hn, hns⟩ := h.of_append
    have part : Twins r ds ss (fun x y => Alike ((visits around n).map judge) (slotNodes [x]) (slotNodes [y]))
        (renderPart false n) (renderPart false (r.node around n)) :=
      (twins_node suits ss tight n hn).map fun ms ms' alike => by simpa [slotNodes, combine] using alike
    rw [Rewriting.nodes, renderEach_cons, renderEach_cons, allVisits, List.map_append]
    refine part.bind fun s s' first => (twins_each suits ss tight ns hns).bind fun rest rest' others => .pure ?_
    simpa [slotNodes, combine] using first.append others

theorem twins_rows (suits : r.Suits ds judge) {around : List Markdown.Node} (ss : List Scope)
    (untight : isInTightList around = false) (rows : List Markdown.Node)
    (h : NoHtml (Markdown.Node.leavesAll rows)) (align : List (Option Markdown.Align)) (first : Bool) :
    Twins r ds ss (fun x y => y.length = x.length ∧ Alike ((rowVisits around rows).map judge) x y)
      (renderRows align first rows) (renderRows align first (r.nodes around rows)) := by
  match rows, h with
  | [], _ =>
    rw [Rewriting.nodes, renderRows]
    exact .pure ⟨rfl, .nil⟩
  | .leaf l p :: rows, h =>
    have rest := twins_rows suits ss untight rows h.of_append.2 align false
    have other : frame? (.leaf l p) ≠ some .tableRow := by simp [frame?]
    rw [Rewriting.nodes, renderRows_cons_of_ne other, renderRows_cons_of_ne, rowVisits_cons_of_ne other]
    · exact rest
    · rwa [Rewriting.frame?_node]
  | .branch kind p cells :: rows, h =>
    have rest := twins_rows suits ss untight rows h.of_append.2 align false
    have inner {around : List Markdown.Node} {ss : List Scope} (tight : Matches ss around) :=
      twins_cells suits ss tight cells h.of_append.1 align
    -- What is no row is passed by in both, since a rewriting makes no rows of other nodes.
    by_cases row : frame? (.branch kind p cells) = some .tableRow
    · cases kind with
      | tableRow =>
        have inside : Matches ((if first then .tableHead else .tableBody) :: ss)
            (.branch .tableRow p cells :: around) := by
          cases first <;> simp [Matches, isInTightList, untight]
        have scope : r.scope (if first then .tableHead else .tableBody) = if first then .tableHead else .tableBody := by
          cases first <;> rfl
        have cellsWithin := (inner inside).within (if first then .tableHead else .tableBody)
        rw [scope] at cellsWithin
        rw [rowVisits, List.map_append]
        refine cellsWithin.bind fun cs cs' content => rest.bind fun xs ys tail => .pure ⟨?_, ?_⟩
        · rw [List.length_cons, List.length_cons, tail.1]
        · exact content.element.append tail.2
      | _ => simp [frame?, isWrapper] at row
    · rw [Rewriting.nodes, renderRows_cons_of_ne row, renderRows_cons_of_ne, rowVisits_cons_of_ne row]
      · exact rest
      · rwa [Rewriting.frame?_node]

theorem twins_cells (suits : r.Suits ds judge) {around : List Markdown.Node} (ss : List Scope)
    (tight : Matches ss around) (cells : List Markdown.Node) (h : NoHtml (Markdown.Node.leavesAll cells))
    (align : List (Option Markdown.Align)) :
    Twins r ds ss (Alike ((cellVisits around cells).map judge)) (renderCells align cells)
      (renderCells align (r.nodes around cells)) := by
  match cells, h with
  | [], _ =>
    rw [Rewriting.nodes, renderCells]
    exact .pure .nil
  | .leaf l p :: cells, h =>
    have rest := twins_cells suits ss tight cells h.of_append.2 (align.drop 1)
    have other : frame? (.leaf l p) ≠ some .tableCell := by simp [frame?]
    rw [Rewriting.nodes, renderCells_cons_of_ne other, renderCells_cons_of_ne, cellVisits_cons_of_ne other]
    · exact rest
    · rwa [Rewriting.frame?_node]
  | .branch kind p children :: cells, h =>
    obtain ⟨hchildren, hcells⟩ := h.of_append
    have rest := twins_cells suits ss tight cells hcells (align.drop 1)
    have each (tight : Matches ss (.branch kind p children :: around)) := twins_each suits ss tight children hchildren
    by_cases cell : frame? (.branch kind p children) = some .tableCell
    · cases kind with
      | tableCell =>
        rw [Rewriting.nodes, Rewriting.node_tableCell, renderCells_cons, renderCells_cons, cellVisits, List.map_append]
        refine .ask fun c _ _ => ?_
        have head : (r.state c).scope = .tableHead ↔ c.scope = .tableHead := by
          rw [Rewriting.scope_state]
          cases c.scope <;> simp [Rewriting.scope]
        simp only [head]
        exact twins_text hchildren (Rewriting.noHtml_nodes hchildren) (each tight) fun _ _ content =>
          rest.bind fun _ _ tail => .pure (content.element.append tail)
      | _ => simp [frame?, isWrapper] at cell
    · rw [Rewriting.nodes, renderCells_cons_of_ne cell, renderCells_cons_of_ne, cellVisits_cons_of_ne cell]
      · exact rest
      · rwa [Rewriting.frame?_node]

end

/-! ### Pages -/

theorem twins_children (suits : r.Suits ds judge) (ns : List Markdown.Node)
    (h : NoHtml (Markdown.Node.leavesAll ns)) :
    Twins r ds [] (Alike ((allVisits [] ns).map judge)) (renderChildren ns) (renderChildren (r.nodes [] ns)) := by
  have outside : Matches [] [] := by simp [Matches, isInTightList]
  refine .ask fun c _ _ => ?_
  rw [isMixed_eq_false h, isMixed_eq_false (Rewriting.noHtml_nodes h), Bool.and_false, Bool.and_false]
  exact (twins_each suits [] outside ns h).map fun _ _ alike => alike

theorem twins_footnotes (suits : r.Suits ds judge) (notes : List Context.Footnote)
    (h : ∀ note ∈ notes, NoHtml (Markdown.Node.leavesAll note.children)) :
    Twins r ds [] (Alike ((notes.flatMap fun note => allVisits [] note.children).map judge)) (renderFootnotes notes)
      (renderFootnotes (notes.map (.mapChildren (r.nodes [])))) := by
  induction notes with
  | nil => exact .pure .nil
  | cons note notes ih =>
    rw [List.forall_mem_cons] at h
    rw [List.flatMap_cons, List.map_append]
    exact (twins_children suits note.children h.1).bind fun _ _ content => (ih h.2).bind fun _ _ rest =>
      .pure ((content.footnoteItem rfl rfl).append rest)

theorem alike_footnoteSection (suits : r.Suits ds judge) {c : Context} (hd : c.definitions = ds) (hs : c.scopes = [])
    (h : ∀ note ∈ c.takeFootnotes.1, NoHtml (Markdown.Node.leavesAll note.children)) :
    Alike ((c.takeFootnotes.1.flatMap fun note => allVisits [] note.children).map judge)
      (footnoteSection.run c).value.1 (footnoteSection.run (r.state c)).value.1 := by
  obtain ⟨items, -⟩ := twins_footnotes suits _ h c.takeFootnotes.2 hd hs
  rw [run_footnoteSection, run_footnoteSection, Rewriting.takeFootnotes_state, List.isEmpty_map]
  by_cases none : c.takeFootnotes.1 = []
  · rw [none]
    exact .nil
  · rw [← List.isEmpty_iff] at none
    rw [if_neg none, if_neg none]
    exact (Alike.same_cons_iff.1 ((Alike.refl [_]).append items.element)).element

variable {options : Options} {p : Option Markdown.Position} {body : List Markdown.Node}

/-- The pages of a document and of the rewritten one are put together alike, from what the judge says of the nodes that
are visited. -/
theorem alike_render (suits : r.Suits (start options p body).definitions judge)
    (hhtml : NoHtml (Markdown.Node.leavesAll body)) :
    Alike ((pageVisits body).map judge) (render options (.branch .root p body)).value.children
      (render options (.branch .root p (r.nodes [] body))).value.children := by
  have scopes : (start options p body).scopes = [] := (collect_keeps { options } (.branch .root p body)).2
  -- The body comes first; the state that it leaves has the listed footnotes, with their content rewritten.
  obtain ⟨content, state, kept, left⟩ := twins_children suits body hhtml (start options p body) rfl scopes
  have taken := takeFootnotes_tally options p body
  rw [← state_renderChildren hhtml] at taken
  have notes := alike_footnoteSection suits kept left (taken ▸ noHtml_foundNotes hhtml)
  rw [taken, flatMap_foundNotes (allVisits []) rfl] at notes
  rw [render_children, render_children, Rewriting.start_nodes, state, pageVisits, List.map_append]
  exact content.append notes

theorem render_eq_iff (suits : r.Suits (start options p body).definitions judge)
    (hhtml : NoHtml (Markdown.Node.leavesAll body)) :
    (render options (.branch .root p body)).value = (render options (.branch .root p (r.nodes [] body))).value ↔
      ∀ v ∈ pageVisits body, judge v = .same := by
  have children : (render options (.branch .root p body)).value =
        (render options (.branch .root p (r.nodes [] body))).value ↔
      (render options (.branch .root p body)).value.children =
        (render options (.branch .root p (r.nodes [] body))).value.children := by
    rw [value_render, value_render]
    exact Html.Node.root.injEq .. ▸ Iff.rfl
  rw [children, (alike_render suits hhtml).eq_iff, List.forall_mem_map]

end

end Folio.Rendering
