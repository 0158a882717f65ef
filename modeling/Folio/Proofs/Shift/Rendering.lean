import Folio.Proofs.Rendering
import Folio.Proofs.Shift.Piece

/-!
# Pages under a shift

A page does not show where its text stands: a step of the rendering of shifted nodes does what the step for the nodes
themselves does, from the state whose footnotes are shifted (`simulates_node`), so the pages are equal
(`simulates_page`).
-/

namespace Folio.Rendering

open Markdown (Shift shiftNodes shiftNodes_eq_map)

variable (s : Shift)

/-! ### States -/

namespace Context

def shift (c : Context) : Context := { c with footnotes := c.footnotes.map fun e => (e.1, e.2.map (.shift s)) }

def Footnote.shift (n : Footnote) : Footnote := { n with children := n.children.map (.shift s) }

theorem takeFootnotes_shift (c : Context) :
    (c.shift s).takeFootnotes = (c.takeFootnotes.1.map (.shift s), c.takeFootnotes.2.shift s) :=
  c.takeFootnotes_mapNotes (List.map (.shift s))

end Context

mutual

theorem collect_shift (c : Context) (n : Markdown.Node) : collect (c.shift s) (n.shift s) = (collect c n).shift s := by
  match n with
  | .leaf l p => cases l <;> rfl
  | .branch kind p children =>
    cases kind with
    | footnoteDefinition identifier label =>
      rw [Markdown.Node.shift, shiftNodes_eq_map]
      exact congrArg (fun es => { c with footnotes := es }) (insertNew_map (List.map (.shift s)) _ _ _)
    | _ => exact collectAll_shift c children

theorem collectAll_shift (c : Context) (ns : List Markdown.Node) :
    collectAll (c.shift s) (shiftNodes s ns) = (collectAll c ns).shift s := by
  match ns with
  | [] => rfl
  | n :: ns => rw [shiftNodes, collectAll, collect_shift c n, collectAll_shift (collect c n) ns, collectAll]

end

/-! ### Steps -/

/-- From the shifted state the second step does what the first one does. -/
def Simulates {α : Type} (x y : Render α) : Prop :=
  ∀ c : Context, y.run (c.shift s) = ⟨((x.run c).value.1, (x.run c).value.2.shift s), (x.run c).log⟩

namespace Simulates
variable {s} {α β : Type} {x y : Render α} {f g : α → Render β}

theorem pure (a : α) : Simulates s (pure a) (pure a) := fun _ => rfl

theorem bind (h : Simulates s x y) (hnext : ∀ a, Simulates s (f a) (g a)) : Simulates s (x >>= f) (y >>= g) := by
  intro c
  have second := hnext (x.run c).value.1 (x.run c).value.2
  rw [StateT.run_bind, h c]
  change (⟨((g (x.run c).value.1).run ((x.run c).value.2.shift s)).value,
    (x.run c).log ++ ((g (x.run c).value.1).run ((x.run c).value.2.shift s)).log⟩ : Logged (β × Context)) = _
  rw [second]
  rfl

theorem map (h : Simulates s x y) (f : α → β) : Simulates s (f <$> x) (f <$> y) := by
  intro c
  exact congrArg (fun r : Logged (α × Context) =>
    (⟨(f r.value.1, r.value.2), r.log ++ []⟩ : Logged (β × Context))) (h c)

/-- What a step reads of the state is in both, apart from the content of footnotes. -/
theorem ask {f g : Context → Render α} (h : ∀ c, Simulates s (f c) (g (c.shift s))) :
    Simulates s (get >>= f) (get >>= g) :=
  fun c => h c c

theorem modify {f : Context → Context} (h : ∀ c : Context, f (c.shift s) = (f c).shift s) :
    Simulates s (modify f) (modify f) := by
  intro c
  exact congrArg (fun c => (⟨((), c), []⟩ : Logged (Unit × Context))) (h c)

theorem within (scope : Scope) (h : Simulates s x y) : Simulates s (within scope x) (within scope y) := by
  have exit (c : Context) : (c.shift s).exit.2 = c.exit.2.shift s := by
    obtain ⟨_, scopes, _⟩ := c
    cases scopes <;> rfl
  exact .bind (.modify fun _ => rfl) fun _ => .bind h fun a => .bind (.modify exit) fun _ => .pure a

end Simulates

theorem simulates_leaf (l : Markdown.Leaf) : Simulates s (leaf l) (leaf l) := by
  refine .ask fun c => ?_
  cases l with
  | imageReference alt identifier label kind =>
    have same : (c.shift s).definition? identifier = c.definition? identifier := rfl
    simp only [same]
    cases c.definition? identifier <;> exact .pure _
  | html html =>
    have same : (c.shift s).options = c.options := rfl
    simp only [same]
    cases c.options.allowRawHtml <;> exact fun _ => rfl
  | _ => exact fun _ => rfl

theorem isMixed_shift (ns : List Markdown.Node) : isMixed (ns.map (.shift s)) = isMixed ns := by
  have html : isHtml ∘ Markdown.Node.shift s = isHtml := by
    funext n
    rcases n with ⟨l, p⟩ | ⟨kind, p, cs⟩
    · cases l <;> rfl
    · rfl
  have phrasing : isPhrasing ∘ Markdown.Node.shift s = isPhrasing := by
    funext n
    rcases n with ⟨l, p⟩ | ⟨kind, p, cs⟩
    · cases l <;> rfl
    · cases kind <;> rfl
  unfold isMixed
  rw [List.length_map, List.any_map, List.all_map, html, phrasing]

theorem simulates_wrap (kind : Markdown.Branch) (ns : List Markdown.Node) (children : List Html.Node) :
    Simulates s (wrap kind ns children) (wrap kind (ns.map (.shift s)) children) := by
  have tasks : (ns.map (.shift s)).any isTask = ns.any isTask := by
    have task : isTask ∘ Markdown.Node.shift s = isTask := by
      funext n
      rcases n with _ | ⟨kind, p, cs⟩
      · rfl
      · cases kind with
        | listItem spread checked => cases checked <;> rfl
        | _ => rfl
    rw [List.any_map, task]
  unfold wrap
  rw [tasks]
  refine .ask fun c => ?_
  cases kind with
  | linkReference identifier label kind =>
    have same : (c.shift s).definition? identifier = c.definition? identifier := rfl
    simp only [same]
    cases c.definition? identifier <;> exact .pure _
  | _ => exact .pure _

theorem simulates_text {α : Type} (ns : List Markdown.Node) {step step' : Bool → Render (List Slot)}
    {next next' : List Html.Node → Render α} (hstep : ∀ mixed, Simulates s (step mixed) (step' mixed))
    (hnext : ∀ content, Simulates s (next content) (next' content)) :
    Simulates s (text ns step next) (text (ns.map (.shift s)) step' next') := by
  refine .ask fun c => ?_
  rw [isMixed_shift]
  exact .bind (hstep _) fun _ => hnext _

/-! ### Trees -/

theorem isHeaded_shift (rows : List Markdown.Node) : isHeaded (rows.map (.shift s)) = isHeaded rows := by
  rcases rows with _ | ⟨⟨l, p⟩ | ⟨kind, p, cs⟩, rows⟩
  · rfl
  · rfl
  · cases kind <;> rfl

mutual

theorem simulates_node (n : Markdown.Node) : Simulates s (renderNode n) (renderNode (n.shift s)) := by
  match n with
  | .leaf l p =>
    rw [renderNode, Markdown.Node.shift, renderNode]
    exact simulates_leaf s l
  | .branch kind p children =>
    have each := simulates_each children
    cases kind with
    | footnoteDefinition => exact .pure _
    | tableRow => exact fun c => rfl
    | tableCell => exact fun c => rfl
    | table align =>
      rw [renderNode_table, Markdown.Node.shift_branch, renderNode_table, isHeaded_shift]
      exact .bind (simulates_rows children align true) fun _ => .pure _
    | list ordered start spread =>
      rw [renderNode_list, Markdown.Node.shift_branch, renderNode_list]
      exact simulates_text s children (fun mixed => (each mixed).within _) (simulates_wrap s _ _)
    | _ =>
      simp only [Markdown.Node.shift_branch, renderNode]
      exact simulates_text s children each (simulates_wrap s _ _)

theorem simulates_each (ns : List Markdown.Node) (mixed : Bool) :
    Simulates s (renderEach mixed ns) (renderEach mixed (ns.map (.shift s))) := by
  match ns with
  | [] => exact .pure _
  | n :: ns =>
    have first : Simulates s (renderPart mixed n) (renderPart mixed (n.shift s)) := by
      have node := (simulates_node n).map Slot.rendered
      rcases n with ⟨l, p⟩ | ⟨kind, p, cs⟩
      · cases mixed <;> cases l <;> first | exact node | exact .pure _
      · cases mixed <;> exact node
    rw [List.map_cons, renderEach_cons, renderEach_cons]
    exact .bind first fun _ => .bind (simulates_each ns mixed) fun _ => .pure _

theorem simulates_rows (rows : List Markdown.Node) (align : List (Option Markdown.Align)) (first : Bool) :
    Simulates s (renderRows align first rows) (renderRows align first (rows.map (.shift s))) := by
  match rows with
  | [] => exact .pure _
  | .leaf l p :: rows =>
    simp only [List.map_cons, Markdown.Node.shift_leaf, renderRows]
    exact simulates_rows rows align false
  | .branch kind p cells :: rows =>
    have rest := simulates_rows rows align false
    simp only [List.map_cons, Markdown.Node.shift_branch]
    cases kind with
    | tableRow =>
      simp only [renderRows]
      exact .bind ((simulates_cells cells align).within _) fun _ => .bind rest fun _ => .pure _
    | _ =>
      simp only [renderRows]
      exact rest

theorem simulates_cells (cells : List Markdown.Node) (align : List (Option Markdown.Align)) :
    Simulates s (renderCells align cells) (renderCells align (cells.map (.shift s))) := by
  match cells with
  | [] => exact .pure _
  | .leaf l p :: cells =>
    simp only [List.map_cons, Markdown.Node.shift_leaf, renderCells]
    exact simulates_cells cells _
  | .branch kind p children :: cells =>
    have rest := simulates_cells cells
    simp only [List.map_cons, Markdown.Node.shift_branch]
    cases kind with
    | tableCell =>
      rw [renderCells_cons, renderCells_cons]
      refine .ask fun _ => simulates_text s children (simulates_each children) fun _ => ?_
      exact .bind (rest _) fun _ => .pure _
    | _ =>
      simp only [renderCells]
      exact rest _

end

/-! ### Pages -/

theorem simulates_children (ns : List Markdown.Node) :
    Simulates s (renderChildren ns) (renderChildren (ns.map (.shift s))) := by
  refine .ask fun c => ?_
  rw [isMixed_shift]
  exact .map (simulates_each s ns _) _

theorem simulates_footnotes (notes : List Context.Footnote) :
    Simulates s (renderFootnotes notes) (renderFootnotes (notes.map (.shift s))) := by
  induction notes with
  | nil => exact .pure _
  | cons note notes ih => exact .bind (simulates_children s note.children) fun _ => .bind ih fun _ => .pure _

theorem simulates_footnoteSection : Simulates s footnoteSection footnoteSection := by
  have set (c : Context) : Simulates s (set c) (set (c.shift s)) := fun _ => rfl
  refine .ask fun c => ?_
  rw [Context.takeFootnotes_shift]
  refine .bind (set c.takeFootnotes.2) fun _ => ?_
  change Simulates s (if c.takeFootnotes.1.isEmpty then _ else _) _
  rw [List.isEmpty_map]
  split
  · exact .pure _
  · exact .bind (simulates_footnotes s _) fun _ => .pure _

theorem simulates_page (mixed : Bool) (ns : List Markdown.Node) :
    Simulates s (renderPage mixed ns) (renderPage mixed (ns.map (.shift s))) :=
  .bind (simulates_each s ns mixed) fun _ => .bind (simulates_footnoteSection s) fun _ => .pure _

theorem ofTree_shift (options : Options) (p q : Option Markdown.Position) (ns : List Markdown.Node) :
    Context.ofTree options (.branch .root p (ns.map (.shift s))) =
      (Context.ofTree options (.branch .root q ns)).shift s := by
  rw [← shiftNodes_eq_map]
  exact collectAll_shift s { options } ns

theorem run_renderPage_data (value : String) (q : Option Markdown.Position) (ns : List Markdown.Node) (c : Context) :
    ((renderPage false (.leaf (.yaml value) q :: ns)).run c).value = ((renderPage false ns).run c).value := by
  unfold renderPage
  rw [renderEach_cons]
  rfl

/-- A block of data in front leaves no trace in the page, but the text behind it is not read as mixed. -/
theorem value_render_behind_data (options : Options) (value : String) (p q p' : Option Markdown.Position)
    (ns : List Markdown.Node) :
    (render options (.branch .root p (.leaf (.yaml value) q :: ns.map (.shift s)))).value =
      .root ((renderPage false ns).run (Context.ofTree options (.branch .root p' ns))).value.1 := by
  have apart : isMixed (.leaf (.yaml value) q :: ns.map (.shift s)) = false := by
    simp [isMixed, isPhrasing]
  have start : Context.ofTree options (.branch .root p (.leaf (.yaml value) q :: ns.map (.shift s))) =
      (Context.ofTree options (.branch .root p' ns)).shift s := ofTree_shift s options p p' ns
  rw [value_render, apart, Bool.and_false, start, run_renderPage_data, simulates_page s false ns]

end Folio.Rendering
