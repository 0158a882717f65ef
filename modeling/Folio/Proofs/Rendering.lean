import Folio.Rendering

/-!
# Steps of a rendering

The rendering of tables, lists and cells, put together from the steps for their parts.
-/

namespace Folio.Rendering

open Html

/-! ### Tables -/

/-- Are the rows of a table headed by one? -/
def isHeaded : List Markdown.Node → Bool
  | .branch .tableRow _ _ :: _ => true
  | _ => false

/-- A table of rendered rows. -/
def table (headed : Bool) (rows : List Html.Node) : Html.Node :=
  let head := if headed then [element "thead" [] (rows.take 1)] else []
  let body := if headed then rows.drop 1 else rows
  element "table" [] (head ++ if body.isEmpty then [] else [element "tbody" [] body])

theorem renderNode_table (align : List (Option Markdown.Align)) (p : Option Markdown.Position)
    (rows : List Markdown.Node) :
    renderNode (.branch (.table align) p rows) = (do
      let all ← renderRows align true rows
      pure [table (isHeaded rows) all]) := by
  match rows with
  | [] => rfl
  | .leaf .. :: _ => rfl
  | .branch kind _ _ :: _ => cases kind <;> rfl

/-! ### Texts -/

/-- A step that puts the nodes of a text together, whether it is mixed or not, and goes on with them. -/
def text {α : Type} (ns : List Markdown.Node) (step : Bool → Render (List Slot)) (next : List Html.Node → Render α) :
    Render α := do
  let mixed := (← get).options.allowRawHtml && isMixed ns
  let ss ← step mixed
  next (combine mixed ss)

/-- A branch that is rendered around its children. -/
def wraps : Markdown.Branch → Bool
  | .table _ | .tableRow | .tableCell | .footnoteDefinition .. => false
  | _ => true

theorem renderNode_list (ordered : Bool) (start : Option Nat) (spread : Bool) (p : Option Markdown.Position)
    (children : List Markdown.Node) :
    renderNode (.branch (.list ordered start spread) p children) =
      text children (fun mixed => within (.list spread) (renderEach mixed children))
        (wrap (.list ordered start spread) children) := by
  rw [renderNode]
  rfl

/-- The part of a node. -/
def renderPart (mixed : Bool) (n : Markdown.Node) : Render Slot :=
  match mixed, n with
  | true, .leaf (.html html) _ => pure (.markup html)
  | _, n => Slot.rendered <$> renderNode n

theorem renderEach_cons (mixed : Bool) (n : Markdown.Node) (ns : List Markdown.Node) :
    renderEach mixed (n :: ns) = (do
      let s ← renderPart mixed n
      let ss ← renderEach mixed ns
      pure (s :: ss)) := by
  rcases n with ⟨l, p⟩ | ⟨kind, p, cs⟩
  · cases mixed <;> cases l <;> rfl
  · cases mixed <;> rfl

theorem renderCells_cons (align : List (Option Markdown.Align)) (p : Option Markdown.Position)
    (children cells : List Markdown.Node) :
    renderCells align (.branch .tableCell p children :: cells) = (do
      let tag := if (← get).scope = .tableHead then "th" else "td"
      text children (renderEach · children) fun content => do
        let rest ← renderCells (align.drop 1) cells
        pure (element tag (alignment align.head?) content :: rest)) := by
  rw [renderCells]
  rfl

/-! ### Content of footnotes -/

theorem insertNew_map {α β : Type} (f : α → β) (name : String) (a : α) (es : List (String × α)) :
    insertNew name (f a) (es.map fun e => (e.1, f e.2)) = (insertNew name a es).map fun e => (e.1, f e.2) := by
  have taken : ((es.map fun e => (e.1, f e.2)).lookup name).isSome = (es.lookup name).isSome := by
    induction es with
    | nil => rfl
    | cons e es ih =>
      rw [List.map_cons, List.lookup_cons, List.lookup_cons]
      cases name == e.1
      · exact ih
      · rfl
  unfold insertNew
  rw [taken, apply_ite (List.map _), List.map_append]
  rfl

namespace Context

variable (f : List Markdown.Node → List Markdown.Node)

/-- The state in which the content of every footnote is changed. -/
def mapNotes (c : Context) : Context := { c with footnotes := c.footnotes.map fun e => (e.1, f e.2) }

/-- The footnote whose content is changed. -/
def Footnote.mapChildren (note : Footnote) : Footnote := { note with children := f note.children }

theorem lookup_footnotes_mapNotes (c : Context) (key : String) :
    (c.mapNotes f).footnotes.lookup key = (c.footnotes.lookup key).map f := by
  unfold mapNotes
  dsimp only
  induction c.footnotes with
  | nil => rfl
  | cons e es ih =>
    rw [List.map_cons, List.lookup_cons, List.lookup_cons, ih]
    cases key == e.1 <;> rfl

theorem takeFootnotes_mapNotes (c : Context) :
    (c.mapNotes f).takeFootnotes = (c.takeFootnotes.1.map (.mapChildren f), c.takeFootnotes.2.mapNotes f) := by
  have found : (c.order.filterMap fun id => ((c.mapNotes f).footnotes.lookup id).map fun children =>
        (⟨id, (c.references.lookup id).getD 1, children⟩ : Footnote)) =
      (c.order.filterMap fun id => (c.footnotes.lookup id).map fun children =>
        (⟨id, (c.references.lookup id).getD 1, children⟩ : Footnote)).map (.mapChildren f) := by
    rw [List.map_filterMap]
    congr 1
    funext id
    rw [lookup_footnotes_mapNotes]
    cases c.footnotes.lookup id <;> rfl
  have kept : (c.mapNotes f).footnotes.filter (fun e => !c.order.contains e.1) =
      (c.footnotes.filter fun e => !c.order.contains e.1).map fun e => (e.1, f e.2) := by
    simp only [mapNotes, List.filter_map]
    rfl
  unfold takeFootnotes
  refine Prod.ext found ?_
  exact congrArg (fun es => { c with order := [], footnotes := es }) kept

end Context

/-! ### Pages -/

/-- The nodes of a page, the section of the footnotes behind those of the text, which is mixed or not. -/
def renderPage (mixed : Bool) (ns : List Markdown.Node) : Render (List Html.Node) := do
  let ss ← renderEach mixed ns
  let footnotes ← footnoteSection
  pure (combine mixed ss ++ footnotes)

mutual

/-- Collecting changes neither the options nor the scopes. -/
theorem collect_keeps (c : Context) (n : Markdown.Node) :
    (collect c n).options = c.options ∧ (collect c n).scopes = c.scopes := by
  match n with
  | .leaf l p => cases l <;> exact ⟨rfl, rfl⟩
  | .branch kind p children =>
    cases kind with
    | footnoteDefinition identifier label => exact ⟨rfl, rfl⟩
    | _ => exact collectAll_keeps c children

theorem collectAll_keeps (c : Context) (ns : List Markdown.Node) :
    (collectAll c ns).options = c.options ∧ (collectAll c ns).scopes = c.scopes := by
  match ns with
  | [] => exact ⟨rfl, rfl⟩
  | n :: ns =>
    have first := collect_keeps c n
    have rest := collectAll_keeps (collect c n) ns
    exact ⟨rest.1.trans first.1, rest.2.trans first.2⟩

end

theorem value_render (options : Options) (p : Option Markdown.Position) (ns : List Markdown.Node) :
    (render options (.branch .root p ns)).value = .root
      ((renderPage (options.allowRawHtml && isMixed ns) ns).run (Context.ofTree options (.branch .root p ns))).value.1 := by
  have start : (render options (.branch .root p ns)).value = .root
      ((renderPage ((Context.ofTree options (.branch .root p ns)).options.allowRawHtml && isMixed ns) ns).run
        (Context.ofTree options (.branch .root p ns))).value.1 := rfl
  rw [start, Context.ofTree, (collect_keeps ..).1]

end Folio.Rendering
