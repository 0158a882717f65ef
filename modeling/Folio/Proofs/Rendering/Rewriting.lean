import Folio.Proofs.Rendering.Comparison
import Folio.Proofs.Rendering.Definitions

/-!
# Rendering a rewritten document

A `Rewriting` replaces leaves by leaves and branches by branches around the same children. `visits` lists the nodes that
a rendering comes by, each with the branches around it. If it is known of each of them how a rendering changes when it
is replaced (`Rewriting.Suits`), then it is known how the page changes (`alike_render`).
-/

namespace Folio.Rendering

open Html

/-! ### The nodes of a page -/

/-- A branch that is rendered around its content, whatever this holds. -/
def isWrapper : Markdown.Branch → Bool
  | .list .. | .listItem .. | .table _ | .tableRow | .tableCell | .footnoteDefinition .. => false
  | _ => true

theorem renderNode_wrapper {kind : Markdown.Branch} (h : isWrapper kind = true) (p : Option Markdown.Position)
    (children : List Markdown.Node) :
    renderNode (.branch kind p children) = text children (renderEach · children) (wrap kind children) := by
  cases kind with
  | list | listItem | table | tableRow | tableCell | footnoteDefinition => cases h
  | _ => simp only [renderNode]; rfl

theorem renderNode_listItem (spread : Bool) (checked : Option Bool) (p : Option Markdown.Position)
    (children : List Markdown.Node) :
    renderNode (.branch (.listItem spread checked) p children) =
      text children (renderEach · children) (wrap (.listItem spread checked) children) := by
  simp only [renderNode]
  rfl

mutual

/-- The nodes that are rendered with a node in document order, each with the branches around it, the innermost one
first. -/
def visits (around : List Markdown.Node) : Markdown.Node → List (List Markdown.Node × Markdown.Node)
  | .leaf l p => [(around, .leaf l p)]
  | .branch (.footnoteDefinition ..) _ _ | .branch .tableRow _ _ | .branch .tableCell _ _ => []
  | .branch (.table align) p rows =>
    (around, .branch (.table align) p rows) :: rowVisits (.branch (.table align) p rows :: around) rows
  | .branch kind p children =>
    (around, .branch kind p children) :: allVisits (.branch kind p children :: around) children
termination_by structural n => n

/-- The nodes that are rendered with siblings. -/
def allVisits (around : List Markdown.Node) : List Markdown.Node → List (List Markdown.Node × Markdown.Node)
  | [] => []
  | n :: ns => visits around n ++ allVisits around ns

/-- The nodes that are rendered with the rows of a table. -/
def rowVisits (around : List Markdown.Node) : List Markdown.Node → List (List Markdown.Node × Markdown.Node)
  | [] => []
  | .branch .tableRow p cells :: rows => cellVisits (.branch .tableRow p cells :: around) cells ++ rowVisits around rows
  | _ :: rows => rowVisits around rows

/-- The nodes that are rendered with the cells of a row. -/
def cellVisits (around : List Markdown.Node) : List Markdown.Node → List (List Markdown.Node × Markdown.Node)
  | [] => []
  | .branch .tableCell p children :: cells =>
    allVisits (.branch .tableCell p children :: around) children ++ cellVisits around cells
  | _ :: cells => cellVisits around cells

end

/-- The nodes that are rendered with a document: those of the body, and those of the listed footnotes, which are moved
to the end of the page and have no branches around them. -/
def pageVisits (body : List Markdown.Node) : List (List Markdown.Node × Markdown.Node) :=
  allVisits [] body ++ (listedNotes body).flatMap fun note => allVisits [] note.children

/-- Is the innermost list or table around a node a list whose items are not set apart? -/
def isInTightList : List Markdown.Node → Bool
  | [] => false
  | .branch (.list _ _ spread) _ _ :: _ => !spread
  | .branch (.table _) _ _ :: _ => false
  | _ :: around => isInTightList around

theorem visits_wrapper {kind : Markdown.Branch} (h : isWrapper kind = true) (around : List Markdown.Node)
    (p : Option Markdown.Position) (children : List Markdown.Node) :
    visits around (.branch kind p children) =
      (around, .branch kind p children) :: allVisits (.branch kind p children :: around) children := by
  cases kind with
  | list | listItem | table | tableRow | tableCell | footnoteDefinition => cases h
  | _ => simp only [visits]

theorem visits_list (around : List Markdown.Node) (ordered : Bool) (start : Option Nat) (spread : Bool)
    (p : Option Markdown.Position) (children : List Markdown.Node) :
    visits around (.branch (.list ordered start spread) p children) =
      (around, .branch (.list ordered start spread) p children) ::
        allVisits (.branch (.list ordered start spread) p children :: around) children := rfl

theorem visits_listItem (around : List Markdown.Node) (spread : Bool) (checked : Option Bool)
    (p : Option Markdown.Position) (children : List Markdown.Node) :
    visits around (.branch (.listItem spread checked) p children) =
      (around, .branch (.listItem spread checked) p children) ::
        allVisits (.branch (.listItem spread checked) p children :: around) children := rfl

theorem isInTightList_wrapper {kind : Markdown.Branch} (h : isWrapper kind = true) (around : List Markdown.Node)
    (p : Option Markdown.Position) (children : List Markdown.Node) :
    isInTightList (.branch kind p children :: around) = isInTightList around := by
  cases kind with
  | list | listItem | table | tableRow | tableCell | footnoteDefinition => cases h
  | _ => simp only [isInTightList]

/-! ### What stays -/

/-- The branch that a rewriting leaves as it is, but for the space between the items of a list. -/
def frame? : Markdown.Node → Option Markdown.Branch
  | .leaf .. => none
  | .branch (.list ordered start _) _ _ => some (.list ordered start false)
  | .branch kind _ _ => if isWrapper kind then none else some kind

theorem frame?_wrapper {kind : Markdown.Branch} (h : isWrapper kind = true) (p : Option Markdown.Position)
    (children : List Markdown.Node) : frame? (.branch kind p children) = none := by
  cases kind with
  | list | listItem | table | tableRow | tableCell | footnoteDefinition => cases h
  | _ => rfl

theorem isTask_eq_any (n : Markdown.Node) : isTask n = (frame? n).any fun
    | .listItem _ checked => checked.isSome
    | _ => false := by
  rcases n with _ | ⟨kind, p, children⟩
  · rfl
  · cases kind with
    | listItem spread checked => cases checked <;> rfl
    | _ => rfl

theorem isHeaded_eq_decide (rows : List Markdown.Node) :
    isHeaded rows = decide (rows.head?.bind frame? = some .tableRow) := by
  rcases rows with _ | ⟨_ | ⟨kind, p, cells⟩, rows⟩
  · rfl
  · rfl
  · cases kind <;> rfl

section
variable {n : Markdown.Node} {around ns : List Markdown.Node} {align : List (Option Markdown.Align)}

theorem renderRows_cons_of_ne (h : frame? n ≠ some .tableRow) (first : Bool) :
    renderRows align first (n :: ns) = renderRows align false ns := by
  rw [renderRows]
  rintro p cells rfl
  exact h rfl

theorem rowVisits_cons_of_ne (h : frame? n ≠ some .tableRow) : rowVisits around (n :: ns) = rowVisits around ns := by
  rw [rowVisits]
  rintro p cells rfl
  exact h rfl

theorem renderCells_cons_of_ne (h : frame? n ≠ some .tableCell) :
    renderCells align (n :: ns) = renderCells (align.drop 1) ns := by
  rw [renderCells]
  rintro p children rfl
  exact h rfl

theorem cellVisits_cons_of_ne (h : frame? n ≠ some .tableCell) :
    cellVisits around (n :: ns) = cellVisits around ns := by
  rw [cellVisits]
  rintro p children rfl
  exact h rfl

end

/-! ### Rewriting -/

/-- A replacement of leaves and of wrappers, which may depend on the branches around. Definitions stay as they are, and
no markup is put in. Lists may become looser or tighter. -/
structure Rewriting where
  leaf : Markdown.Leaf → Markdown.Leaf
  branch : List Markdown.Node → Markdown.Branch → Markdown.Branch
  spread : Bool → Bool
  definitionOf?_leaf : ∀ l, definitionOf? (leaf l) = definitionOf? l
  noHtml_leaf : ∀ l, NoHtml [l] → NoHtml [leaf l]
  isWrapper_branch : ∀ around kind, isWrapper kind = true → isWrapper (branch around kind) = true

namespace Rewriting

variable (r : Rewriting)

/-- What a branch becomes. -/
def kind (around : List Markdown.Node) : Markdown.Branch → Markdown.Branch
  | .list ordered start spread => .list ordered start (r.spread spread)
  | kind => if isWrapper kind then r.branch around kind else kind

mutual

/-- The rewritten node that stands within some branches. -/
def node (around : List Markdown.Node) : Markdown.Node → Markdown.Node
  | .leaf l p => .leaf (r.leaf l) p
  | .branch (.footnoteDefinition identifier label) p children =>
    .branch (.footnoteDefinition identifier label) p (nodes [] children)
  | .branch kind p children => .branch (r.kind around kind) p (nodes (.branch kind p children :: around) children)

/-- The rewritten siblings. -/
def nodes (around : List Markdown.Node) : List Markdown.Node → List Markdown.Node
  | [] => []
  | n :: ns => node around n :: nodes around ns

end

variable {r} {kind : Markdown.Branch}

theorem kind_wrapper (around : List Markdown.Node) (h : isWrapper kind = true) :
    r.kind around kind = r.branch around kind := by
  cases kind with
  | list => cases h
  | _ => simp only [Rewriting.kind, h, if_true]

theorem node_wrapper (around : List Markdown.Node) (h : isWrapper kind = true) (p : Option Markdown.Position)
    (children : List Markdown.Node) :
    r.node around (.branch kind p children) =
      .branch (r.branch around kind) p (r.nodes (.branch kind p children :: around) children) := by
  rw [node, kind_wrapper around h]
  rintro identifier label rfl
  cases h

section
variable (around children : List Markdown.Node) (p : Option Markdown.Position)

theorem node_list (ordered : Bool) (start : Option Nat) (spread : Bool) :
    r.node around (.branch (.list ordered start spread) p children) =
      .branch (.list ordered start (r.spread spread)) p
        (r.nodes (.branch (.list ordered start spread) p children :: around) children) := rfl

theorem node_listItem (spread : Bool) (checked : Option Bool) :
    r.node around (.branch (.listItem spread checked) p children) =
      .branch (.listItem spread checked) p
        (r.nodes (.branch (.listItem spread checked) p children :: around) children) := rfl

theorem node_table (align : List (Option Markdown.Align)) :
    r.node around (.branch (.table align) p children) =
      .branch (.table align) p (r.nodes (.branch (.table align) p children :: around) children) := rfl

theorem node_tableCell : r.node around (.branch .tableCell p children) =
    .branch .tableCell p (r.nodes (.branch .tableCell p children :: around) children) := rfl

end

theorem frame?_node (around : List Markdown.Node) (n : Markdown.Node) : frame? (r.node around n) = frame? n := by
  rcases n with _ | ⟨kind, p, children⟩
  · rfl
  · by_cases wrapper : isWrapper kind = true
    · rw [node_wrapper around wrapper, frame?_wrapper wrapper, frame?_wrapper (r.isWrapper_branch around kind wrapper)]
    · cases kind with
      | list | listItem | table | tableRow | tableCell | footnoteDefinition => rfl
      | _ => exact absurd rfl wrapper

theorem any_isTask_nodes (around ns : List Markdown.Node) : (r.nodes around ns).any isTask = ns.any isTask := by
  induction ns with
  | nil => rfl
  | cons n ns ih => rw [nodes, List.any_cons, List.any_cons, ih, isTask_eq_any, frame?_node, ← isTask_eq_any]

theorem isHeaded_nodes (around rows : List Markdown.Node) : isHeaded (r.nodes around rows) = isHeaded rows := by
  cases rows with
  | nil => rfl
  | cons row rows =>
    have same : (r.nodes around (row :: rows)).head?.bind frame? = (row :: rows).head?.bind frame? :=
      frame?_node around row
    rw [isHeaded_eq_decide, isHeaded_eq_decide, same]

mutual

theorem leaves_node (around : List Markdown.Node) (n : Markdown.Node) :
    (r.node around n).leaves = n.leaves.map r.leaf := by
  match n with
  | .leaf .. => rfl
  | .branch kind p children =>
    cases kind with
    | footnoteDefinition => exact leavesAll_nodes [] children
    | _ => exact leavesAll_nodes _ children

theorem leavesAll_nodes (around : List Markdown.Node) (ns : List Markdown.Node) :
    Markdown.Node.leavesAll (r.nodes around ns) = (Markdown.Node.leavesAll ns).map r.leaf := by
  match ns with
  | [] => rfl
  | n :: ns =>
    rw [nodes, Markdown.Node.leavesAll, leaves_node around n, leavesAll_nodes around ns, Markdown.Node.leavesAll,
      List.map_append]

end

theorem noHtml_nodes {around ns : List Markdown.Node} (h : NoHtml (Markdown.Node.leavesAll ns)) :
    NoHtml (Markdown.Node.leavesAll (r.nodes around ns)) := by
  intro html mem
  rw [leavesAll_nodes] at mem
  obtain ⟨l, hl, eq⟩ := List.mem_map.1 mem
  have single : NoHtml [l] := fun v hv => h v (List.mem_singleton.1 hv ▸ hl)
  exact r.noHtml_leaf l single html (eq ▸ List.mem_singleton.2 rfl)

/-! ### States -/

variable (r)

/-- The scope of a rewritten list. -/
def scope : Scope → Scope
  | .list spread => .list (r.spread spread)
  | s => s

/-- The state of the rendering of the rewritten document. -/
def state (c : Context) : Context := { c.mapNotes (r.nodes []) with scopes := c.scopes.map r.scope }

variable {r}

theorem takeFootnotes_state (c : Context) :
    (r.state c).takeFootnotes = (c.takeFootnotes.1.map (.mapChildren (r.nodes [])), r.state c.takeFootnotes.2) := by
  have taken := c.takeFootnotes_mapNotes (r.nodes [])
  exact congrArg (fun t : List Context.Footnote × Context => (t.1, { t.2 with scopes := c.scopes.map r.scope })) taken

theorem scope_state (c : Context) : (r.state c).scope = r.scope c.scope := by
  obtain ⟨_, scopes, _⟩ := c
  cases scopes <;> rfl

theorem collect_leaf (c : Context) (l : Markdown.Leaf) (p : Option Markdown.Position) : collect c (.leaf l p) =
    match definitionOf? l with
    | some d => { c with definitions := insertNew d.1 d.2 c.definitions }
    | none => c := by
  cases l <;> rfl

mutual

/-- Collecting from the rewritten tree finds the same definitions, and the footnotes with their content rewritten. -/
theorem collect_node (c : Context) (around : List Markdown.Node) (n : Markdown.Node) :
    collect (r.state c) (r.node around n) = r.state (collect c n) := by
  match n with
  | .leaf l p =>
    rw [node, collect_leaf, collect_leaf, r.definitionOf?_leaf]
    cases definitionOf? l <;> rfl
  | .branch kind p children =>
    have plain (kind' : Markdown.Branch) (around : List Markdown.Node)
        (h : ∀ identifier label, kind' ≠ .footnoteDefinition identifier label) :
        collect (r.state c) (.branch kind' p (r.nodes around children)) = r.state (collectAll c children) := by
      cases kind' with
      | footnoteDefinition identifier label => exact absurd rfl (h identifier label)
      | _ => exact collectAll_nodes c around children
    by_cases wrapper : isWrapper kind = true
    · rw [node_wrapper around wrapper, plain]
      · cases kind with
        | footnoteDefinition => cases wrapper
        | _ => rfl
      · intro identifier label eq
        have := r.isWrapper_branch around kind wrapper
        rw [eq] at this
        cases this
    · cases kind with
      | footnoteDefinition identifier label =>
        exact congrArg (fun es => { r.state c with footnotes := es }) (insertNew_map (r.nodes []) _ _ _)
      | list | listItem | table | tableRow | tableCell => exact plain _ _ nofun
      | _ => exact absurd rfl wrapper

theorem collectAll_nodes (c : Context) (around : List Markdown.Node) (ns : List Markdown.Node) :
    collectAll (r.state c) (r.nodes around ns) = r.state (collectAll c ns) := by
  match ns with
  | [] => rfl
  | n :: ns => rw [nodes, collectAll, collect_node c around n, collectAll_nodes (collect c n) around ns, collectAll]

end

theorem start_nodes (options : Options) (p : Option Markdown.Position) (body : List Markdown.Node) :
    start options p (r.nodes [] body) = r.state (start options p body) := collectAll_nodes { options } [] body

end Rewriting

end Folio.Rendering
