import Folio.Proofs.Footnote.Tally
import Folio.Proofs.Html.Forest
import Folio.Proofs.Rendering

/-!
# The links that a rendering leaves

`references` lists the references to footnotes that a rendering comes by, in the order in which it does: those among
the leaves that are rendered (`allReferences_eq`). Without markup of its own a text is rendered to nodes whose links to
footnotes are those of the tally of its references, and the state behind it is the state of the tally
(`rendersTo_node`). There are no other traces of footnotes in such nodes.
-/

namespace Folio.Markdown.Node

mutual

/-- The leaves of a tree in document order. -/
def leaves : Node → List Leaf
  | .leaf l _ => [l]
  | .branch _ _ cs => leavesAll cs

/-- The leaves of trees. -/
def leavesAll : List Node → List Leaf
  | [] => []
  | n :: ns => leaves n ++ leavesAll ns

end

end Folio.Markdown.Node

namespace Folio.Rendering

open Html

/-! ### Leaves in the order of rendering -/

mutual

/-- The leaves that are rendered with a node, in document order: none in the definition of a footnote, nor in a row or a
cell that is out of place. -/
def renderedLeaves : Markdown.Node → List Markdown.Leaf
  | .leaf l _ => [l]
  | .branch (.footnoteDefinition ..) _ _ => []
  | .branch .tableRow _ _ | .branch .tableCell _ _ => []
  | .branch (.table _) _ rows => rowLeaves rows
  | .branch _ _ children => allRenderedLeaves children

/-- The leaves that are rendered with siblings. -/
def allRenderedLeaves : List Markdown.Node → List Markdown.Leaf
  | [] => []
  | n :: ns => renderedLeaves n ++ allRenderedLeaves ns

/-- The leaves that are rendered with the rows of a table. -/
def rowLeaves : List Markdown.Node → List Markdown.Leaf
  | [] => []
  | .branch .tableRow _ cells :: rows => cellLeaves cells ++ rowLeaves rows
  | _ :: rows => rowLeaves rows

/-- The leaves that are rendered with the cells of a row. -/
def cellLeaves : List Markdown.Node → List Markdown.Leaf
  | [] => []
  | .branch .tableCell _ children :: cells => allRenderedLeaves children ++ cellLeaves cells
  | _ :: cells => cellLeaves cells

end

mutual

/-- What is rendered are leaves of the tree. -/
theorem leaf_of_renderedLeaves {n : Markdown.Node} {l : Markdown.Leaf} (h : l ∈ renderedLeaves n) : l ∈ n.leaves := by
  match n, h with
  | .leaf .., h => exact h
  | .branch kind _ children, h =>
    rw [Markdown.Node.leaves]
    cases kind with
    | footnoteDefinition | tableRow | tableCell => simp [renderedLeaves] at h
    | table align =>
      rw [renderedLeaves] at h
      exact leaf_of_rowLeaves h
    | _ =>
      simp only [renderedLeaves] at h
      exact leaf_of_allRenderedLeaves h

theorem leaf_of_allRenderedLeaves {ns : List Markdown.Node} {l : Markdown.Leaf} (h : l ∈ allRenderedLeaves ns) :
    l ∈ Markdown.Node.leavesAll ns := by
  match ns, h with
  | n :: ns, h =>
    rw [allRenderedLeaves, List.mem_append] at h
    rw [Markdown.Node.leavesAll, List.mem_append]
    exact h.imp leaf_of_renderedLeaves leaf_of_allRenderedLeaves

theorem leaf_of_rowLeaves {rows : List Markdown.Node} {l : Markdown.Leaf} (h : l ∈ rowLeaves rows) :
    l ∈ Markdown.Node.leavesAll rows := by
  match rows, h with
  | .leaf .. :: rows, h =>
    simp only [rowLeaves] at h
    exact List.mem_append_right _ (leaf_of_rowLeaves h)
  | .branch kind _ cells :: rows, h =>
    rw [Markdown.Node.leavesAll, Markdown.Node.leaves, List.mem_append]
    cases kind with
    | tableRow =>
      rw [rowLeaves, List.mem_append] at h
      exact h.imp leaf_of_cellLeaves leaf_of_rowLeaves
    | _ =>
      simp only [rowLeaves] at h
      exact Or.inr (leaf_of_rowLeaves h)

theorem leaf_of_cellLeaves {cells : List Markdown.Node} {l : Markdown.Leaf} (h : l ∈ cellLeaves cells) :
    l ∈ Markdown.Node.leavesAll cells := by
  match cells, h with
  | .leaf .. :: cells, h =>
    simp only [cellLeaves] at h
    exact List.mem_append_right _ (leaf_of_cellLeaves h)
  | .branch kind _ children :: cells, h =>
    rw [Markdown.Node.leavesAll, Markdown.Node.leaves, List.mem_append]
    cases kind with
    | tableCell =>
      rw [cellLeaves, List.mem_append] at h
      exact h.imp leaf_of_allRenderedLeaves leaf_of_cellLeaves
    | _ =>
      simp only [cellLeaves] at h
      exact Or.inr (leaf_of_cellLeaves h)

end

/-! ### References in the order of rendering -/

mutual

/-- The references that are rendered with a node: none in a definition, nor in a row or a cell that is out of place. -/
def references : Markdown.Node → List String
  | .leaf (.footnoteReference identifier _) _ => [identifier]
  | .leaf .. => []
  | .branch (.footnoteDefinition ..) _ _ => []
  | .branch .tableRow _ _ | .branch .tableCell _ _ => []
  | .branch (.table _) _ rows => rowReferences rows
  | .branch _ _ children => allReferences children

/-- The references of siblings. -/
def allReferences : List Markdown.Node → List String
  | [] => []
  | n :: ns => references n ++ allReferences ns

/-- The references of the rows of a table. -/
def rowReferences : List Markdown.Node → List String
  | [] => []
  | .branch .tableRow _ cells :: rows => cellReferences cells ++ rowReferences rows
  | _ :: rows => rowReferences rows

/-- The references of the cells of a row. -/
def cellReferences : List Markdown.Node → List String
  | [] => []
  | .branch .tableCell _ children :: cells => allReferences children ++ cellReferences cells
  | _ :: cells => cellReferences cells

end

/-- The identifier of the footnote that a leaf refers to. -/
def reference? : Markdown.Leaf → Option String
  | .footnoteReference identifier _ => some identifier
  | _ => none

mutual

theorem references_eq (n : Markdown.Node) : references n = (renderedLeaves n).filterMap reference? := by
  match n with
  | .leaf l p => cases l <;> rfl
  | .branch kind p children =>
    cases kind with
    | footnoteDefinition | tableRow | tableCell => rfl
    | table align => exact rowReferences_eq children
    | _ =>
      simp only [references, renderedLeaves]
      exact allReferences_eq children

/-- The references are those among the leaves that are rendered. -/
theorem allReferences_eq (ns : List Markdown.Node) :
    allReferences ns = (allRenderedLeaves ns).filterMap reference? := by
  match ns with
  | [] => rfl
  | n :: ns => rw [allReferences, allRenderedLeaves, List.filterMap_append, references_eq n, allReferences_eq ns]

theorem rowReferences_eq (rows : List Markdown.Node) : rowReferences rows = (rowLeaves rows).filterMap reference? := by
  match rows with
  | [] => rfl
  | .leaf .. :: rows =>
    simp only [rowReferences, rowLeaves]
    exact rowReferences_eq rows
  | .branch kind _ cells :: rows =>
    cases kind with
    | tableRow => rw [rowReferences, rowLeaves, List.filterMap_append, cellReferences_eq cells, rowReferences_eq rows]
    | _ =>
      simp only [rowReferences, rowLeaves]
      exact rowReferences_eq rows

theorem cellReferences_eq (cells : List Markdown.Node) :
    cellReferences cells = (cellLeaves cells).filterMap reference? := by
  match cells with
  | [] => rfl
  | .leaf .. :: cells =>
    simp only [cellReferences, cellLeaves]
    exact cellReferences_eq cells
  | .branch kind _ children :: cells =>
    cases kind with
    | tableCell =>
      rw [cellReferences, cellLeaves, List.filterMap_append, allReferences_eq children, cellReferences_eq cells]
    | _ =>
      simp only [cellReferences, cellLeaves]
      exact cellReferences_eq cells

end

/-- What a rendering comes by are leaves of the tree. -/
theorem leaf_of_allReferences {ns : List Markdown.Node} {x : String} (h : x ∈ allReferences ns) :
    ∃ label, .footnoteReference x label ∈ Markdown.Node.leavesAll ns := by
  rw [allReferences_eq, List.mem_filterMap] at h
  obtain ⟨l, hl, found⟩ := h
  cases l with
  | footnoteReference identifier label =>
    obtain rfl := Option.some.inj found
    exact ⟨label, leaf_of_allRenderedLeaves hl⟩
  | _ => cases found

/-! ### Traces of footnotes -/

/-- The properties that only links to footnotes, links back and the section of footnotes have. -/
def traceNames : List String := ["data-footnote-ref", "data-footnote-backref", "data-footnotes"]

/-- Has an element to do with footnotes? -/
def isTrace (e : Element) : Bool := e.properties.names.any traceNames.contains

/-- The elements of a forest that have to do with footnotes, in document order. -/
def traces (ns : List Html.Node) : List Element := (Node.elementsAll ns).filter isTrace

theorem names_ofList (es : List (String × PropertyValue)) {n : String} (h : n ∈ (Properties.ofList es).names) :
    n ∈ es.map (·.1) := by
  induction es using List.reverseRecOn with
  | nil => simp [Properties.ofList, Properties.empty, Properties.names] at h
  | append_singleton es e ih =>
    have set : n ∈ ((Properties.ofList es).set e.1 e.2).names := by rwa [Properties.ofList, List.foldl_append] at h
    rw [Properties.names_set] at set
    rw [List.map_append, List.mem_append]
    split at set
    · exact Or.inl (ih set)
    · exact (List.mem_append.1 set).imp ih (by simp)

@[simp] theorem traces_nil : traces [] = [] := rfl

@[simp] theorem traces_append (ns ns' : List Html.Node) : traces (ns ++ ns') = traces ns ++ traces ns' := by
  rw [traces, Node.elementsAll_append, List.filter_append]; rfl

theorem traces_cons (n : Html.Node) (ns : List Html.Node) : traces (n :: ns) = traces [n] ++ traces ns :=
  traces_append [n] ns

@[simp] theorem traces_text (s : String) (ns : List Html.Node) : traces (.text s :: ns) = traces ns := rfl

/-- Properties that have nothing to do with footnotes. -/
def Plain (es : List (String × PropertyValue)) : Prop := ∀ e ∈ es, e.1 ∉ traceNames

@[simp] theorem plain_nil : Plain [] := nofun

@[simp] theorem plain_cons (e : String × PropertyValue) (es : List (String × PropertyValue)) :
    Plain (e :: es) ↔ e.1 ∉ traceNames ∧ Plain es := List.forall_mem_cons

@[simp] theorem plain_append (es es' : List (String × PropertyValue)) : Plain (es ++ es') ↔ Plain es ∧ Plain es' :=
  List.forall_mem_append

/-- An element whose properties have nothing to do with footnotes has the traces that are below it. -/
theorem traces_element {tag : String} {es : List (String × PropertyValue)} (h : Plain es)
    (children : List Html.Node) :
    traces [element tag es children] = traces children := by
  have plain : isTrace ⟨tag, Properties.ofList es, children⟩ = false := by
    rw [isTrace, List.any_eq_false]
    intro n hn hc
    obtain ⟨e, he, rfl⟩ := List.mem_map.1 (names_ofList es hn)
    exact h e he (List.contains_iff_mem.1 hc)
  simp only [traces, element, Node.elementsAll, Node.elements, List.append_nil, List.filter_cons, plain]
  simp

theorem isTrace_referenceLink (key : String) (ordinal occurrence : Nat) :
    isTrace (referenceLink key ordinal occurrence) = true := by
  simp [isTrace, referenceLink, Properties.ofList, Properties.set, Properties.setIn, Properties.empty, Properties.names,
    traceNames]

theorem traces_footnoteLink (identifier : String) (ordinal occurrence : Nat) :
    traces [footnoteLink identifier ordinal occurrence] = [referenceLink (foldCase identifier) ordinal occurrence] := by
  rw [footnoteLink_eq, traces_element (by simp)]
  have link := isTrace_referenceLink (foldCase identifier) ordinal occurrence
  simp only [traces, Element.toNode, Node.elementsAll, Node.elements, List.append_nil, List.filter_cons]
  rw [if_pos link]
  rfl

/-! ### Steps of a rendering -/

/-- From every state the step adds the links of the tally of some references to the traces that were there before, and
leaves the state of that tally. The nodes are those that are put together from its result. -/
def RendersTo {α : Type} (nodes : α → List Html.Node) (before : List Element) (step : Render α)
    (ids : List String) : Prop :=
  ∀ c : Context, traces (nodes (step.run c).value.1) = before ++ (c.tally ids).1 ∧
    (step.run c).value.2 = (c.tally ids).2

/-- The nodes of parts without markup. -/
abbrev slotNodes (ss : List Slot) : List Html.Node := combine false ss

namespace RendersTo
variable {α β : Type} {nodes : α → List Html.Node} {nodes' : β → List Html.Node} {before : List Element}
  {ids ids' : List String}

theorem pure {a : α} (h : traces (nodes a) = before) : RendersTo nodes before (pure a) [] :=
  fun _ => ⟨h.trans (List.append_nil _).symm, rfl⟩

theorem bind {step : Render α} {next : α → Render β} (h : RendersTo nodes before step ids)
    (hnext : ∀ a, RendersTo nodes' (traces (nodes a)) (next a) ids') :
    RendersTo nodes' before (step >>= next) (ids ++ ids') := by
  intro c
  obtain ⟨links, state⟩ := h c
  obtain ⟨links', state'⟩ := hnext (step.run c).value.1 (step.run c).value.2
  rw [Context.tally_append, ← List.append_assoc, ← links, ← state]
  exact ⟨links', state'⟩

/-- What only looks at the state or writes to the log may come first. -/
theorem ask {next : Context → Render α} (h : ∀ c, RendersTo nodes before (next c) ids) :
    RendersTo nodes before (get >>= next) ids :=
  fun c => h c c

theorem warn {message : String} {next : Unit → Render α} (h : RendersTo nodes before (next ()) ids) :
    RendersTo nodes before (liftM (Logged.warn message) >>= next) ids :=
  fun c => h c

theorem map {step : Render α} {f : α → β} (h : RendersTo nodes before step ids) (hf : ∀ a, nodes' (f a) = nodes a) :
    RendersTo nodes' before (f <$> step) ids := by
  intro c
  obtain ⟨links, state⟩ := h c
  exact ⟨(congrArg traces (hf _)).trans links, state⟩

/-- The result of a step put behind what was there before. -/
theorem behind {step : Render α} {f : α → β} (h : RendersTo nodes [] step ids)
    (hf : ∀ a, traces (nodes' (f a)) = before ++ traces (nodes a)) :
    RendersTo nodes' before (step >>= fun a => Pure.pure (f a)) ids := by
  intro c
  obtain ⟨links, state⟩ := h c
  exact ⟨(hf _).trans (congrArg (before ++ ·) links), state⟩

theorem within {step : Render α} (s : Scope) (h : RendersTo nodes before step ids) :
    RendersTo nodes before (within s step) ids := by
  intro c
  obtain ⟨links, state⟩ := h (c.enter s)
  rw [Context.tally_enter] at links state
  exact ⟨links, (congrArg (fun c => c.exit.2) state).trans (Context.exit_enter ..)⟩

end RendersTo

/-! ### Rendering without markup -/

/-- Is there no markup among the leaves? -/
def NoHtml (ls : List Markdown.Leaf) : Prop := ∀ html, .html html ∉ ls

theorem NoHtml.of_append {ls ls' : List Markdown.Leaf} (h : NoHtml (ls ++ ls')) : NoHtml ls ∧ NoHtml ls' :=
  ⟨fun v hv => h v (List.mem_append_left _ hv), fun v hv => h v (List.mem_append_right _ hv)⟩

theorem any_isHtml_eq_false {ns : List Markdown.Node} (h : NoHtml (Markdown.Node.leavesAll ns)) :
    ns.any isHtml = false := by
  induction ns with
  | nil => rfl
  | cons n ns ih =>
    obtain ⟨hn, hns⟩ := h.of_append
    have : isHtml n = false := by
      unfold isHtml
      split
      · exact absurd (List.mem_singleton.2 rfl) (hn _)
      · rfl
    rw [List.any_cons, this, ih hns]
    rfl

theorem isMixed_eq_false {ns : List Markdown.Node} (h : NoHtml (Markdown.Node.leavesAll ns)) : isMixed ns = false := by
  simp [isMixed, any_isHtml_eq_false h]

/-! #### Leaves -/

theorem plain_title (v : Option String) : Plain (optional "title" v) := by
  cases v <;> simp [optional, traceNames]

theorem traces_image (lazy : Bool) (url alt : String) (title : Option String) :
    traces [image lazy url alt title] = [] := by
  refine traces_element ?_ _
  have := plain_title title
  cases lazy <;> simp [this, traceNames]

theorem traces_codeBlock (value : String) (lang : Option String) : traces [codeBlock value lang] = [] := by
  rw [codeBlock, traces_element plain_nil, traces_element]
  · rfl
  · cases lang.filter fun l => !l.isEmpty <;> simp [traceNames]

theorem rendersTo_leaf (l : Markdown.Leaf) (p : Option Markdown.Position) (h : NoHtml [l]) :
    RendersTo id [] (leaf l) (references (.leaf l p)) := by
  unfold leaf
  cases l with
  | html v => exact absurd (List.mem_singleton.2 rfl) (h v)
  | footnoteReference identifier label => exact fun _ => ⟨traces_footnoteLink identifier _ _, rfl⟩
  | image url alt title => exact .ask fun c => .pure (traces_image ..)
  | imageReference alt identifier label kind =>
    refine .ask fun c => ?_
    dsimp only
    cases c.definition? identifier with
    | some d => exact .pure (traces_image ..)
    | none => exact .pure rfl
  | code value lang info => exact .ask fun c => .pure (traces_codeBlock ..)
  | inlineMath v => exact .ask fun c => .warn (.pure rfl)
  | math v info => exact .ask fun c => .warn (.pure rfl)
  | inlineCode v => exact .ask fun c => .pure (traces_element plain_nil _)
  | hardBreak => exact .ask fun c => .pure (traces_element plain_nil _)
  | thematicBreak => exact .ask fun c => .pure (traces_element plain_nil _)
  | text v => exact .ask fun c => .pure rfl
  | definition url title identifier label => exact .ask fun c => .pure rfl
  | yaml v => exact .ask fun c => .pure rfl
  | toml v => exact .ask fun c => .pure rfl

/-! #### Branches -/

theorem traces_link (url : String) (title : Option String) (children : List Html.Node) :
    traces [link url title children] = traces children := by
  refine traces_element ?_ _
  have := plain_title title
  simp [this, traceNames]

theorem traces_listItem (checked : Option Bool) (children : List Html.Node) :
    traces [listItem checked children] = traces children := by
  cases checked with
  | none => exact traces_element plain_nil _
  | some c =>
    rw [listItem, traces_element (by simp [traceNames]), checkbox, traces_append, traces_cons, traces_element]
    · rfl
    · cases c <;> simp [traceNames]

theorem plain_list (ordered : Bool) (start : Option Nat) (tasks : Bool) :
    Plain (listStart ordered start ++ if tasks then [("class", .tokens ["contains-task-list"])] else []) := by
  rw [plain_append, listStart]
  constructor
  · cases start.filter fun n => ordered && n ≠ 1 <;> simp [traceNames]
  · cases tasks <;> simp [traceNames]

theorem plain_alignment (align : Option (Option Markdown.Align)) : Plain (alignment align) := by
  unfold alignment
  split <;> simp [traceNames]

/-- Around their children branches add nothing that has to do with footnotes. -/
theorem rendersTo_wrap {kind : Markdown.Branch} (markdown : List Markdown.Node) (children : List Html.Node)
    (h : wraps kind = true) :
    RendersTo id (traces children) (wrap kind markdown children) [] := by
  refine .ask fun c => ?_
  cases kind with
  | root => exact .pure rfl
  | paragraph =>
    refine .pure ?_
    cases c.isTight with
    | true => rfl
    | false => exact traces_element plain_nil _
  | heading depth => exact .pure (traces_element plain_nil _)
  | emphasis => exact .pure (traces_element plain_nil _)
  | strong => exact .pure (traces_element plain_nil _)
  | delete => exact .pure (traces_element plain_nil _)
  | link url title => exact .pure (traces_link ..)
  | linkReference identifier label kind =>
    dsimp only
    cases c.definition? identifier with
    | some d => exact .pure (traces_link ..)
    | none => exact .pure rfl
  | blockquote => exact .pure (traces_element plain_nil _)
  | list ordered start spread => exact .pure (traces_element (plain_list _ _ _) _)
  | listItem spread checked => exact .pure (traces_listItem ..)
  | table | tableRow | tableCell | footnoteDefinition => cases h

theorem traces_take_drop (k : Nat) (ns : List Html.Node) : traces (ns.take k) ++ traces (ns.drop k) = traces ns := by
  rw [← traces_append, List.take_append_drop]

theorem traces_table (headed : Bool) (rows : List Html.Node) : traces [table headed rows] = traces rows := by
  have body : ∀ ns, traces (if ns.isEmpty then [] else [element "tbody" [] ns]) = traces ns := by
    intro ns
    cases ns with
    | nil => rfl
    | cons n ns => exact traces_element plain_nil _
  rw [table, traces_element plain_nil, traces_append, body]
  cases headed with
  | false => rfl
  | true =>
    rw [if_pos rfl, if_pos rfl, traces_element plain_nil]
    exact traces_take_drop 1 rows

/-! #### Texts -/

/-- A text without markup is not mixed. -/
theorem rendersTo_text {α : Type} {nodes : α → List Html.Node} {ns : List Markdown.Node} {ids ids' : List String}
    {step : Bool → Render (List Slot)} {next : List Html.Node → Render α}
    (h : NoHtml (Markdown.Node.leavesAll ns)) (each : RendersTo slotNodes [] (step false) ids)
    (hnext : ∀ content, RendersTo nodes (traces content) (next content) ids') :
    RendersTo nodes [] (text ns step next) (ids ++ ids') := by
  refine .ask fun c => ?_
  rw [isMixed_eq_false h, Bool.and_false]
  exact each.bind fun ss => hnext _

/-! #### Trees -/

mutual

/-- Without markup a node is rendered to nodes that have the links of its references and no other trace. -/
theorem rendersTo_node (n : Markdown.Node) (h : NoHtml n.leaves) : RendersTo id [] (renderNode n) (references n) := by
  match n, h with
  | .leaf l p, h =>
    rw [renderNode]
    exact rendersTo_leaf l p h
  | .branch kind p children, h =>
    rw [Markdown.Node.leaves] at h
    have each := rendersTo_each children h
    have around (kind : Markdown.Branch) (hw : wraps kind = true) :
        RendersTo id [] (text children (renderEach · children) (wrap kind children)) (allReferences children) := by
      rw [← List.append_nil (allReferences children)]
      exact rendersTo_text h each fun content => rendersTo_wrap children content hw
    cases kind with
    | footnoteDefinition =>
      rw [renderNode, references]
      exact .pure rfl
    | tableRow =>
      rw [renderNode, references]
      exact .warn (.pure rfl)
    | tableCell =>
      rw [renderNode, references]
      exact .warn (.pure rfl)
    | table align =>
      rw [renderNode_table, references, ← List.append_nil (rowReferences children)]
      exact (rendersTo_rows children h align true).bind fun rows => .pure (traces_table ..)
    | list ordered start spread =>
      simp only [renderNode_list, references]
      rw [← List.append_nil (allReferences children)]
      exact rendersTo_text h (each.within _) fun content =>
        rendersTo_wrap children content rfl
    | _ =>
      simp only [renderNode, references]
      exact around _ rfl

theorem rendersTo_each (ns : List Markdown.Node) (h : NoHtml (Markdown.Node.leavesAll ns)) :
    RendersTo slotNodes [] (renderEach false ns) (allReferences ns) := by
  match ns, h with
  | [], _ =>
    rw [renderEach, allReferences]
    exact .pure rfl
  | n :: ns, h =>
    obtain ⟨hn, hns⟩ := h.of_append
    rw [renderEach_cons, allReferences]
    have first : RendersTo (fun s => slotNodes [s]) [] (Slot.rendered <$> renderNode n) (references n) :=
      (rendersTo_node n hn).map fun ns => by simp [slotNodes, combine]
    refine first.bind fun s => (rendersTo_each ns hns).behind fun ss => ?_
    rw [← traces_append]
    simp [slotNodes, combine]

theorem rendersTo_rows (rows : List Markdown.Node) (h : NoHtml (Markdown.Node.leavesAll rows))
    (align : List (Option Markdown.Align)) (first : Bool) :
    RendersTo id [] (renderRows align first rows) (rowReferences rows) := by
  match rows, h with
  | [], _ =>
    rw [renderRows, rowReferences]
    exact .pure rfl
  | .leaf .. :: rows, h =>
    simp only [renderRows, rowReferences]
    exact rendersTo_rows rows h.of_append.2 align false
  | .branch kind p cells :: rows, h =>
    obtain ⟨hcells, hrows⟩ := h.of_append
    rw [Markdown.Node.leaves] at hcells
    have rest := rendersTo_rows rows hrows align false
    cases kind with
    | tableRow =>
      rw [renderRows, rowReferences]
      refine ((rendersTo_cells cells hcells align).within _).bind fun cs => rest.behind fun rows => ?_
      rw [id, traces_cons, traces_element plain_nil]
      rfl
    | _ =>
      simp only [renderRows, rowReferences]
      exact rest

theorem rendersTo_cells (cells : List Markdown.Node) (h : NoHtml (Markdown.Node.leavesAll cells))
    (align : List (Option Markdown.Align)) :
    RendersTo id [] (renderCells align cells) (cellReferences cells) := by
  match cells, h with
  | [], _ =>
    rw [renderCells, cellReferences]
    exact .pure rfl
  | .leaf .. :: cells, h =>
    simp only [renderCells, cellReferences]
    exact rendersTo_cells cells h.of_append.2 _
  | .branch kind p children :: cells, h =>
    obtain ⟨hchildren, hcells⟩ := h.of_append
    rw [Markdown.Node.leaves] at hchildren
    have rest := rendersTo_cells cells hcells
    cases kind with
    | tableCell =>
      rw [renderCells_cons, cellReferences]
      refine .ask fun c => rendersTo_text hchildren (rendersTo_each children hchildren) fun content =>
        (rest _).behind fun cs => ?_
      rw [id, traces_cons, traces_element (plain_alignment _)]
      rfl
    | _ =>
      simp only [renderCells, cellReferences]
      exact rest _

end

theorem rendersTo_children {ns : List Markdown.Node} (h : NoHtml (Markdown.Node.leavesAll ns)) :
    RendersTo id [] (renderChildren ns) (allReferences ns) := by
  unfold renderChildren
  refine .ask fun c => ?_
  rw [isMixed_eq_false h, Bool.and_false]
  exact (rendersTo_each ns h).map fun _ => rfl

/-- Rendered siblings without markup have the links of the tally of their references. -/
theorem traces_renderChildren {ns : List Markdown.Node} (h : NoHtml (Markdown.Node.leavesAll ns)) (c : Context) :
    traces ((renderChildren ns).run c).value.1 = (c.tally (allReferences ns)).1 := (rendersTo_children h c).1

theorem state_renderChildren {ns : List Markdown.Node} (h : NoHtml (Markdown.Node.leavesAll ns)) (c : Context) :
    ((renderChildren ns).run c).value.2 = (c.tally (allReferences ns)).2 := (rendersTo_children h c).2

end Folio.Rendering
