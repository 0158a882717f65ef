import Folio.Proofs.Fences
import Folio.Proofs.Rendering.Definitions

/-!
# The text of a page

`pageText` is the text that a page should show for a tree: the texts and the code in order, a line break for each hard
break, a blank for the box of each task, and the alternative text of each image whose reference has no definition.
Without markup, formulas and footnotes, and with tables of rows of cells, the page shows this text and no other
(`textContent_render`).
-/

namespace Folio.Rendering

open Html

/-! ### Prose -/

/-- Is a leaf neither markup nor a formula nor a reference to a footnote? -/
def isProse : Markdown.Leaf → Bool
  | .html _ | .inlineMath _ | .math .. | .footnoteReference .. => false
  | _ => true

mutual

/-- Do rows and cells stand in tables only, and nothing else in these? There is no definition of a footnote. -/
def isRegular : Markdown.Node → Bool
  | .leaf .. => true
  | .branch (.footnoteDefinition ..) _ _ | .branch .tableRow _ _ | .branch .tableCell _ _ => false
  | .branch (.table _) _ rows => areRows rows
  | .branch _ _ children => allRegular children

/-- Are trees regular? -/
def allRegular : List Markdown.Node → Bool
  | [] => true
  | n :: ns => isRegular n && allRegular ns

/-- Are these rows of cells? -/
def areRows : List Markdown.Node → Bool
  | [] => true
  | .branch .tableRow _ cells :: rows => areCells cells && areRows rows
  | _ :: _ => false

/-- Are these cells with regular content? -/
def areCells : List Markdown.Node → Bool
  | [] => true
  | .branch .tableCell _ children :: cells => allRegular children && areCells cells
  | _ :: _ => false

end

/-- The text of a leaf, given which identifiers are defined. -/
def leafText (defined : String → Bool) : Markdown.Leaf → String
  | .text value | .inlineCode value => value
  | .code value _ _ => if value = "" then "" else value ++ "\n"
  | .hardBreak => "\n"
  | .imageReference alt identifier _ _ => if defined identifier then "" else alt
  | _ => ""

/-- The text in front of the content of a branch: the box of a task is a blank. -/
def boxText : Markdown.Branch → String
  | .listItem _ (some _) => " "
  | _ => ""

mutual

/-- The text of a tree. -/
def pageText (defined : String → Bool) : Markdown.Node → String
  | .leaf l _ => leafText defined l
  | .branch kind _ children => boxText kind ++ allPageText defined children

/-- The text of trees. -/
def allPageText (defined : String → Bool) : List Markdown.Node → String
  | [] => ""
  | n :: ns => pageText defined n ++ allPageText defined ns

end

mutual

/-- In a regular tree nothing stands in a footnote. -/
theorem outerLeaves_of_isRegular {n : Markdown.Node} (h : isRegular n = true) : outerLeaves n = n.leaves := by
  match n, h with
  | .leaf .., _ => rfl
  | .branch kind p children, h =>
    rw [Markdown.Node.leaves]
    cases kind with
    | footnoteDefinition | tableRow | tableCell => cases h
    | table align =>
      rw [isRegular] at h
      exact allOuterLeaves_of_areRows h
    | _ =>
      simp only [isRegular] at h
      exact allOuterLeaves_of_allRegular h

theorem allOuterLeaves_of_allRegular {ns : List Markdown.Node} (h : allRegular ns = true) :
    allOuterLeaves ns = Markdown.Node.leavesAll ns := by
  match ns, h with
  | [], _ => rfl
  | n :: ns, h =>
    obtain ⟨hn, hns⟩ := Bool.and_eq_true_iff.1 h
    rw [allOuterLeaves, Markdown.Node.leavesAll, outerLeaves_of_isRegular hn, allOuterLeaves_of_allRegular hns]

theorem allOuterLeaves_of_areRows {rows : List Markdown.Node} (h : areRows rows = true) :
    allOuterLeaves rows = Markdown.Node.leavesAll rows := by
  match rows, h with
  | [], _ => rfl
  | .branch .tableRow p cells :: rows, h =>
    obtain ⟨hcells, hrows⟩ := Bool.and_eq_true_iff.1 h
    exact congrArg₂ (· ++ ·) (allOuterLeaves_of_areCells hcells) (allOuterLeaves_of_areRows hrows)

theorem allOuterLeaves_of_areCells {cells : List Markdown.Node} (h : areCells cells = true) :
    allOuterLeaves cells = Markdown.Node.leavesAll cells := by
  match cells, h with
  | [], _ => rfl
  | .branch .tableCell p children :: cells, h =>
    obtain ⟨hchildren, hcells⟩ := Bool.and_eq_true_iff.1 h
    exact congrArg₂ (· ++ ·) (allOuterLeaves_of_allRegular hchildren) (allOuterLeaves_of_areCells hcells)

end

/-! ### Texts of forests -/

/-- The texts of a forest, put together. -/
def content (ns : List Html.Node) : String := Node.joined (Node.textsAll ns)

theorem content_nil : content [] = "" := rfl

theorem content_text (s : String) : content [.text s] = s := String.empty_append

theorem content_append (ns ms : List Html.Node) : content (ns ++ ms) = content ns ++ content ms := by
  rw [content, Node.textsAll_eq_flatMap, List.flatMap_append, ← Node.textsAll_eq_flatMap, ← Node.textsAll_eq_flatMap,
    String.ext_iff, String.toList_append, content, content, Node.toList_joined, Node.toList_joined,
    Node.toList_joined, List.flatMap_append]

theorem content_cons (n : Html.Node) (ns : List Html.Node) : content (n :: ns) = content [n] ++ content ns :=
  content_append [n] ns

@[simp] theorem content_element (tag : String) (es : List (String × PropertyValue)) (ns : List Html.Node) :
    content [element tag es ns] = content ns := by
  rw [content, element, Node.textsAll, Node.texts, Node.textsAll, List.append_nil, content]

theorem content_codeBlock (value : String) (lang : Option String) :
    content [codeBlock value lang] = if value = "" then "" else value ++ "\n" := by
  rw [codeBlock, content_element, content_element, content_text]
  by_cases empty : value = "" <;> simp [empty]

theorem content_listItem (spread : Bool) (checked : Option Bool) (ns : List Html.Node) :
    content [listItem checked ns] = boxText (.listItem spread checked) ++ content ns := by
  cases checked with
  | none => exact (content_element ..).trans String.empty_append.symm
  | some c =>
    rw [listItem, content_element, content_append, checkbox, content_cons, content_element, content_nil, content_text,
      String.empty_append]
    rfl

theorem content_table (headed : Bool) (rows : List Html.Node) : content [table headed rows] = content rows := by
  have body (ns : List Html.Node) : content (if ns.isEmpty then [] else [element "tbody" [] ns]) = content ns := by
    cases ns with
    | nil => rfl
    | cons n ns => exact content_element ..
  rw [table, content_element, content_append, body]
  cases headed with
  | false => exact String.empty_append
  | true =>
    rw [if_pos rfl, if_pos rfl, content_element, ← content_append, List.take_append_drop]

/-! ### Steps that know definitions -/

/-- From a state that knows some definitions a step gives what has a property, and it keeps the definitions. -/
def Gives {α : Type} (ds : List (String × Definition)) (P : α → Prop) (step : Render α) : Prop :=
  ∀ c : Context, c.definitions = ds → P (step.run c).value.1 ∧ (step.run c).value.2.definitions = ds

namespace Gives

variable {α β : Type} {ds : List (String × Definition)} {P : α → Prop} {Q : β → Prop} {step : Render α}

theorem pure {a : α} (h : P a) : Gives ds P (pure a) := fun _ hc => ⟨h, hc⟩

theorem bind {next : α → Render β} (h : Gives ds P step) (hnext : ∀ a, P a → Gives ds Q (next a)) :
    Gives ds Q (step >>= next) := by
  intro c hc
  obtain ⟨first, kept⟩ := h c hc
  exact hnext _ first _ kept

theorem ask {next : Context → Render β} (h : ∀ c, c.definitions = ds → Gives ds Q (next c)) :
    Gives ds Q (get >>= next) := fun c hc => h c hc c hc

theorem map {f : α → β} (h : Gives ds P step) (hf : ∀ a, P a → Q (f a)) : Gives ds Q (f <$> step) := by
  intro c hc
  obtain ⟨first, kept⟩ := h c hc
  exact ⟨hf _ first, kept⟩

theorem within (scope : Scope) (h : Gives ds P step) : Gives ds P (within scope step) := by
  intro c hc
  obtain ⟨first, kept⟩ := h (c.enter scope) hc
  have exit (c : Context) : c.exit.2.definitions = c.definitions := by
    obtain ⟨_, scopes, _⟩ := c
    cases scopes <;> rfl
  exact ⟨first, (exit _).trans kept⟩

end Gives

/-! ### Rendering -/

variable {ds : List (String × Definition)}

/-- Is an identifier among some definitions? -/
def isKnown (ds : List (String × Definition)) (identifier : String) : Bool := (ds.lookup (foldCase identifier)).isSome

theorem isSome_definition? {c : Context} (h : c.definitions = ds) (identifier : String) :
    (c.definition? identifier).isSome = isKnown ds identifier := by
  rw [isKnown, ← h]
  rfl

theorem gives_leaf (l : Markdown.Leaf) (h : isProse l = true) :
    Gives ds (content · = leafText (isKnown ds) l) (leaf l) := by
  refine .ask fun c hc => ?_
  cases l with
  | html | inlineMath | math | footnoteReference => cases h
  | imageReference alt identifier label kind =>
    have known := isSome_definition? hc identifier
    dsimp only [leafText]
    rw [← known]
    cases c.definition? identifier with
    | some d => exact .pure (content_element ..)
    | none => exact .pure (content_text alt)
  | text value => exact .pure (content_text value)
  | inlineCode value => exact .pure ((content_element ..).trans (content_text value))
  | hardBreak => exact .pure (by rw [content_cons, content_element, content_text]; rfl)
  | code value lang info => exact .pure (content_codeBlock value lang)
  | image | thematicBreak => exact .pure (content_element ..)
  | definition | yaml | toml => exact .pure rfl

/-- Around their children branches add no text but the blank for the box of a task. -/
theorem gives_wrap {kind : Markdown.Branch} (markdown : List Markdown.Node) (ns : List Html.Node)
    (h : wraps kind = true) : Gives ds (content · = boxText kind ++ content ns) (wrap kind markdown ns) := by
  have around (tag : String) (es : List (String × PropertyValue)) : content [element tag es ns] = "" ++ content ns :=
    (content_element ..).trans String.empty_append.symm
  refine .ask fun c _ => ?_
  cases kind with
  | root => exact .pure String.empty_append.symm
  | paragraph =>
    refine .pure ?_
    cases c.isTight with
    | true => exact String.empty_append.symm
    | false => exact around ..
  | linkReference identifier label kind =>
    dsimp only
    cases c.definition? identifier with
    | some d => exact .pure (around ..)
    | none => exact .pure String.empty_append.symm
  | listItem spread checked => exact .pure (content_listItem ..)
  | table | tableRow | tableCell | footnoteDefinition => cases h
  | _ => exact .pure (around ..)

/-- Are all leaves prose? -/
def AllProse (ls : List Markdown.Leaf) : Prop := ∀ l ∈ ls, isProse l = true

theorem noHtml_of_allProse {ls : List Markdown.Leaf} (h : AllProse ls) : NoHtml ls :=
  fun _ hv => Bool.false_ne_true (h _ hv)

theorem noReferences_of_allProse {ls : List Markdown.Leaf} (h : AllProse ls) : NoReferences ls :=
  fun _ _ hv => Bool.false_ne_true (h _ hv)

theorem gives_text {α : Type} {P : α → Prop} {s : String} {ns : List Markdown.Node}
    {step : Bool → Render (List Slot)} {next : List Html.Node → Render α}
    (h : AllProse (Markdown.Node.leavesAll ns)) (each : Gives ds (fun ss => content (slotNodes ss) = s) (step false))
    (hnext : ∀ ms, content ms = s → Gives ds P (next ms)) : Gives ds P (text ns step next) := by
  refine .ask fun c _ => ?_
  rw [isMixed_eq_false (noHtml_of_allProse h), Bool.and_false]
  exact each.bind fun ss => hnext _

/-! #### Trees -/

mutual

theorem gives_node (n : Markdown.Node) (regular : isRegular n = true) (h : AllProse n.leaves) :
    Gives ds (content · = pageText (isKnown ds) n) (renderNode n) := by
  match n, regular, h with
  | .leaf l p, _, h =>
    rw [renderNode, pageText]
    exact gives_leaf l (h l (List.mem_singleton.2 rfl))
  | .branch kind p children, regular, h =>
    rw [Markdown.Node.leaves] at h
    rw [pageText]
    have around (kind : Markdown.Branch) (hw : wraps kind = true) (ms : List Html.Node)
        (hms : content ms = allPageText (isKnown ds) children) :
        Gives ds (content · = boxText kind ++ allPageText (isKnown ds) children) (wrap kind children ms) :=
      hms ▸ gives_wrap children ms hw
    have plain (kind : Markdown.Branch) (regular : allRegular children = true) (hw : wraps kind = true) :
        Gives ds (content · = boxText kind ++ allPageText (isKnown ds) children)
          (text children (renderEach · children) (wrap kind children)) :=
      gives_text h (gives_each children regular h) (around kind hw)
    cases kind with
    | footnoteDefinition | tableRow | tableCell => cases regular
    | table align =>
      rw [isRegular] at regular
      rw [renderNode_table]
      refine (gives_rows children regular h align true).bind fun rows hrows => .pure ?_
      rw [content_table, hrows]
      exact String.empty_append.symm
    | list ordered start spread =>
      simp only [isRegular] at regular
      rw [renderNode_list]
      exact gives_text h ((gives_each children regular h).within _) (around _ rfl)
    | _ =>
      simp only [isRegular] at regular
      simp only [renderNode]
      exact plain _ regular rfl

theorem gives_each (ns : List Markdown.Node) (regular : allRegular ns = true)
    (h : AllProse (Markdown.Node.leavesAll ns)) :
    Gives ds (fun ss => content (slotNodes ss) = allPageText (isKnown ds) ns) (renderEach false ns) := by
  match ns, regular, h with
  | [], _, _ =>
    rw [renderEach]
    exact .pure rfl
  | n :: ns, regular, h =>
    obtain ⟨hn, hns⟩ := Bool.and_eq_true_iff.1 regular
    obtain ⟨ln, lns⟩ := List.forall_mem_append.1 h
    rw [renderEach_cons, allPageText]
    have first : Gives ds (fun s => content (slotNodes [s]) = pageText (isKnown ds) n) (renderPart false n) :=
      (gives_node n hn ln).map fun ms hms => by simpa [slotNodes, combine] using hms
    refine first.bind fun s hs => (gives_each ns hns lns).bind fun ss hss => .pure ?_
    rw [← hs, ← hss, ← content_append]
    simp [slotNodes, combine]

theorem gives_rows (rows : List Markdown.Node) (regular : areRows rows = true)
    (h : AllProse (Markdown.Node.leavesAll rows)) (align : List (Option Markdown.Align)) (first : Bool) :
    Gives ds (content · = allPageText (isKnown ds) rows) (renderRows align first rows) := by
  match rows, regular, h with
  | [], _, _ =>
    rw [renderRows]
    exact .pure rfl
  | .branch .tableRow p cells :: rows, regular, h =>
    obtain ⟨hcells, hrows⟩ := Bool.and_eq_true_iff.1 regular
    obtain ⟨lcells, lrows⟩ := List.forall_mem_append.1 h
    rw [renderRows, allPageText, pageText]
    refine ((gives_cells cells hcells lcells align).within _).bind fun cs hcs =>
      (gives_rows rows hrows lrows align false).bind fun rest hrest => .pure ?_
    rw [content_cons, content_element, hcs, hrest, boxText, String.empty_append]
    exact nofun

theorem gives_cells (cells : List Markdown.Node) (regular : areCells cells = true)
    (h : AllProse (Markdown.Node.leavesAll cells)) (align : List (Option Markdown.Align)) :
    Gives ds (content · = allPageText (isKnown ds) cells) (renderCells align cells) := by
  match cells, regular, h with
  | [], _, _ =>
    rw [renderCells]
    exact .pure rfl
  | .branch .tableCell p children :: cells, regular, h =>
    obtain ⟨hchildren, hcells⟩ := Bool.and_eq_true_iff.1 regular
    obtain ⟨lchildren, lcells⟩ := List.forall_mem_append.1 h
    rw [renderCells_cons, allPageText, pageText]
    refine .ask fun c _ => gives_text lchildren (gives_each children hchildren lchildren) fun ms hms =>
      (gives_cells cells hcells lcells _).bind fun rest hrest => .pure ?_
    rw [content_cons, content_element, hms, hrest, boxText, String.empty_append]
    exact nofun

end

/-! ### Pages -/

/-- The text of a page is that of its document: nothing is lost, added, doubled or moved. -/
theorem textContent_render (options : Options) (p : Option Markdown.Position) (body : List Markdown.Node)
    (prose : AllProse (Markdown.Node.leavesAll body)) (regular : allRegular body = true) :
    (render options (.branch .root p body)).value.textContent =
      allPageText (fun identifier => (definition? body identifier).isSome) body := by
  have page : (render options (.branch .root p body)).value.textContent =
      content (render options (.branch .root p body)).value.children := rfl
  have known : isKnown (start options p body).definitions = fun identifier => (definition? body identifier).isSome := by
    funext identifier
    rw [isKnown, lookup_definitions_start, outerDefinition?, allOuterLeaves_of_allRegular regular]
    rfl
  have step : Gives (start options p body).definitions
      (content · = allPageText (isKnown (start options p body).definitions) body) (renderChildren body) := by
    refine .ask fun c _ => ?_
    rw [isMixed_eq_false (noHtml_of_allProse prose), Bool.and_false]
    exact (gives_each body regular prose).map fun _ hss => hss
  rw [page, render_children_of_noReferences (noHtml_of_allProse prose) (noReferences_of_allProse prose), ← known]
  exact (step _ rfl).1

/-- A document with a table, a task that has code in it, and two images, one of which is defined behind it. -/
def stockList : List Markdown.Node :=
  [.branch (.table [none]) none [.branch .tableRow none [.branch .tableCell none [.leaf (.text "Item") none]],
      .branch .tableRow none [.branch .tableCell none [.leaf (.inlineCode "nut") none]]],
    .branch (.list false none false) none [.branch (.listItem false (some true)) none
      [.branch .paragraph none [.branch .emphasis none [.leaf (.text "buy") none], .leaf .hardBreak none],
        .leaf (.code "nut 3" none none) none]],
    .branch .paragraph none [.leaf (.imageReference "photo" "Nut" none .shortcut) none,
      .leaf (.imageReference "sketch" "bolt" none .shortcut) none],
    .leaf (.definition "nut.png" none "nut" none) none]

theorem textContent_render_stockList :
    AllProse (Markdown.Node.leavesAll stockList) ∧ allRegular stockList = true ∧
      (render {} (.branch .root none stockList)).value.textContent = "Itemnut buy\nnut 3\nsketch" := by
  have prose : AllProse (Markdown.Node.leavesAll stockList) := by
    simp [AllProse, stockList, Markdown.Node.leavesAll, Markdown.Node.leaves, isProse]
  have regular : allRegular stockList = true := by decide
  have shown : allPageText (fun identifier => (definition? stockList identifier).isSome) stockList =
      "Itemnut buy\nnut 3\nsketch" := by decide +kernel
  exact ⟨prose, regular, (textContent_render {} none stockList prose regular).trans shown⟩

end Folio.Rendering
