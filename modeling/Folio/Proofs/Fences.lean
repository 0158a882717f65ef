import Folio.Proofs.Footnote.Page
import Folio.Proofs.Highlighting.Frame
import Folio.Proofs.Html.Blocks
import Folio.Proofs.Html.Roots

/-!
# From fences to the highlighter

Without markup of its own a document is rendered to blocks that are those of its leaves of code (`draws_node`), and no
block comes into a heading unless a leaf of code stands below one. The headings then get their ids and links without
touching a block, and the highlighter is asked once for each leaf of code that names its language, for the value of
this leaf and a line break behind it (`calls_htmlSteps_fences`).
-/

namespace Folio.Rendering

open Html CodeBlock

/-! ### Leaves of code -/

mutual

/-- The leaves of a tree that stand below headings. -/
def headingLeaves : Markdown.Node → List Markdown.Leaf
  | .leaf .. => []
  | .branch (.heading _) _ children => Markdown.Node.leavesAll children
  | .branch _ _ children => allHeadingLeaves children

/-- The leaves of trees that stand below headings. -/
def allHeadingLeaves : List Markdown.Node → List Markdown.Leaf
  | [] => []
  | n :: ns => headingLeaves n ++ allHeadingLeaves ns

end

/-- The block of a leaf of code. -/
def block? : Markdown.Leaf → Option Element
  | .code value lang _ => (codeBlock value lang).element?
  | _ => none

/-- What is asked for a leaf of code that names its language: its value, with the last line ended. -/
def fence? : Markdown.Leaf → Option HighlightCall
  | .code value (some lang) _ => if lang = "" then none else some ⟨if value = "" then "" else value ++ "\n", lang⟩
  | _ => none

/-- There is no leaf of code among the leaves. -/
def NoCode (ls : List Markdown.Leaf) : Prop := ∀ value lang info, .code value lang info ∉ ls

theorem NoCode.of_append {ls ls' : List Markdown.Leaf} (h : NoCode (ls ++ ls')) : NoCode ls ∧ NoCode ls' :=
  ⟨fun v lang info hv => h v lang info (List.mem_append_left _ hv),
    fun v lang info hv => h v lang info (List.mem_append_right _ hv)⟩

theorem filterMap_block?_of_noCode {ls : List Markdown.Leaf} (h : NoCode ls) : ls.filterMap block? = [] := by
  rw [List.filterMap_eq_nil_iff]
  intro l hl
  cases l with
  | code value lang info => exact absurd hl (h value lang info)
  | _ => rfl

/-! ### Blocks of a rendering -/

/-- Elements of the tag are neither blocks of code nor headings. -/
def IsNeutral (tag : String) : Prop := tag ≠ "pre" ∧ Element.headingLevel? ⟨tag, .empty, []⟩ = none

instance : DecidablePred IsNeutral := fun _ => inferInstanceAs (Decidable (_ ∧ _))

/-- Nodes with the blocks of some leaves and no others. If there is no code among other leaves, the ones below headings,
then no block stands in a heading. -/
structure Draws (ls below : List Markdown.Leaf) (ns : List Html.Node) : Prop where
  blocks : blockElements ns = ls.filterMap block?
  outside : NoCode below → ∀ e ∈ Node.elementsAll ns, e.headingLevel?.isSome → blockElements e.children = []

namespace Draws

variable {l : Markdown.Leaf} {ls ls' below below' : List Markdown.Leaf} {tag : String}
  {es : List (String × PropertyValue)} {ns ms : List Html.Node}

theorem nil : Draws [] [] [] := ⟨rfl, fun _ => List.forall_mem_nil _⟩

theorem append (h : Draws ls below ns) (h' : Draws ls' below' ms) : Draws (ls ++ ls') (below ++ below') (ns ++ ms) where
  blocks := by rw [blockElements_append, h.blocks, h'.blocks, List.filterMap_append]
  outside free := by
    obtain ⟨first, second⟩ := free.of_append
    rw [Node.elementsAll_append]
    exact List.forall_mem_append.2 ⟨h.outside first, h'.outside second⟩

/-- Leaves that are not rendered may be added to the ones below headings. -/
theorem behind (h : Draws ls below ns) : Draws ls (below' ++ below) ns :=
  ⟨h.blocks, fun free => h.outside free.of_append.2⟩

/-- The nodes of a leaf without a block of its own, given by the tags of their elements. -/
theorem of_tags (hl : block? l = none) (tags : List String) (eq : (Node.elementsAll ns).map (·.tag) = tags)
    (neutral : ∀ tag ∈ tags, IsNeutral tag) : Draws [l] [] ns := by
  subst eq
  rw [List.forall_mem_map] at neutral
  constructor
  · rw [List.filterMap_cons_none hl, List.filterMap_nil, blockElements, List.filter_eq_nil_iff]
    exact fun e he pre => (neutral e he).1 (of_decide_eq_true pre)
  · intro _ e he heading
    have plain : e.headingLevel? = none := (neutral e he).2
    rw [plain] at heading
    cases heading

/-- An element that is neither a block nor a heading adds no block around some of the nodes. -/
theorem around_part (neutral : IsNeutral tag) (front ms : List Html.Node) (h : Draws ls below (front ++ ns ++ ms)) :
    Draws ls below (front ++ [element tag es ns] ++ ms) where
  blocks := by
    rw [← h.blocks]
    simp only [blockElements_append, element, blockElements_element neutral.1]
  outside free := by
    have outside := h.outside free
    have plain : Element.headingLevel? ⟨tag, Properties.ofList es, ns⟩ = none := neutral.2
    rw [Node.elementsAll_append, Node.elementsAll_append, List.forall_mem_append, List.forall_mem_append] at outside ⊢
    obtain ⟨⟨before, inside⟩, after⟩ := outside
    refine ⟨⟨before, ?_⟩, after⟩
    rw [element, Node.elementsAll, Node.elements, Node.elementsAll, List.append_nil, List.forall_mem_cons]
    exact ⟨fun heading => absurd heading (by simp [plain]), inside⟩

theorem around (neutral : IsNeutral tag) (h : Draws ls below ns) : Draws ls below [element tag es ns] :=
  around_part neutral [] [] (by simpa using h)

/-- A heading has no block in it if there is no code among the leaves that are rendered in it. -/
theorem heading (ht : tag ≠ "pre") (h : Draws ls below ns) (sub : ∀ l ∈ ls, l ∈ below') :
    Draws ls below' [element tag es ns] where
  blocks := (blockElements_element ht _ _).trans h.blocks
  outside free := by
    have none : blockElements ns = [] := by
      rw [h.blocks]
      exact filterMap_block?_of_noCode fun v lang info hl => free v lang info (sub _ hl)
    rw [element, Node.elementsAll, Node.elements, Node.elementsAll, List.append_nil, List.forall_mem_cons]
    exact ⟨fun _ => none, fun e he _ => blockElements_children_eq_nil he none⟩

end Draws

theorem draws_codeBlock (value : String) (lang info : Option String) :
    Draws [.code value lang info] [] [codeBlock value lang] where
  blocks := rfl
  outside _ := by
    rw [codeBlock, element, element]
    exact List.forall_mem_cons.2 ⟨fun heading => absurd heading Bool.false_ne_true,
      List.forall_mem_singleton.2 fun heading => absurd heading Bool.false_ne_true⟩

/-! ### Rendering -/

theorem draws_leaf (l : Markdown.Leaf) (h : NoHtml [l]) : Yields (Draws [l] []) (leaf l) := by
  unfold leaf
  cases l with
  | html v => exact absurd (List.mem_singleton.2 rfl) (h v)
  | footnoteReference identifier label =>
    exact .ask fun c => .behind _ fun _ => .pure (.of_tags rfl ["sup", "a"] rfl (by decide))
  | image url alt title => exact .ask fun c => .pure (.of_tags rfl ["img"] rfl (by decide))
  | imageReference alt identifier label kind =>
    refine .ask fun c => ?_
    dsimp only
    cases c.definition? identifier with
    | some d => exact .pure (.of_tags rfl ["img"] rfl (by decide))
    | none => exact .pure (.of_tags rfl [] rfl (by decide))
  | code value lang info => exact .ask fun c => .pure (draws_codeBlock value lang info)
  | inlineMath v => exact .ask fun c => .behind _ fun _ => .pure (.of_tags rfl [] rfl (by decide))
  | math v info => exact .ask fun c => .behind _ fun _ => .pure (.of_tags rfl [] rfl (by decide))
  | inlineCode v => exact .ask fun c => .pure (.of_tags rfl ["code"] rfl (by decide))
  | hardBreak => exact .ask fun c => .pure (.of_tags rfl ["br"] rfl (by decide))
  | thematicBreak => exact .ask fun c => .pure (.of_tags rfl ["hr"] rfl (by decide))
  | text v => exact .ask fun c => .pure (.of_tags rfl [] rfl (by decide))
  | definition url title identifier label => exact .ask fun c => .pure (.of_tags rfl [] rfl (by decide))
  | yaml v => exact .ask fun c => .pure (.of_tags rfl [] rfl (by decide))
  | toml v => exact .ask fun c => .pure (.of_tags rfl [] rfl (by decide))

section

variable {ls below : List Markdown.Leaf} {children : List Html.Node}

theorem draws_listItem (checked : Option Bool) (h : Draws ls below children) :
    Draws ls below [listItem checked children] := by
  cases checked with
  | none => exact h.around (by decide)
  | some c =>
    have box : Draws [] [] (checkbox c) := ⟨rfl, fun _ => List.forall_mem_singleton.2 nofun⟩
    exact (box.append h).around (by decide)

/-- The tag of a heading. -/
theorem heading_ne_pre (s : String) : "h" ++ s ≠ "pre" := by
  intro eq
  have first := congrArg (fun t => t.toList.head?) eq
  simp at first

/-- Around their children branches add no block. -/
theorem draws_wrap {kind : Markdown.Branch} (markdown : List Markdown.Node) (h : Draws ls below children)
    (plain : ∀ depth, kind ≠ .heading depth) (hw : wraps kind = true) :
    Yields (Draws ls below) (wrap kind markdown children) := by
  refine .ask fun c => ?_
  cases kind with
  | root => exact .pure h
  | paragraph =>
    refine .pure ?_
    cases c.isTight with
    | true => exact h
    | false => exact h.around (by decide)
  | heading depth => exact absurd rfl (plain depth)
  | emphasis => exact .pure (h.around (by decide))
  | strong => exact .pure (h.around (by decide))
  | delete => exact .pure (h.around (by decide))
  | link url title => exact .pure (h.around (by decide))
  | linkReference identifier label kind =>
    dsimp only
    cases c.definition? identifier with
    | some d => exact .pure (h.around (by decide))
    | none => exact .pure h
  | blockquote => exact .pure (h.around (by decide))
  | list ordered start spread =>
    cases ordered with
    | true => exact .pure (h.around (by decide))
    | false => exact .pure (h.around (by decide))
  | listItem spread checked => exact .pure (draws_listItem checked h)
  | table | tableRow | tableCell | footnoteDefinition => cases hw

theorem draws_table (headed : Bool) {rows : List Html.Node} (h : Draws ls below rows) :
    Draws ls below [table headed rows] := by
  have tbody (front : List Html.Node) {rows : List Html.Node} (h : Draws ls below (front ++ rows)) :
      Draws ls below (front ++ if rows.isEmpty then [] else [element "tbody" [] rows]) := by
    cases rows with
    | nil => exact h
    | cons row rows => simpa using Draws.around_part (by decide) front [] (by simpa using h)
  cases headed with
  | false => exact (tbody [] h).around (by decide)
  | true =>
    have split : Draws ls below (rows.take 1 ++ rows.drop 1) := by rwa [List.take_append_drop]
    exact (Draws.around_part (by decide) [] _ (tbody _ split)).around (by decide)

end

/-! #### Trees -/

/-- A text without markup is not mixed. -/
theorem draws_text {α : Type} {P : α → Prop} {ls below : List Markdown.Leaf} {ns : List Markdown.Node}
    {step : Bool → Render (List Slot)} {next : List Html.Node → Render α}
    (h : NoHtml (Markdown.Node.leavesAll ns)) (each : Yields (Draws ls below <| slotNodes ·) (step false))
    (hnext : ∀ content, Draws ls below content → Yields P (next content)) : Yields P (text ns step next) := by
  refine .ask fun c => ?_
  rw [isMixed_eq_false h, Bool.and_false]
  exact each.bind fun ss => hnext _

mutual

/-- Without markup a node is rendered to nodes with the blocks of its leaves of code and no others. -/
theorem draws_node (n : Markdown.Node) (h : NoHtml n.leaves) :
    Yields (Draws (renderedLeaves n) (headingLeaves n)) (renderNode n) := by
  match n, h with
  | .leaf l p, h =>
    rw [renderNode]
    exact draws_leaf l h
  | .branch kind p children, h =>
    rw [Markdown.Node.leaves] at h
    have each := draws_each children h
    have around (kind : Markdown.Branch) (plain : ∀ depth, kind ≠ .heading depth) (hw : wraps kind = true) :
        Yields (Draws (allRenderedLeaves children) (allHeadingLeaves children))
          (text children (renderEach · children) (wrap kind children)) :=
      draws_text h each fun content hcontent => draws_wrap children hcontent plain hw
    cases kind with
    | footnoteDefinition =>
      rw [renderNode, renderedLeaves]
      exact .pure ⟨rfl, fun _ => List.forall_mem_nil _⟩
    | tableRow =>
      rw [renderNode, renderedLeaves]
      exact .behind _ fun _ => .pure ⟨rfl, fun _ => List.forall_mem_nil _⟩
    | tableCell =>
      rw [renderNode, renderedLeaves]
      exact .behind _ fun _ => .pure ⟨rfl, fun _ => List.forall_mem_nil _⟩
    | heading depth =>
      simp only [renderNode, renderedLeaves, headingLeaves]
      change Yields _ (text children (renderEach · children) (wrap (.heading depth) children))
      refine draws_text h each fun content hcontent => .ask fun c => .pure ?_
      exact hcontent.heading (heading_ne_pre _) fun l hl => leaf_of_allRenderedLeaves hl
    | table align =>
      rw [renderNode_table, renderedLeaves, headingLeaves]
      · exact (draws_rows children h align true).bind fun rows hrows => .pure (draws_table _ hrows)
      · exact nofun
    | list ordered start spread =>
      simp only [renderNode_list, renderedLeaves, headingLeaves]
      exact draws_text h (each.within _) fun content hcontent =>
        draws_wrap children hcontent nofun rfl
    | _ =>
      simp only [renderNode, renderedLeaves, headingLeaves]
      exact around _ nofun rfl

theorem draws_each (ns : List Markdown.Node) (h : NoHtml (Markdown.Node.leavesAll ns)) :
    Yields (Draws (allRenderedLeaves ns) (allHeadingLeaves ns) <| slotNodes ·) (renderEach false ns) := by
  match ns, h with
  | [], _ =>
    rw [renderEach]
    exact .pure .nil
  | n :: ns, h =>
    obtain ⟨hn, hns⟩ := h.of_append
    have first : Yields (Draws (renderedLeaves n) (headingLeaves n) <| slotNodes [·]) (renderPart false n) :=
      (draws_node n hn).map fun ns hns => by simpa [slotNodes, combine] using hns
    rw [renderEach_cons, allRenderedLeaves, allHeadingLeaves]
    refine first.bind fun s hs => (draws_each ns hns).bind fun ss hss => .pure ?_
    simpa [slotNodes, combine] using hs.append hss

theorem draws_rows (rows : List Markdown.Node) (h : NoHtml (Markdown.Node.leavesAll rows))
    (align : List (Option Markdown.Align)) (first : Bool) :
    Yields (Draws (rowLeaves rows) (allHeadingLeaves rows)) (renderRows align first rows) := by
  match rows, h with
  | [], _ =>
    rw [renderRows]
    exact .pure .nil
  | .leaf .. :: rows, h =>
    simp only [renderRows, rowLeaves, allHeadingLeaves]
    exact fun c => (draws_rows rows h.of_append.2 align false c).behind
  | .branch kind p cells :: rows, h =>
    obtain ⟨hcells, hrows⟩ := h.of_append
    rw [Markdown.Node.leaves] at hcells
    have rest := draws_rows rows hrows align false
    cases kind with
    | tableRow =>
      rw [renderRows, rowLeaves, allHeadingLeaves]
      refine ((draws_cells cells hcells align).within _).bind fun cs hcs => rest.bind fun rows hrows => .pure ?_
      exact (hcs.around (by decide)).append hrows
    | _ =>
      simp only [renderRows, rowLeaves, allHeadingLeaves]
      exact fun c => (rest c).behind

theorem draws_cells (cells : List Markdown.Node) (h : NoHtml (Markdown.Node.leavesAll cells))
    (align : List (Option Markdown.Align)) :
    Yields (Draws (cellLeaves cells) (allHeadingLeaves cells)) (renderCells align cells) := by
  match cells, h with
  | [], _ =>
    rw [renderCells]
    exact .pure .nil
  | .leaf .. :: cells, h =>
    simp only [renderCells, cellLeaves, allHeadingLeaves]
    exact fun c => (draws_cells cells h.of_append.2 _ c).behind
  | .branch kind p children :: cells, h =>
    obtain ⟨hchildren, hcells⟩ := h.of_append
    rw [Markdown.Node.leaves] at hchildren
    have rest := draws_cells cells hcells
    cases kind with
    | tableCell =>
      rw [renderCells_cons, cellLeaves, allHeadingLeaves]
      refine .ask fun c => draws_text hchildren (draws_each children hchildren) fun content hcontent => ?_
      refine (rest _).bind fun cs hcs => .pure (Draws.append (hcontent.around ?_) hcs)
      split <;> decide
    | _ =>
      simp only [renderCells, cellLeaves, allHeadingLeaves]
      exact fun c => (rest _ c).behind

end

/-! #### Pages -/

theorem draws_children {ns : List Markdown.Node} (h : NoHtml (Markdown.Node.leavesAll ns)) :
    Yields (Draws (allRenderedLeaves ns) (allHeadingLeaves ns)) (renderChildren ns) := by
  unfold renderChildren
  refine .ask fun c => ?_
  rw [isMixed_eq_false h, Bool.and_false]
  exact (draws_each ns h).map fun _ hss => hss

/-- There is no reference to a footnote among the leaves. -/
def NoReferences (ls : List Markdown.Leaf) : Prop := ∀ identifier label, .footnoteReference identifier label ∉ ls

theorem allReferences_eq_nil {ns : List Markdown.Node} (h : NoReferences (Markdown.Node.leavesAll ns)) :
    allReferences ns = [] := by
  rw [List.eq_nil_iff_forall_not_mem]
  intro x hx
  obtain ⟨label, leaf⟩ := leaf_of_allReferences hx
  exact h x label leaf

variable {options : Options} {p : Option Markdown.Position} {body : List Markdown.Node}

/-- Without references to footnotes nothing comes behind the body. -/
theorem render_children_of_noReferences (html : NoHtml (Markdown.Node.leavesAll body))
    (references : NoReferences (Markdown.Node.leavesAll body)) :
    (render options (.branch .root p body)).value.children =
      ((renderChildren body).run (start options p body)).value.1 := by
  have none := allReferences_eq_nil references
  have listed : foundNotes body = [] := by rw [foundNotes, listedNotes, bodyKeys, none]; rfl
  rw [render_children, state_renderChildren html, run_footnoteSection, takeFootnotes_tally, listed]
  exact List.append_nil _

theorem draws_render (html : NoHtml (Markdown.Node.leavesAll body))
    (references : NoReferences (Markdown.Node.leavesAll body)) :
    Draws (allRenderedLeaves body) (allHeadingLeaves body) (render options (.branch .root p body)).value.children := by
  rw [render_children_of_noReferences html references]
  exact draws_children html _

/-! ### Calls -/

theorem isSimple_of_block? {l : Markdown.Leaf} {e : Element} (h : block? l = some e) : IsSimple e := by
  cases l with
  | code value lang info =>
    obtain rfl := Option.some.inj h
    exact ⟨_, _, rfl⟩
  | _ => cases h

theorem language?_class (language : String) (ns : List Html.Node) :
    language? ⟨"code", Properties.ofList [("class", .tokens ["language-" ++ language])], ns⟩ =
      if language = "" then none else some language := by
  have classes : Element.classes ⟨"code", Properties.ofList [("class", .tokens ["language-" ++ language])], ns⟩ =
      ["language-" ++ language] := rfl
  have rest : Text.stripFront? languagePrefix.toList ("language-" ++ language).toList = some language.toList := by
    rw [Text.stripFront?_eq_some_iff, String.toList_append]
    rfl
  have rests : (["language-" ++ language].filterMap fun c => Text.stripFront? languagePrefix.toList c.toList) =
      [language.toList] := List.filterMap_cons_some rest
  rw [language?, classes, rests]
  by_cases empty : language = ""
  · subst empty
    rfl
  · simp [empty]

/-- A block that names a language is asked for with the text in it. -/
theorem call?_taggedBlock {language : String} (named : language ≠ "") (v : String) :
    call? (taggedBlock v language).children = some ⟨v, language⟩ := by
  have content : Node.joined [v] = v := String.empty_append
  have first : firstCode? (taggedBlock v language).children =
      some ⟨"code", Properties.ofList [("class", .tokens ["language-" ++ language])], [.text v]⟩ := rfl
  rw [call?, first, Option.bind_eq_bind, Option.bind_some, language?_class, if_neg named]
  exact congrArg (fun source => some (HighlightCall.mk source language)) content

theorem codeBlock_some {lang : String} (named : lang ≠ "") (value : String) :
    codeBlock value (some lang) = taggedBlock (if value = "" then "" else value ++ "\n") lang := by
  have source : (if value.isEmpty then value else value ++ "\n") = if value = "" then "" else value ++ "\n" := by
    by_cases empty : value = ""
    · subst empty
      rfl
    · simp [empty]
  rw [codeBlock, source, Option.filter_some, if_pos (by simpa using named)]
  rfl

/-- The call for the block of a leaf of code. -/
theorem call?_block? (l : Markdown.Leaf) : ((block? l).bind fun e => call? e.children) = fence? l := by
  cases l with
  | code value lang info =>
    cases lang with
    | none => rfl
    | some lang =>
      by_cases empty : lang = ""
      · subst empty
        rfl
      · rw [block?, codeBlock_some empty, fence?, if_neg empty]
        exact call?_taggedBlock empty _
  | _ => rfl

namespace Draws

variable {ls below : List Markdown.Leaf} {ns : List Html.Node}

theorem isTidy (h : Draws ls below ns) (free : NoCode below) : IsTidy ns where
  simple e he := by
    rw [h.blocks, List.mem_filterMap] at he
    obtain ⟨l, -, block⟩ := he
    exact isSimple_of_block? block
  outside := h.outside free

theorem calls_eq (h : Draws ls below ns) : calls ns = ls.filterMap fence? := by
  rw [calls_eq_filterMap, h.blocks, List.filterMap_filterMap]
  exact List.filterMap_congr fun l _ => call?_block? l

end Draws

end Folio.Rendering

namespace Folio.Pipeline

open Html CodeBlock Rendering

/-- Every answer is that the language is unsupported, or markup without a block. -/
def AnswersPlainly (h : Highlighter) : Prop := ∀ before c, h before c = .unsupported ∨
  ∃ html, h before c = .markup html ∧ ∀ e ∈ Node.elementsAll (Fragment.parse html), e.tag ≠ "pre"

namespace AnswersPlainly

variable {h : Highlighter}

theorem isBlockless (answers : AnswersPlainly h) : IsBlockless h := by
  intro before c html answer
  rcases answers before c with none | ⟨_, markup, plain⟩
  · cases none.symm.trans answer
  · obtain rfl := Answer.markup.inj (markup.symm.trans answer)
    exact plain

/-- The highlighter that has been asked before answers plainly as well. -/
theorem after {a : Adapter} (answers : AnswersPlainly a.highlighter) (before : List HighlightCall) :
    AnswersPlainly (a.after before).highlighter := fun later c => answers (before ++ later) c

theorem firstFailure? {a : Adapter} (answers : AnswersPlainly a.highlighter) (document : String)
    (before cs : List HighlightCall) : firstFailure? document (exchanges a before cs) = none := by
  induction cs generalizing before with
  | nil => rfl
  | cons c cs ih =>
    have first : (exchange a before c).failure? document = none := by
      unfold Exchange.failure? exchange Adapter.call
      rcases answers before c with none | ⟨html, markup, -⟩
      · rw [none]
      · rw [markup]
    rw [exchanges, CodeBlock.firstFailure?, List.findSome?_cons, first]
    exact ih _

end AnswersPlainly

/-- In a tidy document the highlighter is asked for the blocks in order, and no step up to the highlighting fails. -/
theorem calls_htmlSteps_highlight {a : Adapter} (answers : AnswersPlainly a.highlighter) (f : Option Frontmatter)
    (document : String) (s : Page) {forest : List Node} (tree : s.tree = .root forest) (tidy : IsTidy forest) :
    ∃ page, (htmlSteps (some a) f document s [.headingIds, .headingAnchors, .highlight]).value? = some (page, none) ∧
      page.calls = s.calls ++ calls forest := by
  have blocks := Heading.blockElements_headings tidy
  have apart : IsApart (Heading.injectAnchors (Heading.assign (.root forest)).1).1.children := by
    refine AllSimple.isApart ?_
    rw [AllSimple, blocks]
    exact tidy.simple
  have answers := answers.after s.calls
  obtain ⟨done, ended, asked, outcome⟩ : AsksOnce _ document _ :=
    asksOnce_of_isPlain apart fun x hx => isPlain_exchanges answers.isBlockless [] _ x (mem_of_mem_untilFailure hx)
  have none := answers.firstFailure? document []
  rw [blockExchanges, untilFailure_of_none (none _), map_call_exchanges, calls_eq_filterMap, blocks,
    ← calls_eq_filterMap] at asked
  rw [blockExchanges, outcomeOf, none] at outcome
  have silent : HtmlPass.highlight ∉ [HtmlPass.headingIds, .headingAnchors] := by decide
  have marked : [HtmlPass.headingIds, .headingAnchors].foldlM (advance f document) s = .ok { s with
      tree := (Heading.injectAnchors (Heading.assign (.root forest)).1).1
      headings := (Heading.assign (.root forest)).2 } := by rw [← tree]; rfl
  rw [show [HtmlPass.headingIds, .headingAnchors, .highlight] = [.headingIds, .headingAnchors] ++ [.highlight] from rfl,
    value?_htmlSteps_append, value?_htmlSteps_of_foldlM f document (.inr silent) marked, Option.bind_some]
  simp only [htmlSteps, Course.value?_bind, Course.value?_lift, Option.bind_some]
  rw [htmlStep, value?_highlightStep, ended, Option.map_some, outcome]
  exact ⟨_, rfl, congrArg (s.calls ++ ·) asked⟩

/-- Without markup, footnotes or code in headings, the highlighter is asked for the leaves of code that name their
language, once for each and in document order, if it always answers without a block. -/
theorem calls_htmlSteps_fences (options : Rendering.Options) (a : Adapter) (answers : AnswersPlainly a.highlighter)
    (f : Option Frontmatter) (document : String) (warnings : List Warning) (p : Option Markdown.Position)
    (body : List Markdown.Node) (html : NoHtml (Markdown.Node.leavesAll body))
    (references : NoReferences (Markdown.Node.leavesAll body)) (headings : NoCode (allHeadingLeaves body)) :
    ∃ page, (htmlSteps (some a) f document
        { tree := (Rendering.render options (.branch .root p body)).value, warnings }
        (HtmlPass.all.take (HtmlPass.all.idxOf .highlight + 1))).value? = some (page, none) ∧
      page.calls = (allRenderedLeaves body).filterMap fence? := by
  have drawn : Draws _ _ (Rendering.render options (.branch .root p body)).value.children :=
    draws_render html references
  have passes : HtmlPass.all.take (HtmlPass.all.idxOf .highlight + 1) = [.headingIds, .headingAnchors, .highlight] := by
    decide
  rw [value_render] at drawn ⊢
  rw [passes, ← drawn.calls_eq]
  exact calls_htmlSteps_highlight answers f document _ rfl (drawn.isTidy headings)

/-- A highlighter that knows one language. -/
def shading : Highlighter := fun _ c =>
  if c.language = "rust" then .markup "<span class=\"shade\">code</span>" else .unsupported

theorem answersPlainly_shading : AnswersPlainly shading := by
  intro before c
  unfold shading
  split
  · exact Or.inr ⟨_, rfl, by decide +kernel⟩
  · exact Or.inl rfl

/-- A document with code in a quote within a list, code without text, and code that names no language. -/
def quotedCode : List Markdown.Node :=
  [.branch (.heading 2) none [.leaf (.text "Setup") none],
    .branch (.list false none false) none [.branch (.listItem false none) none
      [.branch .blockquote none [.leaf (.code "fn" (some "rust") none) none],
        .leaf (.code "" (some "sh") none) none]],
    .leaf (.code "plain" none none) none]

theorem calls_quotedCode :
    let document : Page := { tree := (Rendering.render {} (.branch .root none quotedCode)).value }
    NoHtml (Markdown.Node.leavesAll quotedCode) ∧ NoReferences (Markdown.Node.leavesAll quotedCode) ∧
      NoCode (allHeadingLeaves quotedCode) ∧
      ∃ page, (htmlSteps (some ⟨shading, 10⟩) none "post.md" document
          (HtmlPass.all.take (HtmlPass.all.idxOf .highlight + 1))).value? = some (page, none) ∧
        page.calls = [⟨"fn\n", "rust"⟩, ⟨"", "sh"⟩] := by
  intro document
  have html : NoHtml (Markdown.Node.leavesAll quotedCode) := by
    simp [NoHtml, quotedCode, Markdown.Node.leavesAll, Markdown.Node.leaves]
  have references : NoReferences (Markdown.Node.leavesAll quotedCode) := by
    simp [NoReferences, quotedCode, Markdown.Node.leavesAll, Markdown.Node.leaves]
  have headings : NoCode (allHeadingLeaves quotedCode) := by
    simp [NoCode, quotedCode, allHeadingLeaves, headingLeaves, Markdown.Node.leavesAll, Markdown.Node.leaves]
  have fences : (allRenderedLeaves quotedCode).filterMap fence? = [⟨"fn\n", "rust"⟩, ⟨"", "sh"⟩] := by decide +kernel
  rw [← fences]
  exact ⟨html, references, headings,
    calls_htmlSteps_fences {} ⟨shading, 10⟩ answersPlainly_shading none "post.md" [] none quotedCode html references
      headings⟩

end Folio.Pipeline
