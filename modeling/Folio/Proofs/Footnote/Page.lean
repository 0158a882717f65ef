import Folio.Proofs.Footnote.Links

/-!
# The footnotes of a page

What a reader of a page sees of its footnotes: the links to them (`links`), the items of the list at the end (`items`)
and the links back in each of them (`backLinks`). `links_and_items_render` says what these are on the page of a document
without markup: links come from the body first and then from the listed footnotes, while the items and the links back
are those that the body asks for.
-/

namespace Folio.Rendering

open Html

/-! ### Definitions of footnotes -/

mutual

/-- The footnotes that are defined outside of other footnotes, in document order. -/
def outerNotes : Markdown.Node → List (String × List Markdown.Node)
  | .leaf .. => []
  | .branch (.footnoteDefinition identifier _) _ children => [(foldCase identifier, children)]
  | .branch _ _ children => allOuterNotes children

/-- The footnotes that trees define. -/
def allOuterNotes : List Markdown.Node → List (String × List Markdown.Node)
  | [] => []
  | n :: ns => outerNotes n ++ allOuterNotes ns

end

/-- The content of the footnote of a folded identifier: the first definition counts. -/
def note? (body : List Markdown.Node) (key : String) : Option (List Markdown.Node) := (allOuterNotes body).lookup key

/-- Entries added one after the other. -/
def insertAll {α : Type} (es ds : List (String × α)) : List (String × α) :=
  ds.foldl (fun es d => insertNew d.1 d.2 es) es

theorem insertAll_append {α : Type} (es ds ds' : List (String × α)) :
    insertAll es (ds ++ ds') = insertAll (insertAll es ds) ds' := List.foldl_append

theorem lookup_insertNew {α : Type} (name : String) (a : α) (es : List (String × α)) (k : String) :
    (insertNew name a es).lookup k = (es.lookup k).or ([(name, a)].lookup k) := by
  unfold insertNew
  split <;> rename_i h
  · by_cases hk : k = name
    · subst hk
      obtain ⟨v, hv⟩ := Option.isSome_iff_exists.1 h
      simp [hv]
    · simp [List.lookup_cons, beq_false_of_ne hk]
  · rw [List.lookup_append]

theorem lookup_insertAll {α : Type} (es ds : List (String × α)) (k : String) :
    (insertAll es ds).lookup k = (es.lookup k).or (ds.lookup k) := by
  induction ds generalizing es with
  | nil => simp [insertAll]
  | cons d ds ih =>
    rw [insertAll, List.foldl_cons, ← insertAll, ih, lookup_insertNew, Option.or_assoc, ← List.lookup_append]
    rfl

mutual

/-- Collecting adds the outer definitions of a tree and counts nothing. -/
theorem collect_footnotes (c : Context) (n : Markdown.Node) :
    (collect c n).footnotes = insertAll c.footnotes (outerNotes n) ∧ (collect c n).order = c.order ∧
      (collect c n).references = c.references := by
  match n with
  | .leaf l p => cases l <;> exact ⟨rfl, rfl, rfl⟩
  | .branch kind p children =>
    cases kind with
    | footnoteDefinition identifier label => exact ⟨rfl, rfl, rfl⟩
    | _ =>
      simp only [collect, outerNotes]
      exact collectAll_footnotes c children

theorem collectAll_footnotes (c : Context) (ns : List Markdown.Node) :
    (collectAll c ns).footnotes = insertAll c.footnotes (allOuterNotes ns) ∧ (collectAll c ns).order = c.order ∧
      (collectAll c ns).references = c.references := by
  match ns with
  | [] => exact ⟨rfl, rfl, rfl⟩
  | n :: ns =>
    obtain ⟨notes, order, references⟩ := collect_footnotes c n
    obtain ⟨notes', order', references'⟩ := collectAll_footnotes (collect c n) ns
    rw [collectAll, allOuterNotes, insertAll_append, ← notes, ← order, ← references]
    exact ⟨notes', order', references'⟩

end

/-- Before a tree is rendered nothing is counted. -/
theorem counted_ofTree (options : Options) (tree : Markdown.Node) : (Context.ofTree options tree).Counted [] :=
  have h := collect_footnotes { options } tree
  .of_fresh h.2.1 h.2.2

theorem lookup_footnotes_ofTree (options : Options) (tree : Markdown.Node) (key : String) :
    (Context.ofTree options tree).footnotes.lookup key = (outerNotes tree).lookup key := by
  rw [show (Context.ofTree options tree).footnotes = insertAll [] (outerNotes tree) from
    (collect_footnotes { options } tree).1, lookup_insertAll]
  rfl

/-- What a rendering keeps of the references to the footnotes of a tree. Each reference gets the place of its
identifier among the distinct ones, in the order of the first references, and the number of references to it so far.
Taken then are the footnotes that are referenced and defined, once each and in that order, with the number of
references and the content of their first definition; taken again, there are none. -/
theorem takeFootnotes_referenceAll (options : Options) (tree : Markdown.Node) (ids : List String) :
    let keys := ids.map foldCase
    let (numbers, c) := (Context.ofTree options tree).referenceAll ids
    numbers = ids.mapIdx (fun i id =>
      (keys.eraseDups.idxOf (foldCase id) + 1, (keys.take (i + 1)).count (foldCase id))) ∧
    c.takeFootnotes.1 = keys.eraseDups.filterMap (fun key =>
      ((outerNotes tree).lookup key).map fun children => ⟨key, keys.count key, children⟩) ∧
    (c.takeFootnotes.1.map (·.identifier)).Nodup ∧ c.takeFootnotes.2.takeFootnotes.1 = [] := by
  intro keys
  have fresh := counted_ofTree options tree
  have taken : ((Context.ofTree options tree).referenceAll ids).2.takeFootnotes.1 =
      keys.eraseDups.filterMap fun key =>
        ((outerNotes tree).lookup key).map fun children => ⟨key, keys.count key, children⟩ := by
    rw [Context.takeFootnotes_of_counted (fresh.referenceAll ids)]
    simp only [Context.footnotes_referenceAll, lookup_footnotes_ofTree]
    rfl
  refine ⟨?_, taken, ?_, rfl⟩
  · refine List.ext_getElem? fun i => ?_
    rw [List.getElem?_mapIdx, ← List.map_take]
    cases hi : ids[i]? with
    | some id => exact Context.getElem?_referenceAll fresh ids hi
    | none =>
      rw [List.getElem?_eq_none_iff] at hi
      exact List.getElem?_eq_none (by rwa [Context.length_referenceAll])
  · have named : ((Context.ofTree options tree).referenceAll ids).2.takeFootnotes.1.map (·.identifier) =
        keys.eraseDups.filter fun key => ((outerNotes tree).lookup key).isSome := by
      rw [taken, List.map_filterMap, ← List.filterMap_eq_filter]
      refine List.filterMap_congr fun key _ => ?_
      cases hn : (outerNotes tree).lookup key <;> simp [hn, Option.guard]
    rw [named]
    exact (nodup_eraseDups keys).filter _

variable {options : Options} {p : Option Markdown.Position} {body : List Markdown.Node}

/-- The state before a document is rendered. -/
abbrev start (options : Options) (p : Option Markdown.Position) (body : List Markdown.Node) : Context :=
  Context.ofTree options (.branch .root p body)

theorem counted_start (options : Options) (p : Option Markdown.Position) (body : List Markdown.Node) :
    (start options p body).Counted [] := counted_ofTree options _

theorem lookup_footnotes_start (key : String) : (start options p body).footnotes.lookup key = note? body key :=
  lookup_footnotes_ofTree options _ key

mutual

/-- The leaves of a definition are leaves of the tree. -/
theorem leaves_outerNotes {n : Markdown.Node} {d : String × List Markdown.Node} (h : d ∈ outerNotes n)
    {l : Markdown.Leaf} (hl : l ∈ Markdown.Node.leavesAll d.2) : l ∈ n.leaves := by
  match n, h with
  | .branch kind p children, h =>
    rw [Markdown.Node.leaves]
    cases kind with
    | footnoteDefinition identifier label =>
      obtain rfl := List.mem_singleton.1 h
      exact hl
    | _ =>
      simp only [outerNotes] at h
      exact leavesAll_outerNotes h hl

theorem leavesAll_outerNotes {ns : List Markdown.Node} {d : String × List Markdown.Node} (h : d ∈ allOuterNotes ns)
    {l : Markdown.Leaf} (hl : l ∈ Markdown.Node.leavesAll d.2) : l ∈ Markdown.Node.leavesAll ns := by
  match ns, h with
  | n :: ns, h =>
    rw [Markdown.Node.leavesAll, List.mem_append]
    rw [allOuterNotes, List.mem_append] at h
    exact h.imp (leaves_outerNotes · hl) (leavesAll_outerNotes · hl)

end

/-! ### What a page shows -/

/-- Is an element a link to a footnote? -/
def isLink (e : Element) : Bool := e.tag = "a" && (e.properties.get? "data-footnote-ref").isSome

/-- Is an element a link back from a footnote? -/
def isBackLink (e : Element) : Bool := e.tag = "a" && (e.properties.get? "data-footnote-backref").isSome

/-- Is an element the section of footnotes? -/
def isSection (e : Element) : Bool := e.tag = "section" && (e.properties.get? "data-footnotes").isSome

/-- The children of an element that have a tag. -/
def childrenOf (tag : String) (e : Element) : List Element :=
  (e.children.filterMap Node.element?).filter fun e => e.tag = tag

/-- The links to footnotes in document order. -/
def links (page : Html.Node) : List Element := (Node.elementsAll page.children).filter isLink

/-- The items of the list of footnotes. -/
def items (page : Html.Node) : List Element :=
  ((Node.elementsAll page.children).filter isSection).flatMap fun s => (childrenOf "ol" s).flatMap (childrenOf "li")

/-- The links back within an item. -/
def backLinks (item : Element) : List Element := (Node.elementsAll item.children).filter isBackLink

theorem mem_names_of_get? {p : Properties} {name : String} (h : (p.get? name).isSome) : name ∈ p.names := by
  obtain ⟨es⟩ := p
  obtain ⟨v, hv⟩ := Option.isSome_iff_exists.1 h
  obtain ⟨l, r, rfl, _⟩ := List.lookup_eq_some_iff.1 (show es.lookup name = some v from hv)
  exact List.mem_map.2 ⟨(name, v), by simp, rfl⟩

theorem isTrace_of_get? {e : Element} {name : String} (hn : name ∈ traceNames)
    (h : (e.properties.get? name).isSome) : isTrace e = true :=
  List.any_eq_true.2 ⟨name, mem_names_of_get? h, List.contains_iff_mem.2 hn⟩

theorem isTrace_of_isLink {e : Element} (h : isLink e = true) : isTrace e = true :=
  isTrace_of_get? (by simp [traceNames]) (Bool.and_eq_true_iff.1 h).2

theorem isTrace_of_isBackLink {e : Element} (h : isBackLink e = true) : isTrace e = true :=
  isTrace_of_get? (by simp [traceNames]) (Bool.and_eq_true_iff.1 h).2

theorem isTrace_of_isSection {e : Element} (h : isSection e = true) : isTrace e = true :=
  isTrace_of_get? (by simp [traceNames]) (Bool.and_eq_true_iff.1 h).2

/-- Traces are all that has to be searched. -/
theorem filter_traces {q : Element → Bool} (hq : ∀ e, q e = true → isTrace e = true) (ns : List Html.Node) :
    (Node.elementsAll ns).filter q = (traces ns).filter q := by
  rw [traces, List.filter_filter]
  refine List.filter_congr fun e _ => ?_
  cases h : q e
  · rfl
  · rw [hq e h]; rfl

/-! ### Links and links back -/

/-- The element of a link back. -/
def backElement (id : String) (occurrence : Nat) : Element :=
  { tag := "a"
    properties := Properties.ofList [("href", .text ("#" ++ referenceId id occurrence)),
      ("data-footnote-backref", .flag true), ("aria-label", .text "Back to reference"),
      ("class", .tokens ["data-footnote-backref"])]
    children := [.text "↩"] }

theorem backLink_eq (id : String) (occurrence : Nat) : backLink id occurrence = (backElement id occurrence).toNode := rfl

section
variable (key id : String) (ordinal occurrence : Nat)

theorem isLink_backElement : isLink (backElement id occurrence) = false := rfl

theorem isBackLink_backElement : isBackLink (backElement id occurrence) = true := rfl

theorem isSection_backElement : isSection (backElement id occurrence) = false := rfl

end

theorem traces_node (tag : String) (p : Properties) (cs : List Html.Node) :
    traces [.element tag p cs] = (if isTrace ⟨tag, p, cs⟩ then [⟨tag, p, cs⟩] else []) ++ traces cs := by
  simp only [traces, Node.elementsAll, Node.elements, List.append_nil, List.filter_cons]
  split <;> rfl

theorem traces_toNode {e : Element} (h : isTrace e = true) (ns : List Html.Node) :
    traces (e.toNode :: ns) = e :: (traces e.children ++ traces ns) := by
  rw [traces_cons, Element.toNode, traces_node, if_pos h]
  rfl

theorem traces_backLinks (id : String) (ks : List Nat) :
    traces (ks.map fun i => backLink id (i + 1)) = ks.map fun i => backElement id (i + 1) := by
  induction ks with
  | nil => rfl
  | cons k ks ih =>
    rw [List.map_cons, backLink_eq, traces_toNode (isTrace_of_isBackLink (isBackLink_backElement ..)), ih]
    rfl

theorem traces_spaced (ls : List Html.Node) : traces (ls.flatMap fun l => [.text " ", l]) = traces ls := by
  induction ls with
  | nil => rfl
  | cons l ls ih => rw [List.flatMap_cons, traces_append, ih, traces_text, traces_cons l ls]

/-- Links back are added behind the traces that are there. -/
theorem traces_addBackLinks {ls content : List Html.Node} (h : ∀ e ∈ traces content, e.tag = "a") :
    traces (addBackLinks ls content) = traces content ++ traces ls := by
  rcases List.eq_nil_or_concat content with rfl | ⟨before, last, rfl⟩
  · rfl
  rw [List.concat_eq_append] at h ⊢
  cases last with
  | root cs => simp only [addBackLinks, List.getLast?_append, List.getLast?_singleton, Option.some_or, traces_append]
  | text s => simp only [addBackLinks, List.getLast?_append, List.getLast?_singleton, Option.some_or, traces_append]
  | element tag p cs =>
    by_cases ht : tag = "p"
    · -- A paragraph is no trace, so it stays none when something is added to it.
      have plain : ¬ isTrace ⟨tag, p, cs⟩ = true := by
        intro hp
        have mem : ⟨tag, p, cs⟩ ∈ traces (before ++ [.element tag p cs]) := by
          rw [traces_append, traces_node, if_pos hp]
          simp
        exact absurd ((h _ mem).symm.trans ht) (by decide)
      have inner : ∀ cs', traces [.element tag p cs'] = traces cs' := by
        intro cs'
        rw [traces_node]
        exact congrArg (· ++ traces cs') (if_neg plain)
      simp only [addBackLinks, List.getLast?_append, List.getLast?_singleton, Option.some_or, if_pos ht,
        List.dropLast_concat, traces_append, inner, traces_spaced, List.append_assoc]
    · simp only [addBackLinks, List.getLast?_append, List.getLast?_singleton, Option.some_or, if_neg ht, traces_append]

/-! ### Items -/

/-- What counts of an item: its tag, its id and the links back in it. -/
def itemView (e : Element) : String × Option String × List Element := (e.tag, e.text? "id", backLinks e)

/-- The links back in the item of a footnote. -/
def backElements (note : Context.Footnote) : List Element :=
  (List.range note.references).map fun i => backElement (footnoteId note.identifier) (i + 1)

/-- What counts of the item of a footnote. -/
def noteView (note : Context.Footnote) : String × Option String × List Element :=
  ("li", some (noteId (footnoteId note.identifier)), backElements note)

/-- The element of an item. -/
def itemElement (note : Context.Footnote) (content : List Html.Node) : Element :=
  let id := footnoteId note.identifier
  let links := (List.range note.references).map fun i => backLink id (i + 1)
  { tag := "li", properties := Properties.ofList [("id", .text (noteId id))], children := addBackLinks links content }

theorem footnoteItem_eq (note : Context.Footnote) (content : List Html.Node) :
    footnoteItem note content = (itemElement note content).toNode := rfl

/-- Are these links to footnotes and nothing else? -/
def AllLinks (es : List Element) : Prop := ∀ e ∈ es, ∃ key ordinal occurrence, e = referenceLink key ordinal occurrence

theorem allLinks_tally (c : Context) (ids : List String) : AllLinks (c.tally ids).1 := by
  intro e he
  obtain ⟨id, _, ordinal, occurrence, rfl⟩ := Context.mem_tally he
  exact ⟨_, _, _, rfl⟩

namespace AllLinks
variable {es : List Element}

theorem tag_eq (h : AllLinks es) : ∀ e ∈ es, e.tag = "a" := by
  intro e he
  obtain ⟨key, ordinal, occurrence, rfl⟩ := h e he
  rfl

theorem filter_isLink (h : AllLinks es) : es.filter isLink = es := by
  refine List.filter_eq_self.2 fun e he => ?_
  obtain ⟨key, ordinal, occurrence, rfl⟩ := h e he
  rfl

theorem filter_isBackLink (h : AllLinks es) : es.filter isBackLink = [] := by
  refine List.filter_eq_nil_iff.2 fun e he => ?_
  obtain ⟨key, ordinal, occurrence, rfl⟩ := h e he
  exact Bool.false_ne_true

theorem filter_isSection (h : AllLinks es) : es.filter isSection = [] := by
  refine List.filter_eq_nil_iff.2 fun e he => ?_
  obtain ⟨key, ordinal, occurrence, rfl⟩ := h e he
  exact Bool.false_ne_true

end AllLinks

section
variable (note : Context.Footnote) {content : List Html.Node}

theorem filter_backElements {q : Element → Bool} {b : Bool} (hq : ∀ id occurrence, q (backElement id occurrence) = b) :
    (backElements note).filter q = if b then backElements note else [] := by
  have all : ∀ e ∈ backElements note, q e = b := by
    intro e he
    obtain ⟨i, _, rfl⟩ := List.mem_map.1 he
    exact hq _ _
  cases b with
  | true => exact List.filter_eq_self.2 all
  | false => exact List.filter_eq_nil_iff.2 fun e he => by simp [all e he]

theorem traces_itemElement (h : AllLinks (traces content)) :
    traces (itemElement note content).children = traces content ++ backElements note := by
  rw [itemElement, traces_addBackLinks h.tag_eq, traces_backLinks, backElements]

theorem traces_footnoteItem (h : AllLinks (traces content)) :
    traces [footnoteItem note content] = traces content ++ backElements note := by
  rw [← traces_itemElement note h]
  exact traces_element (by simp [traceNames]) _

theorem itemView_itemElement (h : AllLinks (traces content)) : itemView (itemElement note content) = noteView note := by
  have back : backLinks (itemElement note content) = backElements note := by
    rw [backLinks, filter_traces (fun _ => isTrace_of_isBackLink), traces_itemElement note h, List.filter_append,
      h.filter_isBackLink, filter_backElements note isBackLink_backElement]
    rfl
  rw [itemView, noteView, back]
  rfl

end

/-- Rendered footnotes have the links of the tally of their references, no section, and the items that count. -/
theorem run_renderFootnotes (notes : List Context.Footnote)
    (h : ∀ note ∈ notes, NoHtml (Markdown.Node.leavesAll note.children)) (c : Context) :
    ∃ es : List Element, ((renderFootnotes notes).run c).value.1 = es.map Element.toNode ∧
      (traces (es.map Element.toNode)).filter isLink =
        (c.tally (notes.flatMap fun note => allReferences note.children)).1 ∧
      (traces (es.map Element.toNode)).filter isSection = [] ∧ es.map itemView = notes.map noteView := by
  induction notes generalizing c with
  | nil => exact ⟨[], rfl, rfl, rfl, rfl⟩
  | cons note notes ih =>
    have html := h note List.mem_cons_self
    obtain ⟨es, run, link, sections, views⟩ := ih (fun n hn => h n (List.mem_cons_of_mem _ hn))
      ((renderChildren note.children).run c).value.2
    have all : AllLinks (traces ((renderChildren note.children).run c).value.1) := by
      rw [traces_renderChildren html]
      exact allLinks_tally _ _
    refine ⟨itemElement note ((renderChildren note.children).run c).value.1 :: es, ?_, ?_, ?_, ?_⟩
    · rw [List.map_cons, ← run]
      rfl
    · rw [List.map_cons, traces_cons, ← footnoteItem_eq, traces_footnoteItem note all, List.filter_append,
        List.filter_append, all.filter_isLink, filter_backElements note isLink_backElement, link,
        traces_renderChildren html, state_renderChildren html, List.flatMap_cons, Context.tally_append]
      exact congrArg (· ++ _) (List.append_nil _)
    · rw [List.map_cons, traces_cons, ← footnoteItem_eq, traces_footnoteItem note all, List.filter_append,
        List.filter_append, all.filter_isSection, filter_backElements note isSection_backElement, sections]
      rfl
    · rw [List.map_cons, List.map_cons, itemView_itemElement note all, views]

/-! ### The section of footnotes -/

/-- The folded identifiers that the body refers to. -/
def bodyKeys (body : List Markdown.Node) : List String := (allReferences body).map foldCase

/-- The footnotes that are listed: the distinct ones that the body refers to, in the order in which it first does. -/
def listedNotes (body : List Markdown.Node) : List Context.Footnote :=
  (bodyKeys body).eraseDups.map fun k => ⟨k, (bodyKeys body).count k, (note? body k).getD []⟩

/-- The references within the footnotes that are listed. -/
def nestedReferences (body : List Markdown.Node) : List String :=
  (listedNotes body).flatMap fun note => allReferences note.children

/-- The listed footnotes that are defined. -/
def foundNotes (body : List Markdown.Node) : List Context.Footnote :=
  (listedNotes body).filter fun note => (note? body note.identifier).isSome

/-- What is taken behind the body are the footnotes that it refers to and that are defined. -/
theorem takeFootnotes_tally (options : Options) (p : Option Markdown.Position) (body : List Markdown.Node) :
    (((start options p body).tally (allReferences body)).2.takeFootnotes).1 = foundNotes body := by
  rw [Context.takeFootnotes_of_counted ((counted_start options p body).tally (allReferences body)), foundNotes,
    listedNotes, bodyKeys, ← List.filterMap_eq_filter, List.filterMap_map]
  refine List.filterMap_congr fun k _ => ?_
  rw [Context.footnotes_tally, lookup_footnotes_start]
  cases hn : note? body k <;> simp [hn, Option.guard]

theorem foundNotes_eq_listedNotes (h : ∀ x ∈ allReferences body, (note? body (foldCase x)).isSome) :
    foundNotes body = listedNotes body := by
  refine List.filter_eq_self.2 fun note hnote => ?_
  obtain ⟨k, hk, rfl⟩ := List.mem_map.1 hnote
  obtain ⟨x, hx, rfl⟩ := List.mem_map.1 (List.mem_eraseDups.1 hk)
  exact h x hx

/-- A listed footnote that is not defined has no content. -/
theorem flatMap_foundNotes {α : Type} (f : List Markdown.Node → List α) (nil : f [] = []) :
    ((foundNotes body).flatMap fun note => f note.children) =
      (listedNotes body).flatMap fun note => f note.children := by
  unfold foundNotes listedNotes
  induction (bodyKeys body).eraseDups with
  | nil => rfl
  | cons k ks ih =>
    rw [List.map_cons, List.filter_cons, List.flatMap_cons, ← ih]
    cases hn : note? body k with
    | none => simp [nil]
    | some children => rfl

/-- The section with some items. -/
def sectionElement (its : List Html.Node) : Element :=
  { tag := "section"
    properties := Properties.ofList [("data-footnotes", .flag true), ("class", .tokens ["footnotes"])]
    children := [element "h2" [("id", .text "footnote-label"), ("class", .tokens ["sr-only"])] [.text "Footnotes"],
      element "ol" [] its] }

theorem run_footnoteSection (c : Context) :
    (footnoteSection.run c).value.1 = if c.takeFootnotes.1.isEmpty then []
      else [(sectionElement ((renderFootnotes c.takeFootnotes.1).run c.takeFootnotes.2).value.1).toNode] := by
  have bind : footnoteSection.run c = (if c.takeFootnotes.1.isEmpty then (pure [] : Render (List Html.Node)) else do
      let items ← renderFootnotes c.takeFootnotes.1
      pure [(sectionElement items).toNode]).run c.takeFootnotes.2 := rfl
  rw [bind]
  split <;> rfl

theorem traces_section (its : List Html.Node) :
    traces [(sectionElement its).toNode] = sectionElement its :: traces its := by
  rw [traces_toNode rfl, sectionElement, traces_cons, traces_element (by simp [traceNames]), traces_element plain_nil]
  simp

theorem render_children : (render options (.branch .root p body)).value.children =
    ((renderChildren body).run (start options p body)).value.1 ++
      (footnoteSection.run ((renderChildren body).run (start options p body)).value.2).value.1 := rfl

/-- The items of a section are those that were put into it. -/
theorem childrenOf_sectionElement {es : List Element} (h : ∀ e ∈ es, e.tag = "li") :
    (childrenOf "ol" (sectionElement (es.map Element.toNode))).flatMap (childrenOf "li") = es := by
  have list : childrenOf "ol" (sectionElement (es.map Element.toNode)) =
    [⟨"ol", Properties.ofList [], es.map Element.toNode⟩] := rfl
  have back : Node.element? ∘ Element.toNode = some := rfl
  rw [list, List.flatMap_singleton, childrenOf, List.filterMap_map, back, List.filterMap_some]
  exact List.filter_eq_self.2 fun e he => decide_eq_true (h e he)

theorem tag_of_itemView {es : List Element} {notes : List Context.Footnote} (h : es.map itemView = notes.map noteView) :
    ∀ e ∈ es, e.tag = "li" := by
  intro e he
  have mem : itemView e ∈ notes.map noteView := h ▸ List.mem_map_of_mem he
  obtain ⟨note, _, hn⟩ := List.mem_map.1 mem
  exact congrArg (·.1) hn.symm

/-! ### The page -/

theorem noHtml_foundNotes (hhtml : NoHtml (Markdown.Node.leavesAll body)) :
    ∀ note ∈ foundNotes body, NoHtml (Markdown.Node.leavesAll note.children) := by
  intro note hnote v hv
  obtain ⟨k, -, rfl⟩ := List.mem_map.1 (List.mem_filter.1 hnote).1
  cases hn : note? body k with
  | none => simp [hn, Markdown.Node.leavesAll] at hv
  | some children =>
    simp only [hn, Option.getD_some] at hv
    obtain ⟨l, r, he, _⟩ := List.lookup_eq_some_iff.1 hn
    exact hhtml v (leavesAll_outerNotes (d := (k, children)) (by simp [he]) hv)

/-- On a page the links of the body come first, and then those within the listed footnotes, where counting goes on. The
items are those of the footnotes that the body refers to and that are defined; each has a link back for every reference
in the body. -/
theorem links_and_items_render (hhtml : NoHtml (Markdown.Node.leavesAll body)) (options : Options)
    (p : Option Markdown.Position) : ∃ c : Context,
    (∀ k, c.count k = (bodyKeys body).count k) ∧
    links (render options (.branch .root p body)).value = ((start options p body).tally (allReferences body)).1 ++
      (c.tally (nestedReferences body)).1 ∧
    (items (render options (.branch .root p body)).value).map itemView = (foundNotes body).map noteView := by
  have taken := takeFootnotes_tally options p body
  have all := allLinks_tally (start options p body) (allReferences body)
  have nested : nestedReferences body = (foundNotes body).flatMap fun note => allReferences note.children :=
    (flatMap_foundNotes allReferences (by rw [allReferences])).symm
  refine ⟨(((start options p body).tally (allReferences body)).2.takeFootnotes).2,
    ((counted_start options p body).tally (allReferences body)).count_eq, ?_⟩
  rw [links, items, filter_traces fun _ => isTrace_of_isLink, filter_traces fun _ => isTrace_of_isSection,
    render_children, state_renderChildren hhtml, run_footnoteSection, taken, traces_append,
    traces_renderChildren hhtml, List.filter_append, List.filter_append, all.filter_isLink, all.filter_isSection, nested]
  obtain ⟨es, run, link, sections, views⟩ := run_renderFootnotes (foundNotes body) (noHtml_foundNotes hhtml)
    (((start options p body).tally (allReferences body)).2.takeFootnotes).2
  rw [run]
  split <;> rename_i hn
  · rw [List.isEmpty_iff] at hn
    simp [hn]
  · have isLink : isLink (sectionElement (es.map Element.toNode)) = false := rfl
    have isSection : isSection (sectionElement (es.map Element.toNode)) = true := rfl
    rw [traces_section, List.filter_cons, List.filter_cons, link, sections, isLink, isSection]
    refine ⟨rfl, ?_⟩
    rw [List.nil_append, if_pos rfl, List.flatMap_singleton, childrenOf_sectionElement (tag_of_itemView views), views]

end Folio.Rendering
