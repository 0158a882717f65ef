import Folio.Proofs.Html.Headings
import Folio.Proofs.Html.Roots

/-!
# The list of headings and the document

The list of headings is made when headings get their ids, by the first of the steps behind the rendering.
`headings_run` says how far it describes the document that comes out.
-/

namespace Folio.Outline

open Html Heading

/-! ### Where headings stand -/

/-- A place within an element: the tag and the properties of the element, and as which of its children. -/
structure Spot where
  tag : String
  properties : Properties
  index : Nat

/-- A heading and where it stands. One of the top level stands in no element. -/
structure Place where
  heading : Element
  spot : Option Spot

mutual

/-- The headings of a node that stands at a spot, as far as they are reached through elements, and where they stand. -/
def places (spot : Option Spot) : Node → List Place
  | .element t p cs =>
    (if (Element.headingLevel? ⟨t, p, cs⟩).isSome then [⟨⟨t, p, cs⟩, spot⟩] else []) ++ placesAll t p 0 cs
  | _ => []

/-- The headings of the children of an element from an index on, and where they stand. -/
def placesAll (t : String) (p : Properties) (i : Nat) : List Node → List Place
  | [] => []
  | n :: ns => places (some ⟨t, p, i⟩) n ++ placesAll t p (i + 1) ns

end

/-- The headings of a top level and where they stand. -/
def placesTop (ns : List Node) : List Place := ns.flatMap (places none)

variable {t : String} {p : Properties} {cs : List Node}

theorem places_heading (h : (Element.headingLevel? ⟨t, p, cs⟩).isSome) (spot : Option Spot) :
    places spot (.element t p cs) = ⟨⟨t, p, cs⟩, spot⟩ :: placesAll t p 0 cs := by
  rw [places, if_pos h]
  rfl

theorem places_plain (h : ¬ (Element.headingLevel? ⟨t, p, cs⟩).isSome) (spot : Option Spot) :
    places spot (.element t p cs) = placesAll t p 0 cs := by
  rw [places, if_neg h]
  rfl

theorem placesTop_cons (n : Node) (ns : List Node) : placesTop (n :: ns) = places none n ++ placesTop ns :=
  List.flatMap_cons

mutual

theorem map_heading_places (spot : Option Spot) : (n : Node) → (places spot n).map (·.heading) = headings [n]
  | .text _ => rfl
  | .root _ => rfl
  | .element t p cs => by
    by_cases h : (Element.headingLevel? ⟨t, p, cs⟩).isSome
    · rw [places_heading h, headings_heading h, List.map_cons, map_heading_placesAll t p 0 cs]
    · rw [places_plain h, headings_plain h, map_heading_placesAll t p 0 cs]

theorem map_heading_placesAll (t : String) (p : Properties) (i : Nat) : (ns : List Node) →
    (placesAll t p i ns).map (·.heading) = headings ns
  | [] => rfl
  | n :: ns => by
    rw [placesAll, List.map_append, map_heading_places _ n, map_heading_placesAll t p (i + 1) ns, ← headings_cons]

end

theorem map_heading_placesTop (ns : List Node) : (placesTop ns).map (·.heading) = headings ns := by
  induction ns with
  | nil => rfl
  | cons n ns ih => rw [placesTop_cons, List.map_append, map_heading_places, ih, ← headings_cons]

/-! ### Where headings stand in sections -/

/-- A heading behind the nesting: one of the top level begins a section. -/
def Place.nested (a : Place) : Place :=
  match a.spot with
  | some _ => a
  | none => ⟨a.heading, some ⟨"section", tagged a.heading.toNode, 0⟩⟩

theorem Place.heading_nested (a : Place) : a.nested.heading = a.heading := by
  obtain ⟨heading, _ | spot⟩ := a <;> rfl

/-- Where a node that is no heading stands makes no difference to the headings below it. -/
theorem places_of_plain {n : Node} (plain : level? n = none) (spot : Option Spot) : places spot n = places none n := by
  cases n with
  | element t p cs =>
    have h : ¬ (Element.headingLevel? ⟨t, p, cs⟩).isSome := Option.not_isSome_iff_eq_none.2 plain
    rw [places_plain h, places_plain h]
  | _ => rfl

theorem placesAll_of_plain {ns : List Node} (plain : ∀ n ∈ ns, level? n = none) (t : String) (p : Properties)
    (i : Nat) : placesAll t p i ns = placesTop ns := by
  induction ns generalizing i with
  | nil => rfl
  | cons n ns ih =>
    obtain ⟨first, rest⟩ := List.forall_mem_cons.1 plain
    rw [placesAll, placesTop_cons, places_of_plain first, ih rest]

theorem view_placesTop : View placesTop fun h => places (some ⟨"section", tagged h, 0⟩) h where
  append ns ms := List.flatMap_append
  cover h rest heading plain := by
    have around : ¬ (Element.headingLevel? ⟨"section", tagged h, h :: rest⟩).isSome := Bool.false_ne_true
    rw [placesTop_cons, places_plain around, placesAll, placesAll_of_plain plain]
    exact List.append_nil _

mutual

theorem nested_places (spot : Spot) : (n : Node) → (places (some spot) n).map Place.nested = places (some spot) n
  | .text _ => rfl
  | .root _ => rfl
  | .element t p cs => by
    by_cases h : (Element.headingLevel? ⟨t, p, cs⟩).isSome
    · rw [places_heading h, List.map_cons, nested_placesAll t p 0 cs]
      rfl
    · rw [places_plain h, nested_placesAll t p 0 cs]

theorem nested_placesAll (t : String) (p : Properties) (i : Nat) : (ns : List Node) →
    (placesAll t p i ns).map Place.nested = placesAll t p i ns
  | [] => rfl
  | n :: ns => by
    rw [placesAll, List.map_append, nested_places _ n, nested_placesAll t p (i + 1) ns]

end

theorem seenNext_places (n : Node) :
    seenNext placesTop (fun h => places (some ⟨"section", tagged h, 0⟩) h) n = (places none n).map Place.nested := by
  unfold seenNext
  cases n with
  | root cs => rfl
  | text v => rfl
  | element t p cs =>
    by_cases h : (Element.headingLevel? ⟨t, p, cs⟩).isSome
    · have level : (level? (.element t p cs)).isSome := h
      rw [if_pos level]
      dsimp only
      rw [places_heading h, places_heading h, List.map_cons, nested_placesAll]
      rfl
    · have level : ¬ (level? (.element t p cs)).isSome := h
      rw [if_neg level, places_plain h, nested_placesAll, placesTop_cons, places_plain h]
      exact List.append_nil _

/-- Nesting keeps the headings in order, and each heading where it stands; those of the top level begin sections. -/
theorem placesTop_nestAll (ns : List Node) : placesTop (nestAll ns) = (placesTop ns).map Place.nested := by
  rw [view_placesTop.nestAll, placesTop, List.map_flatMap]
  exact List.flatMap_congr fun n _ => seenNext_places n

end Folio.Outline

namespace Folio.Pipeline

open Html Heading CodeBlock Outline

/-! ### Headings with links -/

theorem map_sign_of_wraps {es es' : List Element} (h : List.Forall₂ Wraps es es') : es'.map sign = es.map sign := by
  induction h with
  | nil => rfl
  | cons first _ ih => rw [List.map_cons, List.map_cons, first.sign, ih]

theorem isLinked_of_wraps {es es' : List Element} (h : List.Forall₂ Wraps es es') (linked : ∀ e ∈ es, IsLinked e) :
    ∀ e ∈ es', IsLinked e := by
  induction h with
  | nil => exact List.forall_mem_nil _
  | cons first _ ih =>
    obtain ⟨one, rest⟩ := List.forall_mem_cons.1 linked
    exact List.forall_mem_cons.2 ⟨first.isLinked one, ih rest⟩

variable (cs : List Node)

theorem sign_marked : (headings (marked cs)).map sign = (headings (assign (.root cs)).1.children).map sign := by
  rw [marked, map_sign_of_wraps (wraps_wrappedAll false _), headings_anchoredAll, List.map_map]
  exact List.map_congr_left fun e _ => sign_link e

theorem isLinked_marked : ∀ e ∈ headings (marked cs), IsLinked e := by
  refine isLinked_of_wraps (wraps_wrappedAll false _) ?_
  rw [headings_anchoredAll]
  exact List.forall_mem_map.2 fun e _ => isLinked_link e

theorem headings_marked : (headings (marked cs)).map (fun e => (e.headingLevel?, e.id?)) =
    (assign (.root cs)).2.map fun x => (some x.depth, some x.slug) := by
  let known (s : String × Properties × String) :=
    (Element.headingLevel? ⟨s.1, s.2.1, []⟩, Element.id? ⟨s.1, s.2.1, []⟩)
  have signs := congrArg (List.map known) (sign_marked cs)
  simp only [List.map_map] at signs
  exact signs.trans (headings_assignAll _ cs)

theorem map_shown_marked_iff : (headings (marked cs)).map shown = (assign (.root cs)).2.map (·.text) ↔
    ∀ w ∈ innerWishes cs, w.isCustom = false := by
  let known (s : String × Properties × String) := String.ofList (Text.trim s.2.2.toList)
  have signs := congrArg (List.map known) (sign_marked cs)
  simp only [List.map_map] at signs
  have same : (headings (marked cs)).map shown = (headings (assign (.root cs)).1.children).map shown := signs
  rw [same]
  exact map_shown_assignAll_iff _ cs

/-! ### Runs -/

section

variable {files : Storage} {options : Options} {document : String} {s t : Source}

theorem title_markdownStep {p : MarkdownPass} (h : (markdownStep files options document s p).value = .ok t) :
    t.frontmatter.map (·.title) = s.frontmatter.map (·.title) := by
  cases p with
  | includeFiles =>
    simp only [markdownStep, Logged.value_bind] at h
    split at h
    · cases h
    · cases h
      rfl
  | warnLevelOneHeadings =>
    cases h
    rfl
  | estimateReadingTime =>
    rw [markdownStep] at h
    cases data : s.frontmatter with
    | none =>
      rw [data] at h
      cases h
      rw [data]
    | some f =>
      rw [data] at h
      cases h
      simp only [Draft.estimate]
      split <;> rfl

/-- Steps before the rendering keep the title. -/
theorem title_markdownSteps {ps : List MarkdownPass} (h : (markdownSteps files options document s ps).value = .ok t) :
    t.frontmatter.map (·.title) = s.frontmatter.map (·.title) := by
  induction ps generalizing s with
  | nil =>
    cases h
    rfl
  | cons p ps ih =>
    simp only [markdownSteps, Logged.value_bind] at h
    cases step : (markdownStep files options document s p).value with
    | error e =>
      rw [step] at h
      cases h
    | ok u =>
      rw [step] at h
      exact (ih h).trans (title_markdownStep step)

end

/-- An entry of the list of headings describes a heading, before the top level is nested and in the end. -/
structure Describes (entry : Entry) (before after : Place) : Prop where
  same : after.heading = before.heading
  level : after.heading.headingLevel? = some entry.depth
  id : after.heading.id? = some entry.slug
  link : entry.depth ≤ 5 → ∃ inner,
    after.heading.children = [.element "a" (.ofList [("href", .text ("#" ++ entry.slug))]) inner]
  begins : before.spot = none → after.spot = some ⟨"section", .ofList [("data-heading-id", .text entry.slug)], 0⟩

theorem describes_nested {i : Nat} {entry : Entry} (h : (assign (.root cs)).2[i]? = some entry) :
    ∃ b, (placesTop (marked cs))[i]? = some b ∧ Describes entry b b.nested := by
  have known := congrArg (·[i]?) (headings_marked cs)
  rw [← map_heading_placesTop] at known
  simp only [List.getElem?_map, h, Option.map_some, Option.map_map, Option.map_eq_some_iff] at known
  obtain ⟨b, there, known⟩ := known
  obtain ⟨level, id⟩ := Prod.mk.inj known
  have mem : b.heading ∈ headings (marked cs) := by
    rw [← map_heading_placesTop]
    exact List.mem_map_of_mem (List.mem_of_getElem? there)
  have linked := isLinked_marked cs b.heading mem
  refine ⟨b, there, ?_⟩
  constructor
  · exact b.heading_nested
  · rw [b.heading_nested, level]
  · rw [b.heading_nested, id]
  · intro depth
    rw [b.heading_nested]
    refine linked entry.slug ?_
    rw [anchorId?, level, Option.any_some, decide_eq_true depth, if_pos rfl, id]
  · intro top
    have own : b.heading.toNode.element?.bind Element.id? = some entry.slug := id
    rw [Place.nested, top, tagged, own]
    rfl

/-- The headings of a document that comes out are its title, which stands in front of all, and those in the list of
headings, in order. All of them are reached through elements: there is no root below the top. The texts in the list are
those of the headings just if no heading within a heading has its id taken off its end. -/
theorem headings_run {options : Options} {files : Storage} {tree : Markdown.Node} {f : Option Frontmatter}
    {document : String} {output : Output}
    (h : ((ofOptions options).run files tree f document).value?.map Run.outcome = some (.ok output)) :
    ∃ (source : Source) (before : Page) (title : String) (after : List Place),
      (markdownSteps files options document { tree, frontmatter := f } MarkdownPass.all).value = .ok source ∧
      (htmlSteps none source.frontmatter document (rendered options source) HtmlPass.marking).value? = some (before, none) ∧
      f.map (·.title) = some title ∧
      (∃ top, output.tree = .root top ∧ Node.Rootless top) ∧
      placesTop output.tree.children = ⟨⟨"h1", .empty, [.text title]⟩, none⟩ :: after ∧
      after.length = output.headings.length ∧
      (∀ (i : Nat) (entry : Entry), output.headings[i]? = some entry →
        ∃ b a, (placesTop before.tree.children)[i]? = some b ∧ after[i]? = some a ∧ Describes entry b a) ∧
      (after.map (fun a => shown a.heading) = output.headings.map (·.text) ↔
        ∀ w ∈ innerWishes (rendered options source).tree.children, w.isCustom = false) := by
  obtain ⟨source, g, steps, data, rfl⟩ := eq_of_run f document h
  set cs := topLevel options source
  have titles := title_markdownSteps steps
  rw [data] at titles
  have nested : ((placesTop (marked cs)).map Place.nested).map (·.heading) = headings (marked cs) := by
    rw [List.map_map, ← map_heading_placesTop]
    exact List.map_congr_left fun a _ => a.heading_nested
  refine ⟨source, _, g.title, (placesTop (marked cs)).map Place.nested, steps,
    htmlSteps_marking source.frontmatter document options source, titles.symm, ?_, ?_, ?_, ?_, ?_⟩
  · have roots : Node.rootsAll (nestAll (marked cs)) = [] :=
      (rootsAll_nestAll_marked cs).trans (Rendering.rootless_render options.rendering source.tree)
    exact ⟨_, rfl, Node.Rootless.cons_iff.2 ⟨rfl, roots⟩⟩
  · change placesTop (titleHeading g.title :: nestAll (marked cs)) = _
    rw [placesTop_cons, placesTop_nestAll]
    rfl
  · have lengths := congrArg List.length (headings_marked cs)
    rw [List.length_map, List.length_map, ← map_heading_placesTop, List.length_map] at lengths
    rw [List.length_map]
    exact lengths
  · intro i entry listed
    obtain ⟨b, there, describes⟩ := describes_nested cs listed
    refine ⟨b, b.nested, there, ?_, describes⟩
    rw [List.getElem?_map, there]
    rfl
  · have texts := map_shown_marked_iff cs
    rw [← nested, List.map_map] at texts
    exact texts

/-- A heading with an id at its end, within a quotation. -/
def quotedHeading : Markdown.Node :=
  .branch .root none
    [.branch (.heading 2) none [.leaf (.text "Intro") none],
      .branch .blockquote none [.branch (.heading 3) none [.leaf (.text "Setup \x7b#start\x7d") none]]]

/-- A heading with an id at its end, within another heading. -/
def innerHeading : Markdown.Node :=
  .branch .root none [.leaf (.html "<h2 id=\"o\"><h3>B \x7b#x\x7d</h3> tail</h2>") none]

theorem headings_run_quotedHeading :
    ∃ output, ((ofOptions {}).run .nothing quotedHeading (some postData) "post.md").value?.map Run.outcome =
        some (.ok output) ∧
      output.headings.map (·.text) = ["Intro", "Setup"] ∧
      ∃ title after, placesTop output.tree.children = title :: after ∧
        after.map (fun a => shown a.heading) = output.headings.map (·.text) := by
  have texts : ((ofOptions {}).run .nothing quotedHeading (some postData) "post.md").value?.map
      (fun r => r.outcome.toOption.map fun o => o.headings.map (·.text)) = some (some ["Intro", "Setup"]) := by
    decide +kernel
  have plain : ((markdownSteps .nothing {} "post.md" { tree := quotedHeading, frontmatter := some postData }
      MarkdownPass.all).value.toOption.map fun s => (innerWishes (rendered {} s).tree.children).all (!·.isCustom)) =
      some true := by decide +kernel
  obtain ⟨⟨calls, outcome⟩, ended, texts⟩ := Option.map_eq_some_iff.1 texts
  cases outcome with
  | error e => cases texts
  | ok output =>
    have h := congrArg (Option.map Run.outcome) ended
    obtain ⟨source, before, title, after, steps, -, -, -, headings, -, -, same⟩ := headings_run h
    rw [steps] at plain
    have none := List.all_eq_true.1 (Option.some.inj plain)
    exact ⟨output, h, Option.some.inj texts, _, after, headings, same.2 fun w hw => by simpa using none w hw⟩

/-- The list keeps the id at the end of a heading within a heading, which is taken off later. -/
theorem run_innerHeading :
    (((ofOptions {}).run .nothing innerHeading (some postData) "post.md").value?.map fun r =>
      r.outcome.toOption.map fun o => ((headings o.tree.children).map shown, o.headings.map (·.text))) =
      some (some (["Post", "B tail", "B"], ["B \x7b#x\x7d tail", "B"])) := by
  decide +kernel

end Folio.Pipeline
