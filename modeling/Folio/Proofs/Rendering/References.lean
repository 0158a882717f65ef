import Folio.Proofs.Footnote.Consistency
import Folio.Proofs.Rendering.Lockstep

/-!
# References to definitions

`resolving` puts the target of each reference in its place, from any table of definitions: a reference becomes a link or
an image, and one without target its text. A rendering is that of the document that is resolved with the definitions
outside of footnotes (`render_resolving_outer`). Definitions within footnotes are overlooked, so the definitions of the
whole document give the same page only if they agree with the others on what is referred to
(`render_resolving_definitions_iff`).
-/

namespace Folio.Rendering

open Html

/-- What an image that is named by a reference becomes. -/
def resolveLeaf (look : String → Option Definition) : Markdown.Leaf → Markdown.Leaf
  | .imageReference alt identifier _ _ => ((look identifier).map fun d => .image d.url alt d.title).getD (.text alt)
  | l => l

/-- What a link that is named by a reference becomes: without target a group that adds nothing. -/
def resolveBranch (look : String → Option Definition) : Markdown.Branch → Markdown.Branch
  | .linkReference identifier _ _ => ((look identifier).map fun d => .link d.url d.title).getD .root
  | kind => kind

/-- Puts targets in the place of references. -/
def resolving (look : String → Option Definition) : Rewriting where
  leaf := resolveLeaf look
  branch _ := resolveBranch look
  spread := id
  definitionOf?_leaf l := by
    cases l with
    | imageReference alt identifier label kind =>
      cases found : look identifier <;> simp [resolveLeaf, found, definitionOf?]
    | _ => rfl
  noHtml_leaf l h := by
    cases l with
    | imageReference alt identifier label kind =>
      cases found : look identifier <;> simp [resolveLeaf, found, NoHtml]
    | _ => exact h
  isWrapper_branch _ kind h := by
    cases kind with
    | linkReference identifier label kind =>
      cases found : look identifier <;> simp [resolveBranch, found, isWrapper]
    | _ => exact h

/-- The identifier that a node refers to. -/
def refersTo? : Markdown.Node → Option String
  | .leaf (.imageReference _ identifier _ _) _ => some identifier
  | .branch (.linkReference identifier _ _) _ _ => some identifier
  | _ => none

/-- How the element of a reference changes if another target is put in its place than is found. -/
def retarget (found wanted : Option Definition) : Verdict :=
  if found = wanted then .same else if found.isSome then .changed else .grown

/-- How a page changes at a node when references are resolved. -/
def retargeted (body : List Markdown.Node) (look : String → Option Definition)
    (v : List Markdown.Node × Markdown.Node) : Verdict :=
  ((refersTo? v.2).map fun identifier => retarget (outerDefinition? body identifier) (look identifier)).getD .same

theorem retarget_self (found : Option Definition) : retarget found found = .same := if_pos rfl

theorem retarget_none (d : Definition) : retarget none (some d) = .grown := rfl

theorem retarget_some {d d' : Definition} (h : d ≠ d') : retarget (some d) (some d') = .changed := by
  rw [retarget, if_neg fun same => h (Option.some.inj same)]
  rfl

theorem retarget_eq_same {found wanted : Option Definition} : retarget found wanted = .same ↔ found = wanted := by
  unfold retarget
  split
  · simp [*]
  · split <;> simp [*]

/-! ### Elements of references -/

variable {r : Rewriting} {ss : List Scope} {vs : List Verdict} {ns ms : List Html.Node}

theorem link_properties_inj {d d' : Definition}
    (h : Properties.ofList (("href", .text d.url) :: optional "title" d.title) =
      Properties.ofList (("href", .text d'.url) :: optional "title" d'.title)) : d = d' := by
  obtain ⟨url, title⟩ := d
  obtain ⟨url', title'⟩ := d'
  cases title <;> cases title' <;>
    simp_all [Properties.ofList, Properties.empty, Properties.set, Properties.setIn, optional]

theorem image_properties_inj {lazy : Bool} {alt : String} {d d' : Definition}
    (h : Properties.ofList ([("src", .text d.url), ("alt", .text alt)] ++ optional "title" d.title ++
        if lazy then [("loading", .text "lazy")] else []) =
      Properties.ofList ([("src", .text d'.url), ("alt", .text alt)] ++ optional "title" d'.title ++
        if lazy then [("loading", .text "lazy")] else [])) : d = d' := by
  obtain ⟨url, title⟩ := d
  obtain ⟨url', title'⟩ := d'
  cases lazy <;> cases title <;> cases title' <;>
    simp_all [Properties.ofList, Properties.empty, Properties.set, Properties.setIn, optional]

theorem Alike.retarget_link (h : Alike vs ns ms) (found : Option Definition) (d : Definition) :
    Alike (retarget found (some d) :: vs) ((found.map fun d => [link d.url d.title ns]).getD ns)
      [link d.url d.title ms] := by
  cases found with
  | none =>
    rw [retarget_none]
    exact h.grown
  | some d' =>
    by_cases same : d' = d
    · rw [same, retarget_self]
      exact h.around ..
    · rw [retarget_some same]
      exact h.changed (mt link_properties_inj same)

theorem Alike.retarget_image (lazy : Bool) (alt : String) (found : Option Definition) (d : Definition) :
    Alike [retarget found (some d)] ((found.map fun d => [image lazy d.url alt d.title]).getD [.text alt])
      [image lazy d.url alt d.title] := by
  cases found with
  | none =>
    rw [retarget_none]
    exact .grown_leaf alt
  | some d' =>
    by_cases same : d' = d
    · rw [same, retarget_self]
      exact .refl _
    · rw [retarget_some same]
      exact Alike.nil.changed (mt image_properties_inj same)

/-! ### Resolving a document -/

variable {options : Options} {p : Option Markdown.Position} {body : List Markdown.Node}
  {look : String → Option Definition}

theorem definition?_of_start {c : Context} (h : c.definitions = (start options p body).definitions)
    (identifier : String) : c.definition? identifier = outerDefinition? body identifier := by
  rw [Context.definition?, h, lookup_definitions_start]

section
variable {identifier : String} {label : Option String} {wanted : Option Definition}
  (known : (outerDefinition? body identifier).isSome → wanted.isSome)
include known

theorem twins_imageReference (alt : String) (kind : Markdown.ReferenceKind) :
    Twins r (start options p body).definitions ss (Alike [retarget (outerDefinition? body identifier) wanted])
      (leaf (.imageReference alt identifier label kind))
      (leaf ((wanted.map fun d => .image d.url alt d.title).getD (.text alt))) := by
  cases wanted with
  | none =>
    have none : outerDefinition? body identifier = none := by simpa using known
    refine .ask fun c hd _ => ?_
    dsimp only
    rw [definition?_of_start hd, none]
    exact .pure (.refl _)
  | some d =>
    refine .ask fun c hd _ => ?_
    dsimp only
    rw [definition?_of_start hd]
    have alike (found : Option Definition) := Alike.retarget_image c.options.lazyImages alt found d
    cases outerDefinition? body identifier with
    | none => exact .pure (alike none)
    | some d' => exact .pure (alike (some d'))

theorem twins_linkReference (kind : Markdown.ReferenceKind) (children children' : List Markdown.Node)
    (alike : Alike vs ns ms) :
    Twins r (start options p body).definitions ss (Alike (retarget (outerDefinition? body identifier) wanted :: vs))
      (wrap (.linkReference identifier label kind) children ns)
      (wrap ((wanted.map fun d => .link d.url d.title).getD .root) children' ms) := by
  cases wanted with
  | none =>
    have none : outerDefinition? body identifier = none := by simpa using known
    refine .ask fun c hd _ => ?_
    dsimp only
    rw [definition?_of_start hd, none]
    exact .pure (Alike.same_cons_iff.2 alike)
  | some d =>
    refine .ask fun c hd _ => ?_
    dsimp only
    rw [definition?_of_start hd]
    cases outerDefinition? body identifier with
    | none => exact .pure (alike.retarget_link none d)
    | some d' => exact .pure (alike.retarget_link (some d') d)

end

/-- A table that knows all that is defined outside of footnotes changes nothing but references. -/
theorem suits_resolving (known : ∀ identifier, (outerDefinition? body identifier).isSome → (look identifier).isSome) :
    (resolving look).Suits (start options p body).definitions (retargeted body look) where
  leaf around l q ss := by
    cases l with
    | imageReference alt identifier label kind => exact twins_imageReference (known identifier) alt kind
    | _ => exact twins_leaf _
  wrap {around kind} q children children' {ss vs ns ms} wrapper _ alike := by
    cases kind with
    | linkReference identifier label kind => exact twins_linkReference (known identifier) kind children children' alike
    | _ => exact twins_wrap wrapper (fun _ _ => rfl) _ _ alike
  other around kind q children h := by
    cases kind with
    | linkReference => cases h
    | _ => rfl

/-- What such a table makes of a document looks the same exactly if it agrees on what is referred to. -/
theorem render_resolving_iff
    (known : ∀ identifier, (outerDefinition? body identifier).isSome → (look identifier).isSome)
    (hhtml : NoHtml (Markdown.Node.leavesAll body)) :
    (render options (.branch .root p body)).value =
        (render options (.branch .root p ((resolving look).nodes [] body))).value ↔
      ∀ v ∈ pageVisits body, ∀ identifier ∈ refersTo? v.2, outerDefinition? body identifier = look identifier := by
  rw [render_eq_iff (suits_resolving known) hhtml]
  refine forall₂_congr fun v _ => ?_
  unfold retargeted
  cases refersTo? v.2 with
  | none => simp
  | some identifier => simp [retarget_eq_same]

/-- References lead to the first definition outside of footnotes, in front of them or behind. -/
theorem render_resolving_outer (hhtml : NoHtml (Markdown.Node.leavesAll body)) :
    (render options (.branch .root p body)).value =
      (render options (.branch .root p ((resolving (outerDefinition? body)).nodes [] body))).value :=
  (render_resolving_iff (fun _ => id) hhtml).2 fun _ _ _ _ => rfl

/-- They lead to the first definition of the document exactly if, for each identifier that is referred to on the page,
this stands outside of footnotes, or gives the same target as the first one that does. -/
theorem render_resolving_definitions_iff (options : Options) (p : Option Markdown.Position) (body : List Markdown.Node)
    (hhtml : NoHtml (Markdown.Node.leavesAll body)) :
    (render options (.branch .root p body)).value =
        (render options (.branch .root p ((resolving (definition? body)).nodes [] body))).value ↔
      ∀ v ∈ pageVisits body, ∀ identifier ∈ refersTo? v.2,
        outerDefinition? body identifier = definition? body identifier :=
  render_resolving_iff (fun _ => isSome_definition?_of_outer) hhtml

/-- A document with references in its text and in a footnote, and a definition in a quote behind them that counts before
another one of the same name. -/
def quotedDefinition : List Markdown.Node :=
  [.branch .paragraph none [.branch (.linkReference "Docs" none .shortcut) none [.leaf (.text "docs") none],
      .leaf (.imageReference "photo" "nut" none .shortcut) none, .leaf (.footnoteReference "a" none) none],
    .branch (.footnoteDefinition "a" none) none
      [.branch .paragraph none [.branch (.linkReference "docs" none .shortcut) none [.leaf (.text "more") none]]],
    .branch .blockquote none [.leaf (.definition "https://example.com" (some "Docs") "docs" none) none],
    .leaf (.definition "https://example.com/old" none "DOCS" none) none]

theorem render_resolving_definitions_quotedDefinition :
    NoHtml (Markdown.Node.leavesAll quotedDefinition) ∧
      (render {} (.branch .root none quotedDefinition)).value = (render {} (.branch .root none
        ((resolving (definition? quotedDefinition)).nodes [] quotedDefinition))).value := by
  have hhtml : NoHtml (Markdown.Node.leavesAll quotedDefinition) := noHtml_of_isProper (by decide +kernel)
  exact ⟨hhtml, (render_resolving_definitions_iff {} none quotedDefinition hhtml).2 (by decide +kernel)⟩

/-- A document whose only definition stands in a footnote. -/
def noteDefinition : List Markdown.Node :=
  [.branch .paragraph none [.branch (.linkReference "docs" none .shortcut) none [.leaf (.text "docs") none],
      .leaf (.footnoteReference "a" none) none],
    .branch (.footnoteDefinition "a" none) none [.branch .paragraph none [.leaf (.text "Note.") none],
      .leaf (.definition "https://example.com" none "docs" none) none]]

/-- The link to what is defined in the footnote is not resolved. -/
theorem render_ne_resolving_noteDefinition :
    NoHtml (Markdown.Node.leavesAll noteDefinition) ∧
      (render {} (.branch .root none noteDefinition)).value ≠ (render {} (.branch .root none
        ((resolving (definition? noteDefinition)).nodes [] noteDefinition))).value := by
  have hhtml : NoHtml (Markdown.Node.leavesAll noteDefinition) := noHtml_of_isProper (by decide +kernel)
  refine ⟨hhtml, fun same => ?_⟩
  have agree := (render_resolving_iff (fun _ => isSome_definition?_of_outer) hhtml).1 same
  exact absurd agree (by decide +kernel)

end Folio.Rendering
