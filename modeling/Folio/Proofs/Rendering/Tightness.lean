import Folio.Proofs.Footnote.Consistency
import Folio.Proofs.Rendering.Lockstep

/-!
# Paragraphs without an element

A paragraph has no element of its own where a rule says that it is bare. `unwrapping` applies such a rule before a
document is rendered: the content takes the place of a bare paragraph, and all lists become loose, so the other
paragraphs keep their elements. A rendering goes by the innermost list or table around a paragraph
(`render_unwrapping_tight`). That is too often for the rule that asks for the item of a list without any space in it:
`render_unwrapping_items_iff` says when it makes no difference.
-/

namespace Folio.Rendering

open Html

/-- Makes all lists loose and puts the content of bare paragraphs in their place. -/
def unwrapping (bare : List Markdown.Node → Bool) : Rewriting where
  leaf := id
  branch around
    | .paragraph => if bare around then .root else .paragraph
    | kind => kind
  spread _ := true
  definitionOf?_leaf _ := rfl
  noHtml_leaf _ h := h
  isWrapper_branch around kind h := by
    cases kind with
    | paragraph => cases bare around <;> rfl
    | _ => exact h

def isParagraph : Markdown.Node → Bool
  | .branch .paragraph _ _ => true
  | _ => false

/-- Is a node an item with space between its parts? -/
def isSpread : Markdown.Node → Bool
  | .branch (.listItem spread _) _ _ => spread
  | _ => false

/-- Is the branch around a node an item of a list without space, neither between its items nor within any of them? -/
def isTightItem : List Markdown.Node → Bool
  | .branch (.listItem ..) _ _ :: .branch (.list _ _ spread) _ items :: _ => !spread && !items.any isSpread
  | _ => false

theorem isInTightList_of_isTightItem {around : List Markdown.Node} (h : isTightItem around = true) :
    isInTightList around = true := by
  unfold isTightItem at h
  split at h
  · exact (Bool.and_eq_true_iff.1 h).1
  · cases h

/-- How a page changes at a node: a paragraph that is in a tight list but not bare gets an element. -/
def unwrapped (bare : List Markdown.Node → Bool) (v : List Markdown.Node × Markdown.Node) : Verdict :=
  if isParagraph v.2 && isInTightList v.1 && !bare v.1 then .grown else .same

theorem unwrapped_eq_same {bare : List Markdown.Node → Bool} {v : List Markdown.Node × Markdown.Node} :
    unwrapped bare v = .same ↔ (isParagraph v.2 = true → isInTightList v.1 = true → bare v.1 = true) := by
  unfold unwrapped
  cases isParagraph v.2 <;> cases isInTightList v.1 <;> cases bare v.1 <;> simp

variable {options : Options} {p : Option Markdown.Position} {body : List Markdown.Node}
  {bare : List Markdown.Node → Bool} {ds : List (String × Definition)} {ss : List Scope} {vs : List Verdict}
  {ns ms : List Html.Node}

theorem isTight_state_unwrapping (c : Context) : ((unwrapping bare).state c).isTight = false := by
  rw [Context.isTight, Rewriting.scope_state]
  cases c.scope <;> simp [Rewriting.scope, unwrapping]

theorem twins_paragraph (tight : ∀ around, bare around = true → isInTightList around = true)
    {around : List Markdown.Node} (hmatches : Matches ss around) (q : Option Markdown.Position)
    (children children' : List Markdown.Node) (alike : Alike vs ns ms) :
    Twins (unwrapping bare) ds ss (Alike (unwrapped bare (around, .branch .paragraph q children) :: vs))
      (wrap .paragraph children ns) (wrap ((unwrapping bare).branch around .paragraph) children' ms) := by
  cases hbare : bare around with
  | true =>
    have branch : (unwrapping bare).branch around .paragraph = .root := if_pos hbare
    rw [branch, unwrapped_eq_same.2 fun _ _ => hbare]
    refine .ask fun c _ hs => .pure ?_
    rw [hmatches.isTight hs, tight around hbare]
    exact Alike.same_cons_iff.2 alike
  | false =>
    have branch : (unwrapping bare).branch around .paragraph = .paragraph := if_neg (by simp [hbare])
    -- On the other side all lists are loose, so the paragraph has its element there.
    rw [branch]
    refine .ask fun c _ hs => .pure ?_
    rw [hmatches.isTight hs, isTight_state_unwrapping]
    cases inside : isInTightList around with
    | true =>
      have grown : unwrapped bare (around, .branch .paragraph q children) = .grown := by
        simp [unwrapped, isParagraph, inside, hbare]
      rw [grown]
      exact alike.grown
    | false =>
      rw [unwrapped_eq_same.2 fun _ tight => absurd (inside ▸ tight) Bool.false_ne_true]
      exact alike.around ..

/-- A rule for some of the paragraphs in tight lists changes nothing but the other ones. -/
theorem suits_unwrapping (tight : ∀ around, bare around = true → isInTightList around = true) :
    (unwrapping bare).Suits ds (unwrapped bare) where
  leaf around l q ss := twins_leaf l
  wrap {around kind} q children children' {ss vs ns ms} wrapper hmatches alike := by
    cases kind with
    | paragraph => exact twins_paragraph tight hmatches q children children' alike
    | _ => exact twins_wrap wrapper nofun _ _ alike
  other around kind q children h := by
    cases kind with
    | paragraph => cases h
    | _ => rfl

/-- Such a rule leaves the page as it is exactly if it holds of all the paragraphs in tight lists. -/
theorem render_unwrapping_iff (tight : ∀ around, bare around = true → isInTightList around = true)
    (hhtml : NoHtml (Markdown.Node.leavesAll body)) :
    (render options (.branch .root p body)).value =
        (render options (.branch .root p ((unwrapping bare).nodes [] body))).value ↔
      ∀ v ∈ pageVisits body, isParagraph v.2 = true → isInTightList v.1 = true → bare v.1 = true := by
  rw [render_eq_iff (suits_unwrapping tight) hhtml]
  exact forall₂_congr fun _ _ => unwrapped_eq_same

/-- Paragraphs are unwrapped where the innermost list or table around them is a list without space between its items. -/
theorem render_unwrapping_tight (hhtml : NoHtml (Markdown.Node.leavesAll body)) :
    (render options (.branch .root p body)).value =
      (render options (.branch .root p ((unwrapping isInTightList).nodes [] body))).value :=
  (render_unwrapping_iff (fun _ => id) hhtml).2 fun _ _ _ => id

/-- Only the paragraphs of tight items are unwrapped exactly if all paragraphs in tight lists are of that kind: none
stands in a quote within an item, and no item of such a list has space between its own parts. -/
theorem render_unwrapping_items_iff (options : Options) (p : Option Markdown.Position) (body : List Markdown.Node)
    (hhtml : NoHtml (Markdown.Node.leavesAll body)) :
    (render options (.branch .root p body)).value =
        (render options (.branch .root p ((unwrapping isTightItem).nodes [] body))).value ↔
      ∀ v ∈ pageVisits body, isParagraph v.2 = true → isInTightList v.1 = true → isTightItem v.1 = true :=
  render_unwrapping_iff (fun _ => isInTightList_of_isTightItem) hhtml

/-- A tight list within an item of a loose one, with a quote in front. -/
def nestedLists : List Markdown.Node :=
  [.branch (.list false none true) none [.branch (.listItem true none) none
    [.branch .paragraph none [.leaf (.text "loose") none],
      .branch .blockquote none [.branch .paragraph none [.leaf (.text "quoted") none]],
      .branch (.list false none false) none
        [.branch (.listItem false none) none [.branch .paragraph none [.leaf (.text "tight") none]]]]]]

theorem render_unwrapping_items_nestedLists :
    NoHtml (Markdown.Node.leavesAll nestedLists) ∧ (render {} (.branch .root none nestedLists)).value =
      (render {} (.branch .root none ((unwrapping isTightItem).nodes [] nestedLists))).value := by
  have hhtml : NoHtml (Markdown.Node.leavesAll nestedLists) := noHtml_of_isProper (by decide +kernel)
  exact ⟨hhtml, (render_unwrapping_items_iff {} none nestedLists hhtml).2 (by decide +kernel)⟩

/-- A list of one item that has space between its two paragraphs. -/
def spreadItem : List Markdown.Node :=
  [.branch (.list false none false) none [.branch (.listItem true none) none
    [.branch .paragraph none [.leaf (.text "a") none], .branch .paragraph none [.leaf (.text "b") none]]]]

/-- The paragraphs of the item are glued together. -/
theorem render_ne_unwrapping_spreadItem :
    NoHtml (Markdown.Node.leavesAll spreadItem) ∧ (render {} (.branch .root none spreadItem)).value ≠
      (render {} (.branch .root none ((unwrapping isTightItem).nodes [] spreadItem))).value := by
  have hhtml : NoHtml (Markdown.Node.leavesAll spreadItem) := noHtml_of_isProper (by decide +kernel)
  refine ⟨hhtml, fun same => ?_⟩
  have agree := (render_unwrapping_iff (fun _ => isInTightList_of_isTightItem) hhtml).1 same
  exact absurd agree (by decide +kernel)

end Folio.Rendering
