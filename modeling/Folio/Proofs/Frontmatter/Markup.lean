import Folio.Proofs.Shift.Rendering

/-!
# Documents of markup

A document of nothing but markup is read as one piece of HTML, but piece by piece behind a block of data, since the
block counts as a node beside the markup (`value_render_behind_data_iff`).
-/

namespace Folio.Rendering

open Html

/-- The markup of a node that is nothing else. -/
def markup? : Markdown.Node → Option String
  | .leaf (.html html) _ => some html
  | _ => none

/-- The markup of a document that has nothing else is read alike as a whole and piece by piece. -/
def Seamless (options : Options) (ns : List Markdown.Node) : Prop :=
  options.allowRawHtml = true → isMixed ns = true →
    assemble ((ns.filterMap markup?).map .markup) = (ns.filterMap markup?).flatMap Fragment.parse

theorem exists_of_isHtml {n : Markdown.Node} (h : isHtml n = true) : ∃ html p, n = .leaf (.html html) p := by
  rcases n with ⟨l, p⟩ | ⟨kind, p, cs⟩
  · cases l with
    | html html => exact ⟨html, p, rfl⟩
    | _ => nomatch h
  · nomatch h

variable {ns : List Markdown.Node} (h : ∀ n ∈ ns, isHtml n = true)
include h

theorem run_renderEach_mixed (c : Context) :
    ((renderEach true ns).run c).value = ((ns.filterMap markup?).map .markup, c) := by
  induction ns with
  | nil => rfl
  | cons n ns ih =>
    obtain ⟨hn, hns⟩ := List.forall_mem_cons.1 h
    obtain ⟨html, p, rfl⟩ := exists_of_isHtml hn
    rw [renderEach_cons]
    exact congrArg (fun r : List Slot × Context => (Slot.markup html :: r.1, r.2)) (ih hns)

theorem run_renderEach_apart {c : Context} (hc : c.options.allowRawHtml = true) :
    ((renderEach false ns).run c).value =
      ((ns.filterMap markup?).map fun html => .rendered (Fragment.parse html), c) := by
  induction ns with
  | nil => rfl
  | cons n ns ih =>
    obtain ⟨hn, hns⟩ := List.forall_mem_cons.1 h
    obtain ⟨html, p, rfl⟩ := exists_of_isHtml hn
    have first : (renderPart false (.leaf (.html html) p)).run c = ⟨(.rendered (Fragment.parse html), c), []⟩ := by
      have read : (leaf (.html html)).run c = ⟨(Fragment.parse html, c), []⟩ := by
        show (if c.options.allowRawHtml then _ else _ : Render (List Html.Node)).run c = _
        rw [if_pos hc]
        rfl
      exact congrArg (fun r : Logged (List Html.Node × Context) =>
        (⟨(Slot.rendered r.value.1, r.value.2), r.log ++ []⟩ : Logged (Slot × Context))) read
    rw [renderEach_cons, StateT.run_bind, first]
    exact congrArg (fun r : List Slot × Context => (Slot.rendered (Fragment.parse html) :: r.1, r.2)) (ih hns)

theorem ofTree_markup (options : Options) (p : Option Markdown.Position) :
    Context.ofTree options (.branch .root p ns) = { options } := by
  have all (c : Context) : collectAll c ns = c := by
    induction ns with
    | nil => rfl
    | cons n ns ih =>
      obtain ⟨hn, hns⟩ := List.forall_mem_cons.1 h
      obtain ⟨html, p, rfl⟩ := exists_of_isHtml hn
      exact ih hns
  exact all _

omit h

/-- Behind a block of data the markup of a document that has nothing else is read piece by piece. -/
theorem value_render_behind_data_iff (h : isMixed ns = true → ∀ n ∈ ns, isHtml n = true)
    (s : Markdown.Shift) (options : Options) (value : String) (p q p' : Option Markdown.Position) :
    (render options (.branch .root p (.leaf (.yaml value) q :: ns.map (.shift s)))).value =
      (render options (.branch .root p' ns)).value ↔ Seamless options ns := by
  rw [value_render_behind_data s options value p q p', value_render]
  by_cases allowed : options.allowRawHtml = true
  · by_cases mixed : isMixed ns = true
    · have markup := h mixed
      have whole : ((renderPage true ns).run { options }).value.1 = assemble ((ns.filterMap markup?).map .markup) := by
        rw [renderPage, StateT.run_bind, Logged.value_bind, run_renderEach_mixed markup]
        exact List.append_nil _
      have apart : ((renderPage false ns).run { options }).value.1 = (ns.filterMap markup?).flatMap Fragment.parse := by
        rw [renderPage, StateT.run_bind, Logged.value_bind, run_renderEach_apart markup allowed]
        refine (List.append_nil _).trans ?_
        simp [combine, List.flatMap_map]
      rw [ofTree_markup markup, allowed, mixed, Bool.and_true, whole, apart, Html.Node.root.injEq, eq_comm]
      exact ⟨fun e _ _ => e, fun e => e allowed mixed⟩
    · rw [eq_false_of_ne_true mixed, Bool.and_false]
      exact ⟨fun _ _ m => absurd m mixed, fun _ => rfl⟩
  · rw [eq_false_of_ne_true allowed, Bool.false_and]
    exact ⟨fun _ a => absurd a allowed, fun _ => rfl⟩

end Folio.Rendering
