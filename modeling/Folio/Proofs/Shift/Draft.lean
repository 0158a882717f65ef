import Folio.Draft
import Folio.Proofs.Shift.Piece

/-!
# Drafts under a shift

Where a text stands shows in the failures and the warnings of the steps before the rendering, and nowhere else: their
text is that of the shifted nodes, and files are included into the same blocks (`includeFiles_shift`).
-/

namespace Folio

open Markdown (Shift shiftNodes shiftNodes_eq_map)

variable (s : Shift)

/-! ### Texts -/

namespace Draft

theorem breakBefore_shift (n : Markdown.Node) (done : List Char) : breakBefore (n.shift s) done = breakBefore n done := by
  have block : isBlock (n.shift s) = isBlock n := by
    rcases n with ⟨l, p⟩ | ⟨kind, p, cs⟩
    · cases l <;> rfl
    · cases kind <;> rfl
  rw [breakBefore, block, breakBefore]

mutual

theorem collectText_shift (done : List Char) (n : Markdown.Node) : collectText done (n.shift s) = collectText done n := by
  match n with
  | .leaf l p => rfl
  | .branch kind p cs => exact collectTextAll_shift done cs

theorem collectTextAll_shift (done : List Char) (ns : List Markdown.Node) :
    collectTextAll done (shiftNodes s ns) = collectTextAll done ns := by
  match ns with
  | [] => rfl
  | n :: ns =>
    rw [shiftNodes, collectTextAll, breakBefore_shift, collectText_shift _ n, collectTextAll_shift _ ns, collectTextAll]

end

/-- A block of data in front adds nothing to the text of a document. -/
theorem plainText_behind_data (value : String) (p q p' : Option Markdown.Position) (ns : List Markdown.Node) :
    plainText (.branch .root p (.leaf (.yaml value) q :: ns.map (.shift s))) = plainText (.branch .root p' ns) := by
  have text := collectTextAll_shift s [] ns
  rw [shiftNodes_eq_map] at text
  exact congrArg (fun cs => String.ofList cs.reverse) text

end Draft

/-! ### Includes -/

theorem Include.toOption_read (files : Storage) (m : String) (ctx : IncludeContext) (loc loc' : Option Location) :
    (read files m ctx loc).value.toOption = (read files m ctx loc').value.toOption := by
  unfold read
  simp only [Logged.value_bind]
  cases (CodeMeta.parse m).value with
  | error e => rfl
  | ok meta' =>
    dsimp only
    cases meta'.file? with
    | none => rfl
    | some reference =>
      dsimp only
      cases violatedRoot? ctx.root _ with
      | some r => rfl
      | none =>
        dsimp only
        cases files.look _ <;> rfl

namespace Draft

/-- The second result is the shifted first one; both stop, or none does. -/
structure Included.Moved {α : Type} (f : α → α) (r r' : Included α) : Prop where
  value : r'.value = f r.value
  stop : r'.stop.isSome = r.stop.isSome

mutual

theorem includeFiles_shift (files : Storage) (ctx : IncludeContext) (n : Markdown.Node) :
    (includeFiles files ctx n).value.Moved (.shift s) (includeFiles files ctx (n.shift s)).value := by
  match n with
  | .leaf l p =>
    rcases l with _ | _ | _ | ⟨value, lang, _ | metaText⟩ <;> try exact ⟨rfl, rfl⟩
    have read := Include.toOption_read files metaText ctx (p.map (locate ctx.document))
      ((p.map (.shift s)).map (locate ctx.document))
    simp only [Markdown.Node.shift_leaf, includeFiles, Logged.value_bind]
    revert read
    generalize (Include.read files metaText ctx (p.map (locate ctx.document))).value = r
    generalize (Include.read files metaText ctx ((p.map (.shift s)).map (locate ctx.document))).value = r'
    intro read
    rcases r with e | _ | text <;> rcases r' with e' | _ | text' <;> simp only [Except.toOption] at read <;>
      first | exact ⟨rfl, rfl⟩ | cases read
    exact ⟨rfl, rfl⟩
  | .branch kind p cs =>
    obtain ⟨value, stop⟩ := includeAll_shift files ctx cs
    rw [Markdown.Node.shift_branch]
    exact ⟨(congrArg (Markdown.Node.branch kind _) value).trans (Markdown.Node.shift_branch s kind p _).symm, stop⟩

theorem includeAll_shift (files : Storage) (ctx : IncludeContext) (ns : List Markdown.Node) :
    (includeAll files ctx ns).value.Moved (.map (.shift s)) (includeAll files ctx (ns.map (.shift s))).value := by
  match ns with
  | [] => exact ⟨rfl, rfl⟩
  | n :: ns =>
    have first := includeFiles_shift files ctx n
    have rest := includeAll_shift files ctx ns
    obtain ⟨value, stop⟩ := first
    simp only [List.map_cons, includeAll, Logged.value_bind]
    revert value stop
    generalize (includeFiles files ctx n).value = r
    generalize (includeFiles files ctx (n.shift s)).value = r'
    obtain ⟨v, k, stop⟩ := r
    obtain ⟨v', k', stop'⟩ := r'
    rintro rfl stops
    cases stop <;> cases stop' <;> try cases stops
    · exact ⟨congrArg (v.shift s :: ·) rest.value, rest.stop⟩
    · exact ⟨rfl, rfl⟩

end

end Draft

end Folio
