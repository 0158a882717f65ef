import Folio.Proofs.Html.Acceptance
import Folio.Proofs.Html.Copying
import Folio.Proofs.Html.Steps
import Mathlib.Data.List.Perm.Basic
import Mathlib.Data.List.Nodup

/-!
# The order of the steps

Two orders of the same steps come to the same if the steps that they order differently trade places
(`foldlM_eq_of_perm`). Behind the rendering most steps do; those that do not, ids before links and sections before the
title, are kept in order by `withPasses`, all but ids before sections.
-/

namespace Folio.Pipeline

open Html Heading CodeBlock Outline

/-! ### Steps that trade places -/

section

variable {m : Type → Type} [Monad m] [LawfulMonad m] {σ ι : Type} {step : σ → ι → m σ} {a b x : ι}

/-- The order of two steps makes no difference. -/
def Trades (step : σ → ι → m σ) (a b : ι) : Prop :=
  ∀ s, (step s a >>= fun s => step s b) = step s b >>= fun s => step s a

omit [LawfulMonad m] in
theorem Trades.symm (h : Trades step a b) : Trades step b a := fun s => (h s).symm

/-- A step may come before all steps that it trades places with. -/
theorem foldlM_middle {front : List ι} (h : ∀ y ∈ front, Trades step x y) (back : List ι) (s : σ) :
    (front ++ x :: back).foldlM step s = (x :: (front ++ back)).foldlM step s := by
  induction front generalizing s with
  | nil => rfl
  | cons y front ih =>
    obtain ⟨hy, hfront⟩ := List.forall_mem_cons.1 h
    calc (y :: (front ++ x :: back)).foldlM step s
        = step s y >>= fun s => (x :: (front ++ back)).foldlM step s := by
          simp only [List.foldlM_cons, ← ih hfront]
      _ = (step s y >>= fun s => step s x) >>= fun s => (front ++ back).foldlM step s := by
          simp only [List.foldlM_cons, bind_assoc]
      _ = (step s x >>= fun s => step s y) >>= fun s => (front ++ back).foldlM step s := by rw [hy s]
      _ = (x :: (y :: front ++ back)).foldlM step s := by
          simp only [List.cons_append, List.foldlM_cons, bind_assoc]

/-- Two orders of the same steps come to the same if the steps that they order differently trade places. -/
theorem foldlM_eq_of_perm {l₁ l₂ : List ι} (perm : l₁.Perm l₂)
    (trades : ∀ a b, [a, b].Sublist l₁ → [b, a].Sublist l₂ → Trades step a b) (s : σ) :
    l₁.foldlM step s = l₂.foldlM step s := by
  -- the first step of one order is moved to the front of the other
  induction l₁ generalizing l₂ s with
  | nil => rw [List.nil_perm.1 perm]
  | cons x l ih =>
    obtain ⟨front, back, rfl⟩ := List.append_of_mem (perm.mem_iff.1 List.mem_cons_self)
    have perm : l.Perm (front ++ back) := (List.perm_cons x).1 (perm.trans List.perm_middle)
    have first (y : ι) (hy : y ∈ front) : Trades step x y := by
      refine trades x y ?_ ?_
      · exact (List.singleton_sublist.2 (perm.mem_iff.2 (List.mem_append_left back hy))).cons_cons x
      · exact (List.singleton_sublist.2 hy).append (List.singleton_sublist.2 List.mem_cons_self)
    have rest (a b : ι) (h₁ : [a, b].Sublist l) (h₂ : [b, a].Sublist (front ++ back)) : Trades step a b :=
      trades a b (h₁.cons x) (h₂.trans ((List.sublist_cons_self x back).append_left front))
    rw [foldlM_middle first, List.foldlM_cons, List.foldlM_cons]
    exact bind_congr fun s => ih perm rest s

end

/-! ### Orders that are accepted -/

variable {before behind ps : List HtmlPass} {p r : HtmlPass}

theorem HtmlPass.mem_of_lacks?_eq_none (h : p.lacks? before behind = none) (hr : p.requires? = some r) :
    r ∈ before := by
  by_contra missing
  have lacking : (some r).filter (fun r => !before.contains r) = some r := by simp [Option.filter, missing]
  rw [lacks?, hr, lacking] at h
  cases h

theorem HtmlPass.notMem_of_lacks?_eq_none (h : p.lacks? before behind = none) (hr : p.after? = some r) :
    r ∉ behind := by
  intro present
  rw [lacks?] at h
  split at h
  · cases h
  · simp [hr, present] at h

theorem lacks?_of_misplaced?_eq_none (h : misplaced? before ps = none) {front back : List HtmlPass}
    (hps : ps = front ++ p :: back) : p.lacks? (before ++ front) back = none := by
  subst hps
  have lack := misplaced?_eq_none_iff.1 h front.length
  simpa [lackAt?] using lack

theorem misplaced?_of_withPasses {markdown : List MarkdownPass} {options : Options} {pipeline : Pipeline}
    (h : withPasses markdown ps options = .ok pipeline) :
    misplaced? [] ps = none ∧ pipeline = ⟨markdown, ps, options, none⟩ := by
  rw [withPasses_eq] at h
  cases misplaced : misplaced? [] ps with
  | some found =>
    rw [misplaced] at h
    cases h
  | none =>
    rw [misplaced] at h
    exact ⟨rfl, (Except.ok.inj h).symm⟩

theorem idxOf_of_eq_append {front back : List HtmlPass} (nodup : ps.Nodup) (hps : ps = front ++ p :: back) :
    ps.idxOf p = front.length := by
  subst hps
  have fresh : p ∉ front := fun hp => (List.nodup_append.1 nodup).2.2 p hp p List.mem_cons_self rfl
  rw [List.idxOf_append_of_notMem fresh, List.idxOf_cons_self, Nat.add_zero]

/-- In an order that is accepted a step stands behind the one that it requires. -/
theorem idxOf_lt_of_requires? (ok : misplaced? [] ps = none) (nodup : ps.Nodup) (hp : p ∈ ps)
    (hr : p.requires? = some r) : ps.idxOf r < ps.idxOf p := by
  obtain ⟨front, back, hps⟩ := List.append_of_mem hp
  have there := HtmlPass.mem_of_lacks?_eq_none (lacks?_of_misplaced?_eq_none ok hps) hr
  rw [List.nil_append] at there
  rw [idxOf_of_eq_append nodup hps, hps, List.idxOf_append_of_mem there]
  exact List.idxOf_lt_length_of_mem there

/-- In an order that is accepted a step stands behind the one that must not come later. -/
theorem idxOf_lt_of_after? (ok : misplaced? [] ps = none) (nodup : ps.Nodup) (hp : p ∈ ps) (mem : r ∈ ps)
    (hr : p.after? = some r) : ps.idxOf r < ps.idxOf p := by
  obtain ⟨front, back, hps⟩ := List.append_of_mem hp
  have notLater := HtmlPass.notMem_of_lacks?_eq_none (lacks?_of_misplaced?_eq_none ok hps) hr
  have other : r ≠ p := by
    rintro rfl
    cases r <;> cases hr
  have there : r ∈ front := by
    rw [hps, List.mem_append, List.mem_cons] at mem
    rcases mem with mem | mem | mem
    · exact mem
    · exact absurd mem other
    · exact absurd mem notLater
  rw [idxOf_of_eq_append nodup hps, hps, List.idxOf_append_of_mem there]
  exact List.idxOf_lt_length_of_mem there

theorem idxOf_lt_of_sublist (nodup : ps.Nodup) (h : [p, r].Sublist ps) : ps.idxOf p < ps.idxOf r := by
  obtain ⟨front, back, hps, hp, hr⟩ := List.cons_sublist_iff.1 h
  have hr := List.singleton_sublist.1 hr
  subst hps
  have fresh : r ∉ front := fun hf => (List.nodup_append.1 nodup).2.2 r hf r hr rfl
  rw [List.idxOf_append_of_mem hp, List.idxOf_append_of_notMem fresh]
  exact Nat.lt_of_lt_of_le (List.idxOf_lt_length_of_mem hp) (Nat.le_add_right _ _)

/-! ### Steps behind the rendering -/

theorem nest_eq (tree : Node) : nest tree = withChildren nestAll tree := by
  cases tree <;> rfl

theorem withChildren_comm {g h : List Node → List Node} (comm : ∀ ns, g (h ns) = h (g ns)) (tree : Node) :
    withChildren g (withChildren h tree) = withChildren h (withChildren g tree) := by
  cases tree with
  | root cs => exact congrArg Node.root (comm cs)
  | element t p cs => exact congrArg (Node.element t p) (comm cs)
  | text v => rfl

theorem injectTitle_withChildren {g : Node → Node} (keeps : ∀ title, g (titleHeading title) = titleHeading title)
    (document : String) (f : Option Frontmatter) (tree : Node) :
    injectTitle document f (withChildren (List.map g) tree) =
      (injectTitle document f tree).map (withChildren (List.map g)) := by
  cases f with
  | none => cases tree <;> rfl
  | some f =>
    cases tree with
    | root cs => simp only [withChildren, injectTitle, Except.map, List.map_cons, keeps]
    | element t p cs => simp only [withChildren, injectTitle, Except.map, List.map_cons, keeps]
    | text v => rfl

theorem assign_addCopyButtons (tree : Node) :
    assign (addCopyButtons tree).1 = ((addCopyButtons (assign tree).1).1, (assign tree).2) := by
  rw [addCopyButtons_fst, addCopyButtons_fst]
  cases tree with
  | root cs => simp only [assign, withChildren, Node.children, presentIds_wrappedAll, assignAll_wrapped, wrappedIn]
  | element t p cs =>
    simp only [assign, withChildren, Node.children, presentIds_wrappedAll, assignAll_wrapped, wrappedIn]
  | text v => rfl

variable (f : Option Frontmatter) (document : String)

theorem trades_highlight (p : HtmlPass) : Trades (advance f document) .highlight p := by
  intro s
  exact (bind_pure (advance f document s p)).symm

theorem trades_headingIds_codeCopy : Trades (advance f document) .headingIds .codeCopy := by
  intro s
  simp only [advance_headingIds, advance_codeCopy, bind, Except.bind, assign_addCopyButtons]

theorem trades_headingAnchors_codeCopy : Trades (advance f document) .headingAnchors .codeCopy := by
  intro s
  simp only [advance_headingAnchors, advance_codeCopy, bind, Except.bind, injectAnchors_fst, addCopyButtons_fst]
  rw [withChildren_comm (map_wrapped_anchored false)]

theorem trades_headingAnchors_sections : Trades (advance f document) .headingAnchors .sections := by
  intro s
  simp only [advance_headingAnchors, advance_sections, bind, Except.bind, injectAnchors_fst, nest_eq]
  rw [withChildren_comm (nestAll_map respects_anchored)]

theorem trades_codeCopy_sections : Trades (advance f document) .codeCopy .sections := by
  intro s
  simp only [advance_codeCopy, advance_sections, bind, Except.bind, addCopyButtons_fst, nest_eq]
  rw [withChildren_comm (nestAll_map respects_wrapped)]

theorem trades_headingAnchors_title : Trades (advance f document) .headingAnchors .title := by
  intro s
  have title := injectTitle_withChildren (g := anchored) (fun _ => rfl) document f s.tree
  simp only [advance_headingAnchors, advance_title, bind, Except.bind, injectAnchors_fst, title]
  cases injectTitle document f s.tree <;> rfl

theorem trades_codeCopy_title : Trades (advance f document) .codeCopy .title := by
  intro s
  have title := injectTitle_withChildren (g := wrapped false) (fun _ => rfl) document f s.tree
  simp only [advance_codeCopy, advance_title, bind, Except.bind, addCopyButtons_fst, title]
  cases injectTitle document f s.tree <;> rfl

/-! ### Runs -/

/-- An order of the steps other than highlighting that is accepted and in which headings get their ids before sections
are nested. -/
structure IsOrder (ps : List HtmlPass) : Prop where
  perm : ps.Perm HtmlPass.quiet
  ids_anchors : ps.idxOf .headingIds < ps.idxOf .headingAnchors
  sections_title : ps.idxOf .sections < ps.idxOf .title
  ids_sections : ps.idxOf .headingIds < ps.idxOf .sections

theorem IsOrder.nodup (h : IsOrder ps) : ps.Nodup := h.perm.nodup_iff.2 (by decide)

theorem isOrder_of_misplaced? (ok : misplaced? [] ps = none) (perm : ps.Perm HtmlPass.quiet)
    (ids : ps.idxOf .headingIds < ps.idxOf .sections) : IsOrder ps := by
  have nodup : ps.Nodup := perm.nodup_iff.2 (by decide)
  have mem {p : HtmlPass} (hp : p ∈ HtmlPass.quiet) : p ∈ ps := perm.mem_iff.2 hp
  exact ⟨perm, idxOf_lt_of_requires? ok nodup (mem (by decide)) rfl,
    idxOf_lt_of_after? ok nodup (mem (by decide)) (mem (by decide)) rfl, ids⟩

theorem trades_of_inverted {ps qs : List HtmlPass} (hp : IsOrder ps) (hq : IsOrder qs) {a b : HtmlPass}
    (ha : [a, b].Sublist ps) (hb : [b, a].Sublist qs) : Trades (advance f document) a b := by
  have first := idxOf_lt_of_sublist hp.nodup ha
  have second := idxOf_lt_of_sublist hq.nodup hb
  obtain ⟨-, hp₁, hp₂, hp₃⟩ := hp
  obtain ⟨-, hq₁, hq₂, hq₃⟩ := hq
  cases a <;> cases b
  case highlight.headingIds | highlight.headingAnchors | highlight.codeCopy | highlight.sections | highlight.title |
    highlight.highlight => exact trades_highlight f document _
  case headingIds.highlight | headingAnchors.highlight | codeCopy.highlight | sections.highlight | title.highlight =>
    exact (trades_highlight f document _).symm
  case headingIds.codeCopy => exact trades_headingIds_codeCopy f document
  case codeCopy.headingIds => exact (trades_headingIds_codeCopy f document).symm
  case headingAnchors.codeCopy => exact trades_headingAnchors_codeCopy f document
  case codeCopy.headingAnchors => exact (trades_headingAnchors_codeCopy f document).symm
  case headingAnchors.sections => exact trades_headingAnchors_sections f document
  case sections.headingAnchors => exact (trades_headingAnchors_sections f document).symm
  case headingAnchors.title => exact trades_headingAnchors_title f document
  case title.headingAnchors => exact (trades_headingAnchors_title f document).symm
  case codeCopy.sections => exact trades_codeCopy_sections f document
  case sections.codeCopy => exact (trades_codeCopy_sections f document).symm
  case codeCopy.title => exact trades_codeCopy_title f document
  case title.codeCopy => exact (trades_codeCopy_title f document).symm
  -- all others stand in one order only
  all_goals omega

/-- All accepted orders of the steps other than highlighting that give ids to the headings before they nest them come to
an end and make the same of a document: the same tree, headings and warnings, or the same failure. -/
theorem run_eq_of_order {html₁ html₂ : List HtmlPass} {markdown : List MarkdownPass} {options : Options}
    {p₁ p₂ : Pipeline} (h₁ : withPasses markdown html₁ options = .ok p₁)
    (h₂ : withPasses markdown html₂ options = .ok p₂)
    (perm₁ : html₁.Perm HtmlPass.quiet) (perm₂ : html₂.Perm HtmlPass.quiet)
    (ids₁ : html₁.idxOf .headingIds < html₁.idxOf .sections) (ids₂ : html₂.idxOf .headingIds < html₂.idxOf .sections)
    (files : Storage) (tree : Markdown.Node) :
    ∃ r, (p₁.run files tree f document).value? = some r ∧ (p₂.run files tree f document).value? = some r := by
  obtain ⟨ok₁, rfl⟩ := misplaced?_of_withPasses h₁
  obtain ⟨ok₂, rfl⟩ := misplaced?_of_withPasses h₂
  have order₁ := isOrder_of_misplaced? ok₁ perm₁ ids₁
  have order₂ := isOrder_of_misplaced? ok₂ perm₂ ids₂
  have same (g : Option Frontmatter) (s : Page) :
      html₁.foldlM (advance g document) s = html₂.foldlM (advance g document) s :=
    foldlM_eq_of_perm (perm₁.trans perm₂.symm) (fun a b => trades_of_inverted g document order₁ order₂) s
  rw [run_eq, run_eq]
  simp only [same]
  exact ⟨_, rfl, rfl⟩

/-- Notes with a heading, a block of code and a quoted heading. -/
def notes : Markdown.Node :=
  .branch .root none
    [.branch (.heading 2) none [.leaf (.text "Intro") none],
      .leaf (.code "let x = 1;" (some "rust") none) none,
      .branch .blockquote none [.branch (.heading 3) none [.leaf (.text "Intro") none]]]

/-- An order in which blocks get their containers first and headings their links last. -/
def copyFirst : List HtmlPass := [.codeCopy, .headingIds, .sections, .title, .headingAnchors]

theorem run_eq_copyFirst :
    let usual : Pipeline := ⟨MarkdownPass.all, HtmlPass.quiet, {}, none⟩
    let other : Pipeline := ⟨MarkdownPass.all, copyFirst, {}, none⟩
    withPasses MarkdownPass.all HtmlPass.quiet {} = .ok usual ∧ withPasses MarkdownPass.all copyFirst {} = .ok other ∧
      ∃ r, (usual.run .nothing notes (some postData) "notes.md").value? = some r ∧
        (other.run .nothing notes (some postData) "notes.md").value? = some r := by
  intro usual other
  have first : withPasses MarkdownPass.all HtmlPass.quiet {} = .ok usual := rfl
  have second : withPasses MarkdownPass.all copyFirst {} = .ok other := rfl
  exact ⟨first, second, run_eq_of_order (some postData) "notes.md" first second (.refl _) (by decide) (by decide)
    (by decide) .nothing notes⟩

end Folio.Pipeline
