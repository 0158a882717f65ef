import Folio.Pipeline
import Mathlib.Data.List.Basic

/-!
# Lists of steps that are accepted

`Admissible` says which lists of steps keep their order, by the places of the steps: links in headings need ids in
front of them, and no highlighting comes behind the copying of code, no sections behind the title. The search for a
misplaced step finds the first place that breaks one of these rules (`misplaced?_eq_some_iff`), so a list is accepted
just if it is admissible, and what it is refused for is its first step that is out of place.
-/

namespace Folio.Pipeline

variable {before behind ps : List HtmlPass} {p q r : HtmlPass} {i : Nat}

/-- A list of steps that keeps their order. -/
structure Admissible (ps : List HtmlPass) : Prop where
  anchors : ∀ i : Nat, ps[i]? = some .headingAnchors → ∃ j < i, ps[j]? = some .headingIds
  codeCopy : ∀ i j : Nat, ps[i]? = some .codeCopy → ps[j]? = some .highlight → ¬ i < j
  title : ∀ i j : Nat, ps[i]? = some .title → ps[j]? = some .sections → ¬ i < j

/-- The step at a place of a list is out of place, and the step that it depends on. -/
inductive Offends (ps : List HtmlPass) (i : Nat) : HtmlPass → HtmlPass → Prop where
  | anchors (here : ps[i]? = some .headingAnchors) (missing : ∀ j < i, ps[j]? ≠ some .headingIds) :
    Offends ps i .headingAnchors .headingIds
  | codeCopy (here : ps[i]? = some .codeCopy) {j : Nat} (behind : i < j) (later : ps[j]? = some .highlight) :
    Offends ps i .codeCopy .highlight
  | title (here : ps[i]? = some .title) {j : Nat} (behind : i < j) (later : ps[j]? = some .sections) :
    Offends ps i .title .sections

theorem admissible_iff_not_offends : Admissible ps ↔ ∀ i p q, ¬ Offends ps i p q := by
  constructor
  · rintro ⟨anchors, codeCopy, title⟩ i p q offends
    cases offends with
    | anchors here missing =>
      obtain ⟨j, lt, there⟩ := anchors i here
      exact missing j lt there
    | codeCopy here behind later => exact codeCopy _ _ here later behind
    | title here behind later => exact title _ _ here later behind
  · intro none
    refine ⟨fun i here => ?_, fun i j here later behind => ?_, fun i j here later behind => ?_⟩
    · by_contra missing
      exact none i _ _ (.anchors here fun j lt there => missing ⟨j, lt, there⟩)
    · exact none i _ _ (.codeCopy here behind later)
    · exact none i _ _ (.title here behind later)

/-! ### The search -/

theorem HtmlPass.lacks?_eq_some_iff : p.lacks? before behind = some q ↔
    (p = .headingAnchors ∧ q = .headingIds ∧ .headingIds ∉ before) ∨
      (p = .codeCopy ∧ q = .highlight ∧ .highlight ∈ behind) ∨
        (p = .title ∧ q = .sections ∧ .sections ∈ behind) := by
  cases p with
  | headingAnchors =>
    by_cases there : HtmlPass.headingIds ∈ before <;> simp [lacks?, requires?, after?, Option.filter, there, eq_comm]
  | codeCopy =>
    by_cases later : HtmlPass.highlight ∈ behind <;> simp [lacks?, requires?, after?, Option.filter, later, eq_comm]
  | title =>
    by_cases later : HtmlPass.sections ∈ behind <;> simp [lacks?, requires?, after?, Option.filter, later, eq_comm]
  | headingIds | highlight | sections => simp [lacks?, requires?, after?]

/-- What a step lacks, it lacks also with less in front of it and more behind it. -/
theorem HtmlPass.lacks?_mono {before' behind' : List HtmlPass} (h : p.lacks? before behind = none)
    (front : HtmlPass.headingIds ∈ before → HtmlPass.headingIds ∈ before') (back : behind' ⊆ behind) :
    p.lacks? before' behind' = none := by
  rw [Option.eq_none_iff_forall_not_mem] at h ⊢
  intro q hq
  rw [Option.mem_def, lacks?_eq_some_iff] at hq
  refine h q (lacks?_eq_some_iff.2 ?_)
  rcases hq with ⟨hp, hq, missing⟩ | ⟨hp, hq, later⟩ | ⟨hp, hq, later⟩
  · exact .inl ⟨hp, hq, mt front missing⟩
  · exact .inr (.inl ⟨hp, hq, back later⟩)
  · exact .inr (.inr ⟨hp, hq, back later⟩)

/-- The step at a place of a list, together with the one that it lacks there. -/
def lackAt? (before ps : List HtmlPass) (i : Nat) : Option (HtmlPass × HtmlPass) :=
  ps[i]?.bind fun p => (p.lacks? (before ++ ps.take i) (ps.drop (i + 1))).map (p, ·)

theorem lackAt?_cons_zero : lackAt? before (p :: ps) 0 = (p.lacks? before ps).map (p, ·) := by
  simp [lackAt?]

theorem lackAt?_cons_succ : lackAt? before (p :: ps) (i + 1) = lackAt? (before ++ [p]) ps i := by
  simp [lackAt?]

/-- The search finds the first place whose step lacks another one. -/
theorem misplaced?_eq_some_iff {found : HtmlPass × HtmlPass} : misplaced? before ps = some found ↔
    ∃ i, lackAt? before ps i = some found ∧ ∀ j < i, lackAt? before ps j = none := by
  induction ps generalizing before with
  | nil => simp [misplaced?, lackAt?]
  | cons p ps ih =>
    rw [misplaced?]
    cases lacks : p.lacks? before ps with
    | some q =>
      have first : lackAt? before (p :: ps) 0 = some (p, q) := by rw [lackAt?_cons_zero, lacks]; rfl
      constructor
      · rintro same
        exact ⟨0, first.trans same, fun j lt => absurd lt (Nat.not_lt_zero j)⟩
      · rintro ⟨i, at_i, least⟩
        cases i with
        | zero => exact first.symm.trans at_i
        | succ i => exact absurd (first.symm.trans (least 0 i.succ_pos)) (by simp)
    | none =>
      have first : lackAt? before (p :: ps) 0 = none := by rw [lackAt?_cons_zero, lacks]; rfl
      refine ih.trans ⟨?_, ?_⟩
      · rintro ⟨i, at_i, least⟩
        refine ⟨i + 1, lackAt?_cons_succ.trans at_i, fun j lt => ?_⟩
        cases j with
        | zero => exact first
        | succ j => exact lackAt?_cons_succ.trans (least j (Nat.lt_of_succ_lt_succ lt))
      · rintro ⟨i, at_i, least⟩
        cases i with
        | zero => exact absurd (first.symm.trans at_i) (by simp)
        | succ i =>
          exact ⟨i, lackAt?_cons_succ.symm.trans at_i, fun j lt =>
            lackAt?_cons_succ.symm.trans (least (j + 1) (Nat.succ_lt_succ lt))⟩

theorem misplaced?_eq_none_iff : misplaced? before ps = none ↔ ∀ i, lackAt? before ps i = none := by
  constructor
  · intro none i
    induction i using Nat.strongRecOn with
    | ind i ih =>
      cases lack : lackAt? before ps i with
      | none => rfl
      | some found =>
        rw [misplaced?_eq_some_iff.2 ⟨i, lack, ih⟩] at none
        cases none
  · intro none
    cases misplaced : misplaced? before ps with
    | none => rfl
    | some found =>
      obtain ⟨i, lack, -⟩ := misplaced?_eq_some_iff.1 misplaced
      rw [none i] at lack
      cases lack

theorem lackAt?_eq_some_iff : lackAt? [] ps i = some (p, q) ↔ Offends ps i p q := by
  have missing : HtmlPass.headingIds ∉ ps.take i ↔ ∀ j < i, ps[j]? ≠ some .headingIds := by
    simp [List.mem_iff_getElem?, List.getElem?_take]
  have later (r : HtmlPass) : r ∈ ps.drop (i + 1) ↔ ∃ j, i < j ∧ ps[j]? = some r := by
    simp only [List.mem_iff_getElem?, List.getElem?_drop]
    constructor
    · rintro ⟨k, hk⟩
      exact ⟨i + 1 + k, by omega, hk⟩
    · rintro ⟨j, lt, hj⟩
      exact ⟨j - (i + 1), by rwa [show i + 1 + (j - (i + 1)) = j by omega]⟩
  have lack : lackAt? [] ps i = some (p, q) ↔
      ps[i]? = some p ∧ p.lacks? (ps.take i) (ps.drop (i + 1)) = some q := by
    simp only [lackAt?, List.nil_append, Option.bind_eq_some_iff, Option.map_eq_some_iff, Prod.mk.injEq]
    constructor
    · rintro ⟨_, here, _, lacks, rfl, rfl⟩
      exact ⟨here, lacks⟩
    · rintro ⟨here, lacks⟩
      exact ⟨p, here, q, lacks, rfl, rfl⟩
  rw [lack, HtmlPass.lacks?_eq_some_iff, missing, later, later]
  constructor
  · rintro ⟨here, ⟨rfl, rfl, missing⟩ | ⟨rfl, rfl, j, lt, there⟩ | ⟨rfl, rfl, j, lt, there⟩⟩
    · exact .anchors here missing
    · exact .codeCopy here lt there
    · exact .title here lt there
  · intro offends
    cases offends with
    | anchors here missing => exact ⟨here, .inl ⟨rfl, rfl, missing⟩⟩
    | codeCopy here lt there => exact ⟨here, .inr (.inl ⟨rfl, rfl, _, lt, there⟩)⟩
    | title here lt there => exact ⟨here, .inr (.inr ⟨rfl, rfl, _, lt, there⟩)⟩

/-! ### Acceptance -/

theorem misplaced?_eq_none_iff_admissible : misplaced? [] ps = none ↔ Admissible ps := by
  rw [misplaced?_eq_none_iff, admissible_iff_not_offends]
  refine forall_congr' fun i => ?_
  rw [Option.eq_none_iff_forall_not_mem, Prod.forall]
  simp only [Option.mem_def, lackAt?_eq_some_iff]

/-- What is found is the first step that is out of place. -/
theorem misplaced?_eq_some_iff_offends : misplaced? [] ps = some (p, q) ↔
    ∃ i, Offends ps i p q ∧ ∀ j < i, ∀ p' q', ¬ Offends ps j p' q' := by
  simp only [misplaced?_eq_some_iff, lackAt?_eq_some_iff, Option.eq_none_iff_forall_not_mem, Prod.forall, Option.mem_def]

theorem withPasses_eq (markdown : List MarkdownPass) (ps : List HtmlPass) (options : Options) :
    withPasses markdown ps options = match misplaced? [] ps with
      | some (p, q) => .error (.passOrder p.name q.name)
      | none => .ok ⟨markdown, ps, options, none⟩ := by
  unfold withPasses validateOrder
  cases misplaced? [] ps <;> rfl

/-- A list in which nothing is misplaced keeps that if steps other than the ids of headings are left out. -/
theorem misplaced?_of_sublist {qs : List HtmlPass} {before' : List HtmlPass} (ok : misplaced? before ps = none)
    (sub : qs.Sublist ps) (ids : qs.count .headingIds = ps.count .headingIds)
    (front : HtmlPass.headingIds ∈ before → HtmlPass.headingIds ∈ before') : misplaced? before' qs = none := by
  induction sub generalizing before before' with
  | slnil => rfl
  | @cons qs ps p sub ih =>
    rw [misplaced?] at ok
    cases lacks : p.lacks? before ps with
    | some q => rw [lacks] at ok; cases ok
    | none =>
      rw [lacks] at ok
      have other : p ≠ .headingIds := by
        rintro rfl
        have := sub.count_le .headingIds
        rw [List.count_cons_self] at ids
        omega
      rw [List.count_cons_of_ne other] at ids
      refine ih ok ids fun mem => front ((List.mem_append.1 mem).resolve_right ?_)
      simpa using other.symm
  | @cons_cons qs ps p sub ih =>
    rw [misplaced?] at ok ⊢
    cases lacks : p.lacks? before ps with
    | some q => rw [lacks] at ok; cases ok
    | none =>
      rw [lacks] at ok
      rw [HtmlPass.lacks?_mono lacks front sub.subset]
      refine ih ok (by simpa [List.count_cons] using ids) fun mem => ?_
      rw [List.mem_append] at mem ⊢
      exact mem.imp_left front

/-- A list of steps is accepted just if it is admissible. If it is not, the error names the first step that is out of
place and the step that it depends on. What is accepted stays so if steps other than the ids of headings are left
out. -/
theorem withPasses_iff_admissible (markdown : List MarkdownPass) (ps : List HtmlPass) (options : Options) :
    (∀ pipeline, withPasses markdown ps options = .ok pipeline ↔
      Admissible ps ∧ pipeline = ⟨markdown, ps, options, none⟩) ∧
    (∀ e, withPasses markdown ps options = .error e ↔
      ∃ i p q, Offends ps i p q ∧ (∀ j < i, ∀ p' q', ¬ Offends ps j p' q') ∧ e = .passOrder p.name q.name) ∧
    (∀ qs, (∃ pipeline, withPasses markdown ps options = .ok pipeline) → qs.Sublist ps →
      qs.count .headingIds = ps.count .headingIds → ∃ pipeline, withPasses markdown qs options = .ok pipeline) := by
  refine ⟨fun pipeline => ?_, fun e => ?_, fun qs ok sub ids => ?_⟩
  · rw [withPasses_eq, ← misplaced?_eq_none_iff_admissible]
    cases misplaced? [] ps with
    | none => simp [eq_comm]
    | some found => simp
  · rw [withPasses_eq]
    cases misplaced : misplaced? [] ps with
    | none =>
      have fine := admissible_iff_not_offends.1 (misplaced?_eq_none_iff_admissible.1 misplaced)
      simp [fine]
    | some found =>
      obtain ⟨p, q⟩ := found
      constructor
      · rintro same
        obtain ⟨i, offends, least⟩ := misplaced?_eq_some_iff_offends.1 misplaced
        exact ⟨i, p, q, offends, least, (Except.error.inj same).symm⟩
      · rintro ⟨i, p', q', offends, least, rfl⟩
        rw [misplaced?_eq_some_iff_offends.2 ⟨i, offends, least⟩] at misplaced
        cases misplaced
        rfl
  · obtain ⟨pipeline, ok⟩ := ok
    rw [withPasses_eq] at ok ⊢
    cases misplaced : misplaced? [] ps with
    | some found => rw [misplaced] at ok; cases ok
    | none =>
      rw [misplaced?_of_sublist misplaced sub ids id]
      exact ⟨_, rfl⟩

/-- Two runs of the ids, each with links behind it, around a block of code that is copied before sections are made. -/
def repeatedIds : List HtmlPass :=
  [.headingIds, .headingAnchors, .highlight, .codeCopy, .headingIds, .headingAnchors, .sections, .title, .title]

theorem withPasses_iff_admissible_repeatedIds :
    (∃ pipeline, withPasses [] repeatedIds {} = .ok pipeline) ∧
      [HtmlPass.headingIds, .codeCopy, .headingIds, .headingAnchors, .title].Sublist repeatedIds ∧
      ∃ pipeline, withPasses [] [.headingIds, .codeCopy, .headingIds, .headingAnchors, .title] {} = .ok pipeline := by
  have accepted : ∃ pipeline, withPasses [] repeatedIds {} = .ok pipeline := ⟨_, rfl⟩
  have sub : [HtmlPass.headingIds, .codeCopy, .headingIds, .headingAnchors, .title].Sublist repeatedIds := by decide
  exact ⟨accepted, sub, (withPasses_iff_admissible [] repeatedIds {}).2.2 _ accepted sub (by decide)⟩

end Folio.Pipeline
