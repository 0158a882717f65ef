import Folio.Proofs.Slugger
import Mathlib.Order.Bounds.Basic

/-!
# The first free slug

A slugger remembers the number that was last put behind an id and does not look at the smaller ones again. `Sound` says
why that changes no answer: every number that is passed over makes an id that is taken. A slug is therefore the first
name for its text that no earlier request has taken (`slug_serveAll`), as if the taken ids were all that is remembered.

The search of `slug` has a bound. `Finds` is the search without one, and `finds_iff` shows that it ends with the same
slug and the same slugger.
-/

namespace Folio.Slugger

/-- The names for a base in the order in which they are tried: the base, and then the base with a number behind it. -/
def candidate (base : String) : Nat → String
  | 0 => base
  | n + 1 => numbered base (n + 1)

/-- What a slugger is asked for. -/
inductive Request where
  | slug (text : String)
  | reserve (id : String)
deriving DecidableEq, Repr

/-- The id that a request takes, and the slugger from then on. -/
def serve (s : Slugger) : Request → String × Slugger
  | .slug text => s.slug text
  | .reserve id => (id, s.reserve id)

/-- The ids that requests take one after the other, and the slugger behind the last one. -/
def serveAll (s : Slugger) : List Request → List String × Slugger
  | [] => ([], s)
  | r :: rs => ((s.serve r).1 :: ((s.serve r).2.serveAll rs).1, ((s.serve r).2.serveAll rs).2)

/-- The search for a slug: as long as a name is taken, the number of the base goes up and makes the next name. The name
that is found is taken. -/
inductive Finds (base : String) : Slugger → String → String × Slugger → Prop
  | free {s : Slugger} {id : String} (h : s.isTaken id = false) : Finds base s id (id, ⟨put id 0 s.counts⟩)
  | next {s : Slugger} {id : String} {n : Nat} {r : String × Slugger} (h : s.isTaken id = true)
      (number : n = (s.counts.lookup base).getD 0 + 1)
      (rest : Finds base ⟨put base n s.counts⟩ (numbered base n) r) : Finds base s id r

variable {s : Slugger} {base id : String} {ids : List String} {n : Nat}

/-! ### The search without a bound -/

theorem put_put (id : String) (m n : Nat) (cs : List (String × Nat)) : put id m (put id n cs) = put id m cs := by
  induction cs with
  | nil => simp [put]
  | cons c cs ih =>
    obtain ⟨i, k⟩ := c
    by_cases h : i = id
    · simp [put, h]
    · simp [put, h, ih]

/-- A number for an id that is taken takes nothing. -/
theorem isTaken_put_of_isTaken (h : s.isTaken base = true) (n : Nat) (id : String) :
    isTaken ⟨put base n s.counts⟩ id = s.isTaken id := by
  rw [Bool.eq_iff_iff, isTaken_put]
  refine ⟨?_, .inr⟩
  rintro (rfl | h')
  · exact h
  · exact h'

/-- From the name with the next number on, the search goes on to the number that `freeNumber` gives. -/
theorem finds_freeNumber (h : s.isTaken base = true) (fuel : Nat)
    (free : s.isTaken (numbered base (s.freeNumber base n fuel)) = false) :
    Finds base ⟨put base (n + 1) s.counts⟩ (numbered base (n + 1))
      (numbered base (s.freeNumber base n fuel),
        ⟨put (numbered base (s.freeNumber base n fuel)) 0 (put base (s.freeNumber base n fuel) s.counts)⟩) := by
  induction fuel generalizing n with
  | zero => exact .free ((isTaken_put_of_isTaken h _ _).trans free)
  | succ fuel ih =>
    rw [freeNumber] at free ⊢
    split
    · rename_i taken
      rw [if_pos taken] at free
      have rest := ih free
      rw [← put_put base (n + 1 + 1) (n + 1)] at rest
      have number : n + 1 + 1 = ((put base (n + 1) s.counts).lookup base).getD 0 + 1 := by
        rw [lookup_put, if_pos rfl, Option.getD_some]
      exact .next ((isTaken_put_of_isTaken h _ _).trans taken) number rest
    · rename_i notTaken
      exact .free ((isTaken_put_of_isTaken h _ _).trans (Bool.eq_false_iff.2 notTaken))

theorem finds_slug (s : Slugger) (text : String) : Finds (Slug.base text) s (Slug.base text) (s.slug text) := by
  unfold slug
  dsimp only
  cases there : s.counts.lookup (Slug.base text) with
  | none =>
    have free : s.isTaken (Slug.base text) = false := by rw [isTaken, there]; rfl
    exact .free free
  | some n =>
    have taken : s.isTaken (Slug.base text) = true := by rw [isTaken, there]; rfl
    have number : n + 1 = (s.counts.lookup (Slug.base text)).getD 0 + 1 := by rw [there, Option.getD_some]
    exact .next taken number (finds_freeNumber taken _ (freeNumber_not_isTaken s _ n))

theorem Finds.unique {r r' : String × Slugger} (h : Finds base s id r) (h' : Finds base s id r') : r = r' := by
  induction h with
  | free free =>
    cases h' with
    | free => rfl
    | next taken => exact absurd taken (Bool.eq_false_iff.1 free)
  | next taken number _ ih =>
    cases h' with
    | free free => exact absurd taken (Bool.eq_false_iff.1 free)
    | next _ number' rest' =>
      subst number number'
      exact ih rest'

/-- The search comes to an end, with the slug and the slugger that `slug` gives. -/
theorem finds_iff (s : Slugger) (text : String) (r : String × Slugger) :
    Finds (Slug.base text) s (Slug.base text) r ↔ r = s.slug text := by
  constructor
  · intro h
    exact h.unique (finds_slug s text)
  · rintro rfl
    exact finds_slug s text

/-! ### Numbers that are passed over -/

/-- Each id with a number up to the one that was last put behind it is among the given ones. -/
def Passes (s : Slugger) (ids : List String) : Prop :=
  ∀ id n, s.counts.lookup id = some n → ∀ k < n, numbered id (k + 1) ∈ ids

theorem Passes.mono {ids' : List String} (h : Passes s ids) (sub : ids ⊆ ids') : Passes s ids' :=
  fun id n hn k hk => sub (h id n hn k hk)

theorem Passes.put (h : Passes s ids) (passed : ∀ k < n, numbered id (k + 1) ∈ ids) :
    Passes ⟨put id n s.counts⟩ ids := by
  intro j m hm
  rw [lookup_put] at hm
  split at hm
  · rename_i same
    cases hm
    rw [same]
    exact passed
  · exact h j m hm

/-- An id that is new has passed over nothing. -/
theorem Passes.put_zero (h : Passes s ids) (id : String) : Passes ⟨Slugger.put id 0 s.counts⟩ ids :=
  h.put fun k hk => absurd hk (Nat.not_lt_zero k)

/-- The number that is found lies above the one where the search starts, and those between make taken slugs. -/
theorem freeNumber_spec (s : Slugger) (base : String) (n fuel : Nat) :
    ∃ k, s.freeNumber base n fuel = k + 1 ∧ ∀ i < k, n ≤ i → s.isTaken (numbered base (i + 1)) = true := by
  induction fuel generalizing n with
  | zero => exact ⟨n, rfl, fun i hi hn => absurd hi (Nat.not_lt.2 hn)⟩
  | succ fuel ih =>
    rw [freeNumber]
    split
    · rename_i taken
      obtain ⟨k, hk, passed⟩ := ih (n + 1)
      refine ⟨k, hk, fun i hi hn => ?_⟩
      obtain rfl | hn := Nat.eq_or_lt_of_le hn
      · exact taken
      · exact passed i hi hn
    · exact ⟨n, rfl, fun i hi hn => absurd hi (Nat.not_lt.2 hn)⟩

/-- A slugger that has taken just the given ids, and whose numbers have passed over none but these. -/
structure Sound (s : Slugger) (ids : List String) : Prop where
  taken : ∀ id, s.isTaken id = true ↔ id ∈ ids
  passes : Passes s ids

theorem sound_empty : Sound empty [] where
  taken id := by simp [isTaken, empty]
  passes id n h := by simp [empty] at h

theorem Sound.reserve (h : Sound s ids) (id : String) : Sound (s.reserve id) (ids ++ [id]) where
  taken j := by rw [isTaken_reserve, h.taken, List.mem_append, List.mem_singleton, or_comm]
  passes := by
    have passes := h.passes.mono (List.subset_append_left ids [id])
    unfold Slugger.reserve
    split
    · exact passes
    · exact passes.put_zero id

/-- A slug is the first name for its text that is not taken, and what its search passes over is taken. -/
theorem Sound.slug_spec (h : Sound s ids) (text : String) :
    Passes (s.slug text).2 (ids ++ [(s.slug text).1]) ∧
      ∃ k, (s.slug text).1 = candidate (Slug.base text) k ∧
        IsLeast {j | candidate (Slug.base text) j ∉ ids} k := by
  have free : (s.slug text).1 ∉ ids := by
    rw [← h.taken, slug_not_isTaken]
    exact Bool.false_ne_true
  have passes := h.passes.mono (List.subset_append_left ids [(s.slug text).1])
  unfold slug at free passes ⊢
  cases there : s.counts.lookup (Slug.base text) with
  | none =>
    simp only [there] at free passes ⊢
    exact ⟨passes.put_zero _, 0, rfl, free, fun j _ => Nat.zero_le j⟩
  | some n =>
    obtain ⟨k, hk, between⟩ := freeNumber_spec s (Slug.base text) n s.counts.length
    simp only [there, hk] at free passes ⊢
    have base : Slug.base text ∈ ids := by
      rw [← h.taken, isTaken, there]
      rfl
    have below : ∀ i < k, numbered (Slug.base text) (i + 1) ∈ ids := by
      intro i hi
      by_cases hn : i < n
      · exact h.passes _ n there i hn
      · exact (h.taken _).1 (between i hi (Nat.le_of_not_lt hn))
    refine ⟨(passes.put fun i hi => ?_).put_zero _, k + 1, rfl, free, fun j hj => ?_⟩
    · -- the last number that the base has passed over is the one of the slug itself
      obtain hi | rfl := Nat.lt_succ_iff_lt_or_eq.1 hi
      · exact List.mem_append_left _ (below i hi)
      · exact List.mem_append_right _ (List.mem_singleton_self _)
    · by_contra less
      apply hj
      cases j with
      | zero => exact base
      | succ j => exact below j (by omega)

theorem Sound.slug (h : Sound s ids) (text : String) : Sound (s.slug text).2 (ids ++ [(s.slug text).1]) where
  taken j := by rw [isTaken_slug, h.taken, List.mem_append, List.mem_singleton, or_comm]
  passes := (h.slug_spec text).1

/-! ### Requests one after the other -/

theorem Sound.serve (h : Sound s ids) (r : Request) : Sound (s.serve r).2 (ids ++ [(s.serve r).1]) := by
  cases r with
  | slug text => exact h.slug text
  | reserve id => exact h.reserve id

theorem Sound.serveAll (h : Sound s ids) (rs : List Request) : Sound (s.serveAll rs).2 (ids ++ (s.serveAll rs).1) := by
  induction rs generalizing s ids with
  | nil => rwa [Slugger.serveAll, List.append_nil]
  | cons r rs ih =>
    have rest := ih (h.serve r)
    rwa [List.append_assoc] at rest

theorem sound_serveAll (rs : List Request) : Sound (empty.serveAll rs).2 (empty.serveAll rs).1 :=
  sound_empty.serveAll rs

/-- After any requests the search for a slug comes to an end, and it ends with the first name for the text that none of
them has taken. Which numbers the slugger remembers makes no difference: after requests that have taken the same ids
the slug is the same. -/
theorem slug_serveAll (rs : List Request) (text : String) :
    let ids := (empty.serveAll rs).1
    let s := (empty.serveAll rs).2
    (∀ r, Finds (Slug.base text) s (Slug.base text) r ↔ r = s.slug text) ∧
      (∃ k, (s.slug text).1 = candidate (Slug.base text) k ∧
        IsLeast {j | candidate (Slug.base text) j ∉ ids} k) ∧
      ∀ rs', (∀ id, id ∈ (empty.serveAll rs').1 ↔ id ∈ ids) →
        ((empty.serveAll rs').2.slug text).1 = (s.slug text).1 := by
  intro ids s
  obtain ⟨-, k, found, least⟩ := (sound_serveAll rs).slug_spec text
  refine ⟨finds_iff s text, ⟨k, found, least⟩, fun rs' same => ?_⟩
  obtain ⟨-, k', found', least'⟩ := (sound_serveAll rs').slug_spec text
  have names : {j | candidate (Slug.base text) j ∉ (empty.serveAll rs').1} =
      {j | candidate (Slug.base text) j ∉ ids} := by
    ext j
    exact not_congr (same _)
  rw [names] at least'
  rw [found', found, least'.unique least]

theorem slug_serveAll_sameIds :
    let rs : List Request := [.slug "A", .slug "A", .reserve "a-2", .slug "A-1"]
    let rs' : List Request := [.reserve "a-1-1", .reserve "a-2", .reserve "a-1", .slug "A"]
    (∀ id, id ∈ (empty.serveAll rs').1 ↔ id ∈ (empty.serveAll rs).1) ∧
      (empty.serveAll rs).2 ≠ (empty.serveAll rs').2 ∧
      ((empty.serveAll rs').2.slug "A").1 = ((empty.serveAll rs).2.slug "A").1 ∧
      ((empty.serveAll rs).2.slug "A").1 = "a-3" := by
  intro rs rs'
  have ids : (empty.serveAll rs).1 = ["a", "a-1", "a-2", "a-1-1"] := by decide +kernel
  have ids' : (empty.serveAll rs').1 = ["a-1-1", "a-2", "a-1", "a"] := by decide +kernel
  have same : ∀ id, id ∈ (empty.serveAll rs').1 ↔ id ∈ (empty.serveAll rs).1 := by
    intro id
    rw [ids, ids']
    simp only [List.mem_cons, List.not_mem_nil, or_false]
    tauto
  have counts : (empty.serveAll rs).2.counts ≠ (empty.serveAll rs').2.counts := by decide +kernel
  have third : ((empty.serveAll rs).2.slug "A").1 = "a-3" := by decide +kernel
  exact ⟨same, fun h => counts (congrArg Slugger.counts h), (slug_serveAll rs "A").2.2 rs' same, third⟩

end Folio.Slugger
