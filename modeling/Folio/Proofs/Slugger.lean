import Folio.Slug
import Folio.Proofs.Text
import Mathlib.Data.List.Nodup
import Mathlib.Data.List.Perm.Subperm

/-!
# Slugs are free

A slugger takes every id that it hands out. `Slugger.slug_not_isTaken`: a slug was not taken before, whatever ids were
reserved and however many numbers had to be passed over. The bound on the search is no limit: of `k + 1` numbered
slugs at least one is free when `k` ids are taken.
-/

namespace Folio

namespace Slug

theorem base_ne_empty (text : String) : base text ≠ "" := by
  unfold base
  split
  · decide
  · rename_i h
    intro h'
    exact h (by simpa using congrArg String.toList h')

end Slug

namespace Slugger

variable {s : Slugger} {id j base : String}

theorem lookup_put (id : String) (n : Nat) (cs : List (String × Nat)) (j : String) :
    (put id n cs).lookup j = if j = id then some n else cs.lookup j := by
  induction cs with
  | nil => by_cases h : j = id <;> simp [put, h]
  | cons c cs ih =>
    obtain ⟨i, k⟩ := c
    by_cases hi : i = id
    · subst hi
      by_cases h : j = i
      · simp [put, h]
      · simp [put, h, List.lookup_cons, beq_eq_false_iff_ne.2 h]
    · by_cases h : j = i
      · subst h
        simp [put, hi]
      · simp [put, hi, List.lookup_cons, beq_eq_false_iff_ne.2 h, ih]

theorem isTaken_put (id : String) (n : Nat) (cs : List (String × Nat)) (j : String) :
    isTaken ⟨put id n cs⟩ j = true ↔ j = id ∨ isTaken ⟨cs⟩ j = true := by
  by_cases h : j = id <;> simp [isTaken, lookup_put, h]

theorem mem_of_isTaken (h : s.isTaken id = true) : id ∈ s.counts.map Prod.fst := by
  obtain ⟨n, hn⟩ := Option.isSome_iff_exists.1 h
  obtain ⟨l₁, l₂, hl, -⟩ := List.lookup_eq_some_iff.1 hn
  simp [hl]

theorem isTaken_reserve : (s.reserve id).isTaken j = true ↔ j = id ∨ s.isTaken j = true := by
  unfold reserve
  split
  · rename_i h
    constructor
    · exact .inr
    · rintro (rfl | hj)
      · exact h
      · exact hj
  · exact isTaken_put id 0 s.counts j

theorem isTaken_foldl_reserve (ids : List String) (s : Slugger) :
    (ids.foldl reserve s).isTaken j = true ↔ j ∈ ids ∨ s.isTaken j = true := by
  induction ids generalizing s with
  | nil => simp
  | cons id ids ih => rw [List.foldl_cons, ih, isTaken_reserve, List.mem_cons]; tauto

theorem numbered_injective (base : String) : Function.Injective (numbered base) := by
  intro a b h
  exact Text.toString_inj.1 ((String.append_right_inj _).1 h)

theorem numbered_ne_empty (base : String) (n : Nat) : numbered base n ≠ "" := by
  intro h
  have := congrArg String.toList h
  simp [numbered] at this

/-- A search that ends at a taken slug has gone through all its numbers. -/
theorem isTaken_of_freeNumber_isTaken (s : Slugger) (base : String) (fuel n : Nat)
    (h : s.isTaken (numbered base (s.freeNumber base n fuel)) = true) :
    ∀ i ≤ fuel, s.isTaken (numbered base (n + 1 + i)) = true := by
  induction fuel generalizing n with
  | zero =>
    intro i hi
    obtain rfl : i = 0 := by omega
    exact h
  | succ fuel ih =>
    unfold freeNumber at h
    split at h
    · rename_i hn
      intro i hi
      cases i with
      | zero => exact hn
      | succ i =>
        have := ih (n + 1) h i (by omega)
        rwa [show n + 1 + (i + 1) = n + 1 + 1 + i by omega]
    · rename_i hn
      exact absurd h hn

theorem freeNumber_not_isTaken (s : Slugger) (base : String) (n : Nat) :
    s.isTaken (numbered base (s.freeNumber base n s.counts.length)) = false := by
  by_contra hne
  have hall := isTaken_of_freeNumber_isTaken s base _ n (by simpa using hne)
  -- more distinct slugs would be taken than there are entries
  let slugs := (List.range (s.counts.length + 1)).map fun i => numbered base (n + 1 + i)
  have hnd : slugs.Nodup := by
    refine List.Nodup.map (fun i k hik => ?_) List.nodup_range
    have := numbered_injective base hik
    omega
  have hsub : slugs ⊆ s.counts.map Prod.fst := by
    intro x hx
    obtain ⟨i, hi, rfl⟩ := List.mem_map.1 hx
    have := List.mem_range.1 hi
    exact mem_of_isTaken (hall i (by omega))
  have hle := (List.subperm_of_subset hnd hsub).length_le
  simp only [slugs, List.length_map, List.length_range] at hle
  omega

/-- A slug was not taken before. -/
theorem slug_not_isTaken (s : Slugger) (text : String) : s.isTaken (s.slug text).1 = false := by
  unfold slug
  simp only
  split
  · rename_i h
    simp [isTaken, h]
  · exact freeNumber_not_isTaken ..

theorem slug_ne_empty (s : Slugger) (text : String) : (s.slug text).1 ≠ "" := by
  unfold slug
  simp only
  split
  · exact Slug.base_ne_empty text
  · exact numbered_ne_empty _ _

/-- A slug is taken from then on, and nothing else. -/
theorem isTaken_slug (s : Slugger) (text : String) :
    (s.slug text).2.isTaken j = true ↔ j = (s.slug text).1 ∨ s.isTaken j = true := by
  unfold slug
  simp only
  split
  · exact isTaken_put ..
  · rename_i n h
    rw [isTaken_put, isTaken_put]
    refine or_congr_right ⟨?_, .inr⟩
    rintro (rfl | hj)
    · simp [isTaken, h]
    · exact hj

end Slugger

end Folio
