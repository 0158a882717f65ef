import Folio.Text.Case
import Folio.Proofs.Text
import Mathlib.Data.Nat.ModEq

/-!
# Lower case is the end of it

No run of the lower case mapping has an image that is mapped again (`lowerRuns_apart`), so a character in lower case stays
as it is (`lowerChar_of_mem`). What is mapped at all goes to a letter.
-/

namespace Folio.Text

/-! ### Runs -/

namespace Run

/-- The images of the first run lie where the second one is, and are not kept apart by their rests. -/
def meets (r q : Run) : Bool :=
  Nat.ble r.image q.last && (Nat.ble q.first (r.image + (r.last - r.first)) &&
    (!(Nat.beq r.first r.last || Nat.beq (r.step % q.step) 0) || Nat.beq (r.image % q.step) (q.first % q.step)))

theorem covers_iff {r : Run} {n : Nat} :
    r.covers n = true ↔ r.first ≤ n ∧ n ≤ r.last ∧ r.step ∣ n - r.first := by
  rw [covers, Bool.and_eq_true, Bool.and_eq_true, Nat.ble_eq, Nat.ble_eq, Nat.beq_eq, and_assoc,
    Nat.dvd_iff_mod_eq_zero]

theorem meets_iff {r q : Run} :
    r.meets q = true ↔ r.image ≤ q.last ∧ q.first ≤ r.image + (r.last - r.first) ∧
      (¬ (r.first = r.last ∨ q.step ∣ r.step) ∨ r.image ≡ q.first [MOD q.step]) := by
  simp only [meets, Bool.and_eq_true, Nat.ble_eq, Bool.or_eq_true, Bool.not_eq_true', ← Bool.not_eq_true, Nat.beq_eq,
    Nat.dvd_iff_mod_eq_zero, Nat.ModEq]

/-- Runs meet where an image of the first one is covered by the second one. -/
theorem meets_of_covers {r q : Run} {n : Nat} (hr : r.covers n = true) (hq : q.covers (r.apply n) = true) :
    r.meets q = true := by
  obtain ⟨first, last, step⟩ := covers_iff.1 hr
  obtain ⟨first', last', step'⟩ := covers_iff.1 hq
  rw [apply] at first' last' step'
  refine meets_iff.2 ⟨by omega, by omega, Classical.or_iff_not_imp_left.2 fun fits => ?_⟩
  have whole : q.step ∣ n - r.first := by
    rcases Classical.not_not.1 fits with single | divides
    · have none : n - r.first = 0 := by omega
      exact none ▸ Nat.dvd_zero q.step
    · exact Nat.dvd_trans divides step
  calc r.image ≡ r.image + (n - r.first) [MOD q.step] :=
        (Nat.modEq_iff_dvd' (Nat.le_add_right ..)).2 (by rwa [Nat.add_sub_cancel_left])
    _ ≡ q.first [MOD q.step] := ((Nat.modEq_iff_dvd' first').2 step').symm

end Run

theorem mapRuns_cases (rs : List Run) (n : Nat) :
    mapRuns rs n = n ∧ (∀ r ∈ rs, r.covers n = false) ∨
      ∃ r ∈ rs, r.covers n = true ∧ mapRuns rs n = r.apply n := by
  cases found : rs.find? (·.covers n) with
  | none =>
    have none := List.find?_eq_none.1 found
    exact .inl ⟨by rw [mapRuns, found], fun r hr => Bool.eq_false_iff.2 (none r hr)⟩
  | some r =>
    have covers := List.find?_some found
    exact .inr ⟨r, List.mem_of_find?_eq_some found, covers, by rw [mapRuns, found]⟩

/-- If no run meets another one, an image is not covered again. -/
theorem covers_mapRuns {rs : List Run} (apart : ∀ r ∈ rs, ∀ q ∈ rs, r.meets q = false) (n : Nat) :
    ∀ q ∈ rs, q.covers (mapRuns rs n) = false := by
  rcases mapRuns_cases rs n with ⟨stays, none⟩ | ⟨r, hr, covers, image⟩
  · rwa [stays]
  · intro q hq
    rw [image, Bool.eq_false_iff]
    intro again
    exact Bool.false_ne_true ((apart r hr q hq).symm.trans (Run.meets_of_covers covers again))

theorem mapRuns_of_forall {rs : List Run} {n : Nat} (h : ∀ r ∈ rs, r.covers n = false) : mapRuns rs n = n := by
  rcases mapRuns_cases rs n with ⟨stays, -⟩ | ⟨r, hr, covers, -⟩
  · exact stays
  · rw [h r hr] at covers
    cases covers

/-! ### The lower case mapping -/

/-- What the tables say, found by going through them: no run meets another one; the images of a run lie within one range
of letters, and none of them is the dotted capital; ranges hold code points; and the lower case of the dotted capital
stays as it is. -/
theorem lowerRuns_checked :
    (lowerRuns.any fun r => lowerRuns.any r.meets) = false ∧
      (lowerRuns.all fun r => letterRanges.any fun l =>
        Nat.ble l.1 r.image && Nat.ble (r.image + (r.last - r.first)) l.2) = true ∧
      (∀ r ∈ lowerRuns, 'İ'.toNat < r.image ∨ r.image + (r.last - r.first) < 'İ'.toNat) ∧
      (∀ l ∈ letterRanges, l.2 < 0xD800 ∨ 0xDFFF < l.1 ∧ l.2 < 0x110000) ∧
      (lowerChar 'İ').all (fun d => lowerChar d = [d]) = true := by
  decide +kernel

theorem lowerRuns_apart : ∀ r ∈ lowerRuns, ∀ q ∈ lowerRuns, r.meets q = false := by
  obtain ⟨none, -⟩ := lowerRuns_checked
  intro r hr q hq
  have := List.any_eq_false.1 none r hr
  exact Bool.eq_false_iff.2 (List.any_eq_false.1 (Bool.eq_false_iff.2 this) q hq)

/-- The images of a run lie within one range of letters. -/
theorem letterRanges_of_mem_lowerRuns {r : Run} (h : r ∈ lowerRuns) :
    ∃ l ∈ letterRanges, l.1 ≤ r.image ∧ r.image + (r.last - r.first) ≤ l.2 := by
  obtain ⟨-, all, -⟩ := lowerRuns_checked
  obtain ⟨l, hl, within⟩ := List.any_eq_true.1 (List.all_eq_true.1 all r h)
  obtain ⟨first, last⟩ := Bool.and_eq_true_iff.1 within
  exact ⟨l, hl, Nat.le_of_ble_eq_true first, Nat.le_of_ble_eq_true last⟩

/-- What the mapping changes becomes a letter. -/
theorem mapRuns_lowerRuns_cases (n : Nat) :
    mapRuns lowerRuns n = n ∨ letterRanges.contains (mapRuns lowerRuns n) = true := by
  rcases mapRuns_cases lowerRuns n with ⟨stays, -⟩ | ⟨r, hr, covers, image⟩
  · exact .inl stays
  · obtain ⟨first, last, -⟩ := Run.covers_iff.1 covers
    obtain ⟨l, hl, first', last'⟩ := letterRanges_of_mem_lowerRuns hr
    rw [image, Run.apply]
    exact .inr (Ranges.contains_iff.2 ⟨l, hl, by omega, by omega⟩)

theorem isValidChar_of_letterRanges {n : Nat} (h : letterRanges.contains n = true) : n.isValidChar := by
  obtain ⟨-, -, -, valid, -⟩ := lowerRuns_checked
  obtain ⟨l, hl, first, last⟩ := Ranges.contains_iff.1 h
  have := valid l hl
  unfold Nat.isValidChar
  omega

theorem toNat_ofNat {n : Nat} (h : n.isValidChar) : (Char.ofNat n).toNat = n := by
  rw [Char.ofNat, dif_pos h]
  rfl

theorem toNat_lower (c : Char) : (Char.ofNat (mapRuns lowerRuns c.toNat)).toNat = mapRuns lowerRuns c.toNat := by
  rcases mapRuns_lowerRuns_cases c.toNat with stays | letter
  · rw [stays, Char.ofNat_toNat]
  · exact toNat_ofNat (isValidChar_of_letterRanges letter)

/-- What holds of all code points of ASCII holds of its characters. -/
theorem forall_ascii {p : Char → Prop} (h : ∀ n < 128, p (Char.ofNat n)) {c : Char} (hc : c.toNat < 128) : p c := by
  have := h c.toNat hc
  rwa [Char.ofNat_toNat] at this

theorem mem_lowerChar_ascii {c d : Char} (hc : c.toNat < 128) : d ∈ lowerChar c ↔ d = c.toLower := by
  rw [lowerChar, if_pos hc, List.mem_singleton]

/-- The lower case of ASCII; the first run covers the capitals. -/
theorem toLower_ascii {c : Char} (hc : c.toNat < 128) :
    lowerChar c.toLower = [c.toLower] ∧ (Run.covers ⟨65, 90, 1, 97⟩ c.toNat = false → c.toLower = c) :=
  forall_ascii (p := fun c => lowerChar c.toLower = [c.toLower] ∧
    (Run.covers ⟨65, 90, 1, 97⟩ c.toNat = false → c.toLower = c)) (by decide +kernel) hc

theorem lowerChar_of_le {c : Char} (hc : 128 ≤ c.toNat) (other : c ≠ 'İ') :
    lowerChar c = [Char.ofNat (mapRuns lowerRuns c.toNat)] := by
  rw [lowerChar, if_neg (Nat.not_lt.2 hc), if_neg other]

/-- Only the dotted capital itself is where it would be mapped to. -/
theorem mapRuns_lowerRuns_ne {c : Char} (h : c ≠ 'İ') : mapRuns lowerRuns c.toNat ≠ 'İ'.toNat := by
  obtain ⟨-, -, apart, -⟩ := lowerRuns_checked
  rcases mapRuns_cases lowerRuns c.toNat with ⟨stays, -⟩ | ⟨r, hr, covers, image⟩
  · rw [stays]
    exact fun same => h (Char.toNat_inj.1 same)
  · obtain ⟨first, last, -⟩ := Run.covers_iff.1 covers
    have := apart r hr
    rw [image, Run.apply]
    omega

/-- The lower case of a character stays as it is. -/
theorem lowerChar_of_mem {c d : Char} (h : d ∈ lowerChar c) : lowerChar d = [d] := by
  by_cases ascii : c.toNat < 128
  · obtain rfl := (mem_lowerChar_ascii ascii).1 h
    exact (toLower_ascii ascii).1
  by_cases dotted : c = 'İ'
  · subst dotted
    obtain ⟨-, -, -, -, both⟩ := lowerRuns_checked
    exact of_decide_eq_true (List.all_eq_true.1 both d h)
  rw [lowerChar_of_le (Nat.le_of_not_lt ascii) dotted, List.mem_singleton] at h
  have number : d.toNat = mapRuns lowerRuns c.toNat := h ▸ toNat_lower c
  have uncovered := covers_mapRuns lowerRuns_apart c.toNat
  rw [← number] at uncovered
  by_cases small : d.toNat < 128
  · have lower : d.toLower = d := (toLower_ascii small).2 (uncovered _ List.mem_cons_self)
    rw [lowerChar, if_pos small, lower]
  · have other : d ≠ 'İ' := by
      rintro rfl
      exact mapRuns_lowerRuns_ne dotted number.symm
    rw [lowerChar_of_le (Nat.le_of_not_lt small) other, mapRuns_of_forall uncovered, Char.ofNat_toNat]

end Folio.Text
