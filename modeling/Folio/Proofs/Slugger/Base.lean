import Folio.Proofs.Slugger
import Folio.Proofs.Text.Case

/-!
# Slugs of slugs

A slug keeps the lower case of characters of a few classes (`IsKept`). The lower case is of these classes again and stays
as it is, so what comes out is a text that is its own slug (`isSlug_base`, `base_eq_self_iff`), and none of its characters
needs quoting in a fragment of an address (`base_stable`).
-/

namespace Folio.Slug

open Text

/-- A slug keeps the lower case of the character. -/
def IsKept (c : Char) : Prop :=
  isIdChar c = true ∨ 128 ≤ c.toNat ∧ (isLetter c = true ∨ markRanges.contains c.toNat = true)

/-- Some text, all of whose characters are kept and in lower case. -/
structure IsSlug (text : String) : Prop where
  ne_empty : text ≠ ""
  kept : ∀ c ∈ text.toList, IsKept c
  lower : ∀ c ∈ text.toList, lowerChar c = [c]

variable {c d : Char} {text : String}

/-! ### Characters that are kept -/

theorem lt_of_isIdChar (h : isIdChar c = true) : c.toNat < 128 := by
  rw [isIdChar, Bool.or_eq_true, Bool.or_eq_true, decide_eq_true_iff, decide_eq_true_iff] at h
  rcases h with (alphanum | rfl) | rfl
  · have := toNat_le_of_isAlphanum alphanum
    omega
  · decide
  · decide

theorem slugChar_of_isKept (h : IsKept c) : slugChar c = lowerChar c := by
  rcases h with id | ⟨large, kept⟩
  · rw [slugChar, if_pos id, lowerChar, if_pos (lt_of_isIdChar id)]
  · have noId : ¬ isIdChar c = true := fun id => Nat.not_lt.2 large (lt_of_isIdChar id)
    have noSpace : c ≠ ' ' := by
      rintro rfl
      exact absurd large (by decide)
    have kept : (128 ≤ c.toNat && (isLetter c || markRanges.contains c.toNat)) = true := by
      rw [Bool.and_eq_true, Bool.or_eq_true]
      exact ⟨decide_eq_true large, kept⟩
    rw [slugChar, if_neg noId, if_neg noSpace, if_pos kept]

/-- What a character leaves in a slug is the lower case of a kept character. -/
theorem exists_isKept_of_mem_slugChar (h : d ∈ slugChar c) : ∃ b, IsKept b ∧ d ∈ lowerChar b := by
  rw [slugChar] at h
  split at h
  · rename_i id
    exact ⟨c, .inl id, (mem_lowerChar_ascii (lt_of_isIdChar id)).2 (List.mem_singleton.1 h)⟩
  · split at h
    · exact ⟨'-', .inl (by decide), h⟩
    · split at h
      · rename_i kept
        rw [Bool.and_eq_true, Bool.or_eq_true, decide_eq_true_iff] at kept
        exact ⟨c, .inr kept, h⟩
      · cases h

/-- Characters of ASCII: those of ids are no white space and have a lower case of ids, letters are among them, and what is
its own lower case is no capital. -/
theorem ascii_checked (hc : c.toNat < 128) :
    (isIdChar c = true → isIdChar c.toLower = true ∧ isBlank c = false) ∧
      (letterRanges.contains c.toNat = true → isIdChar c = true) ∧ (lowerChar c = [c] → c.isUpper = false) :=
  forall_ascii (p := fun c => (isIdChar c = true → isIdChar c.toLower = true ∧ isBlank c = false) ∧
    (letterRanges.contains c.toNat = true → isIdChar c = true) ∧ (lowerChar c = [c] → c.isUpper = false))
    (by decide +kernel) hc

/-- The lower case of a kept character is kept. -/
theorem isKept_of_mem_lowerChar (h : IsKept c) (hd : d ∈ lowerChar c) : IsKept d := by
  rcases h with id | ⟨large, kept⟩
  · have ascii := lt_of_isIdChar id
    obtain rfl := (mem_lowerChar_ascii ascii).1 hd
    exact .inl ((ascii_checked ascii).1 id).1
  by_cases dotted : c = 'İ'
  · subst dotted
    have both : (lowerChar 'İ').all (fun d => isIdChar d = true ∨ 128 ≤ d.toNat ∧ markRanges.contains d.toNat = true) =
        true := by decide
    exact (of_decide_eq_true (List.all_eq_true.1 both d hd)).imp_right fun ⟨large, mark⟩ => ⟨large, .inr mark⟩
  rw [lowerChar_of_le large dotted, List.mem_singleton] at hd
  have number : d.toNat = mapRuns lowerRuns c.toNat := hd ▸ toNat_lower c
  rcases mapRuns_lowerRuns_cases c.toNat with stays | letter
  · obtain rfl : d = c := Char.toNat_inj.1 (number.trans stays)
    exact .inr ⟨large, kept⟩
  · rw [← number] at letter
    by_cases small : d.toNat < 128
    · exact .inl ((ascii_checked small).2.1 letter)
    · exact .inr ⟨Nat.le_of_not_lt small, .inl (by rwa [isLetter, if_neg small])⟩

theorem IsKept.not_isBlank (h : IsKept c) : isBlank c = false := by
  rcases h with id | ⟨-, letter | mark⟩
  · exact ((ascii_checked (lt_of_isIdChar id)).1 id).2
  · rw [Bool.eq_false_iff]
    intro blank
    rw [isLetter_of_isBlank blank] at letter
    cases letter
  · exact Ranges.contains_eq_false_of_apart (by decide +kernel) mark

theorem not_isUpper_of_lowerChar (h : lowerChar c = [c]) : c.isUpper = false := by
  by_cases ascii : c.toNat < 128
  · exact (ascii_checked ascii).2.2 h
  · rw [Bool.eq_false_iff]
    intro upper
    have alphanum : c.isAlphanum = true := Bool.or_eq_true_iff.2 (.inl (Bool.or_eq_true_iff.2 (.inl upper)))
    have := toNat_le_of_isAlphanum alphanum
    omega

/-! ### Texts that are their own slugs -/

theorem base_eq_self (h : IsSlug text) : base text = text := by
  have same : text.toList.flatMap slugChar = text.toList := by
    calc text.toList.flatMap slugChar = text.toList.flatMap fun c => [c] :=
          List.flatMap_congr fun c hc => (slugChar_of_isKept (h.kept c hc)).trans (h.lower c hc)
      _ = text.toList := List.flatMap_singleton' _
  have filled : text.toList ≠ [] := fun none => h.ne_empty (String.toList_eq_nil_iff.1 none)
  unfold base
  rw [same]
  split
  · contradiction
  · exact String.ofList_toList

theorem isSlug_base (text : String) : IsSlug (base text) := by
  refine ⟨base_ne_empty text, fun d hd => ?_, fun d hd => ?_⟩ <;> unfold base at hd <;> split at hd
  · have all : "heading".toList.all isIdChar = true := by decide
    exact .inl (List.all_eq_true.1 all d hd)
  · rw [String.toList_ofList] at hd
    obtain ⟨c, -, hc⟩ := List.mem_flatMap.1 hd
    obtain ⟨b, kept, hb⟩ := exists_isKept_of_mem_slugChar hc
    exact isKept_of_mem_lowerChar kept hb
  · have all : "heading".toList.all (fun c => lowerChar c = [c]) = true := by decide
    exact of_decide_eq_true (List.all_eq_true.1 all d hd)
  · rw [String.toList_ofList] at hd
    obtain ⟨c, -, hc⟩ := List.mem_flatMap.1 hd
    obtain ⟨b, -, hb⟩ := exists_isKept_of_mem_slugChar hc
    exact lowerChar_of_mem hb

theorem base_eq_self_iff : base text = text ↔ IsSlug text :=
  ⟨fun h => h ▸ isSlug_base text, base_eq_self⟩

/-- Every text has some slug, without white space, without capitals of ASCII and with no other characters of ASCII than
those of ids. The slug is its own slug, so a new slugger hands it out as it is. -/
theorem base_stable (text : String) :
    base text ≠ "" ∧
      (∀ c ∈ (base text).toList,
        isBlank c = false ∧ c.isUpper = false ∧ (c.toNat < 128 → isIdChar c = true)) ∧
      base (base text) = base text ∧ (Slugger.empty.slug (base text)).1 = base text := by
  have slug := isSlug_base text
  have again := base_eq_self slug
  refine ⟨slug.ne_empty, fun c hc => ⟨(slug.kept c hc).not_isBlank, not_isUpper_of_lowerChar (slug.lower c hc), ?_⟩,
    again, again⟩
  intro ascii
  exact (slug.kept c hc).resolve_right fun large => Nat.not_lt.2 large.1 ascii

end Folio.Slug
