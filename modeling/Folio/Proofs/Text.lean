import Folio.Text.Trim
import Mathlib.Data.List.TakeWhile
import Mathlib.Logic.Function.Basic

/-!
# Facts about texts

What several proofs need about the texts of numbers, about runs of characters and the ends of texts, and about
characters of different classes.
-/

namespace Folio.Text

/-- Different numbers are written differently. -/
theorem toString_injective : Function.Injective (fun n : Nat => toString n) := by
  intro a b h
  have hd : Nat.toDigits 10 a = Nat.toDigits 10 b := by
    simpa only [Nat.toString_eq_repr, Nat.toList_repr] using congrArg String.toList h
  simpa using congrArg (fun ds => Nat.ofDigitChars 10 ds 0) hd

theorem toString_inj {a b : Nat} : toString a = toString b ↔ a = b := toString_injective.eq_iff

theorem isDigit_of_mem_toString {n : Nat} {c : Char} (h : c ∈ (toString n).toList) : c.isDigit = true := by
  rw [Nat.toString_eq_repr, Nat.toList_repr] at h
  exact Nat.isDigit_of_mem_toDigits (by decide) (by decide) h

theorem ne_of_mem_toString {n : Nat} {c d : Char} (h : c ∈ (toString n).toList) (hd : d.isDigit = false) : c ≠ d := by
  rintro rfl
  rw [isDigit_of_mem_toString h] at hd
  cases hd

/-- What is dropped at the end is of the class. -/
theorem eq_dropEndWhile_append (p : Char → Bool) (s : List Char) :
    ∃ t, s = dropEndWhile p s ++ t ∧ ∀ c ∈ t, p c = true := by
  refine ⟨(s.reverse.takeWhile p).reverse, ?_, ?_⟩
  · rw [dropEndWhile, ← List.reverse_append, List.takeWhile_append_dropWhile, List.reverse_reverse]
  · intro c hc
    exact List.mem_takeWhile_imp (List.mem_reverse.1 hc)

theorem dropEndWhile_isPrefix (p : Char → Bool) (s : List Char) : dropEndWhile p s <+: s := by
  obtain ⟨t, h, -⟩ := eq_dropEndWhile_append p s
  exact ⟨t, h.symm⟩

/-- Behind a character that is not of the class, only what follows is dropped. -/
theorem dropEndWhile_append {p : Char → Bool} {s : List Char} {c : Char} (hc : p c = false) (t : List Char) :
    dropEndWhile p (s ++ c :: t) = s ++ c :: dropEndWhile p t := by
  have stays : (t.reverse ++ c :: s.reverse).dropWhile p = t.reverse.dropWhile p ++ c :: s.reverse := by
    rw [List.dropWhile_append]
    split
    · rename_i none
      rw [List.isEmpty_iff.1 none, List.dropWhile_cons_of_neg (by simp [hc]), List.nil_append]
    · rfl
  rw [dropEndWhile, List.reverse_append, List.reverse_cons, List.append_assoc, List.singleton_append, stays]
  simp [dropEndWhile]

/-! ### Runs of a class -/

section

variable {p : Char → Bool} {s t : List Char}

theorem takeWhile_eq_nil_of_head (h : ∀ c ∈ s.head?, p c = false) : s.takeWhile p = [] := by
  cases s with
  | nil => rfl
  | cons c s => exact List.takeWhile_cons_of_neg (by simp [h c rfl])

theorem dropWhile_eq_self_of_head (h : ∀ c ∈ s.head?, p c = false) : s.dropWhile p = s := by
  cases s with
  | nil => rfl
  | cons c s => exact List.dropWhile_cons_of_neg (by simp [h c rfl])

/-- A run of the class ends where a character of another class follows. -/
theorem takeWhile_append_of_head (hs : ∀ c ∈ s, p c = true) (ht : ∀ c ∈ t.head?, p c = false) :
    (s ++ t).takeWhile p = s := by
  rw [List.takeWhile_append_of_pos hs, takeWhile_eq_nil_of_head ht, List.append_nil]

theorem dropWhile_append_of_head (hs : ∀ c ∈ s, p c = true) (ht : ∀ c ∈ t.head?, p c = false) :
    (s ++ t).dropWhile p = t := by
  rw [List.dropWhile_append_of_pos hs, dropWhile_eq_self_of_head ht]

variable {d : Char}

/-- What stands in front of a character is all up to it. -/
theorem takeWhile_ne_append (hs : d ∉ s) (ht : ∀ c ∈ t.head?, c = d) : (s ++ t).takeWhile (· ≠ d) = s :=
  takeWhile_append_of_head (fun c hc => by simpa using ne_of_mem_of_not_mem hc hs) fun c hc => by simp [ht c hc]

theorem dropWhile_ne_append (hs : d ∉ s) (ht : ∀ c ∈ t.head?, c = d) : (s ++ t).dropWhile (· ≠ d) = t :=
  dropWhile_append_of_head (fun c hc => by simpa using ne_of_mem_of_not_mem hc hs) fun c hc => by simp [ht c hc]

end

/-- A text stays whole if it neither starts nor ends with white space. -/
theorem trim_eq_self_of_ends {s : List Char} (head : ∀ c ∈ s.head?, isBlank c = false)
    (last : ∀ c ∈ s.getLast?, isBlank c = false) : trim s = s := by
  have last' : ∀ c ∈ s.reverse.head?, isBlank c = false := by rwa [List.head?_reverse]
  rw [trim, trimStart, dropWhile_eq_self_of_head head, trimEnd, dropEndWhile, dropWhile_eq_self_of_head last',
    List.reverse_reverse]

theorem length_le_byteSize (s : List Char) : s.length ≤ byteSize s := by
  induction s with
  | nil => exact Nat.le_refl 0
  | cons c s ih =>
    have := c.utf8Size_pos
    simp only [List.length_cons, byteSize]
    omega

/-! ### Classes -/

/-- Ranges that lie apart have no code point in common. -/
theorem Ranges.contains_eq_false_of_apart {rs ss : Ranges} (apart : ∀ r ∈ rs, ∀ s ∈ ss, r.2 < s.1 ∨ s.2 < r.1)
    {n : Nat} (h : rs.contains n = true) : ss.contains n = false := by
  rw [Bool.eq_false_iff]
  intro h'
  obtain ⟨r, hr, first, last⟩ := contains_iff.1 h
  obtain ⟨s, hs, first', last'⟩ := contains_iff.1 h'
  have := apart r hr s hs
  omega

theorem le_toNat_of_isAlphanum {c : Char} (h : c.isAlphanum = true) : 48 ≤ c.toNat := by
  have least {d : Char} (h : d.val ≤ c.val) : d.toNat ≤ c.toNat := UInt32.le_iff_toNat_le.1 h
  have firsts : 'A'.toNat = 65 ∧ 'a'.toNat = 97 ∧ '0'.toNat = 48 := by decide
  rcases Bool.or_eq_true_iff.1 h with letter | digit
  · rcases Bool.or_eq_true_iff.1 letter with capital | small
    · have : 'A'.toNat ≤ c.toNat := least (of_decide_eq_true capital).1
      omega
    · have : 'a'.toNat ≤ c.toNat := least (of_decide_eq_true (Bool.and_eq_true_iff.1 small).1)
      omega
  · have : '0'.toNat ≤ c.toNat := least (of_decide_eq_true (Bool.and_eq_true_iff.1 digit).1)
    omega

theorem toNat_le_of_isAlphanum {c : Char} (h : c.isAlphanum = true) : c.toNat ≤ 122 := by
  have most {d : Char} (h : c.val ≤ d.val) : c.toNat ≤ d.toNat := UInt32.le_iff_toNat_le.1 h
  have lasts : 'Z'.toNat = 90 ∧ 'z'.toNat = 122 ∧ '9'.toNat = 57 := by decide
  rcases Bool.or_eq_true_iff.1 h with letter | digit
  · rcases Bool.or_eq_true_iff.1 letter with capital | small
    · have : c.toNat ≤ 'Z'.toNat := most (of_decide_eq_true capital).2
      omega
    · have : c.toNat ≤ 'z'.toNat := most (of_decide_eq_true (Bool.and_eq_true_iff.1 small).2)
      omega
  · have : c.toNat ≤ '9'.toNat := most (of_decide_eq_true (Bool.and_eq_true_iff.1 digit).2)
    omega

/-- White space is no letter. -/
theorem isLetter_of_isBlank {c : Char} (h : isBlank c = true) : isLetter c = false := by
  unfold isLetter
  split
  · rename_i ascii
    have low : ∀ r ∈ blankRanges, r.2 ≤ 32 ∨ 128 ≤ r.1 := by decide
    obtain ⟨r, hr, first, last⟩ := Ranges.contains_iff.1 h
    have := low r hr
    rw [Bool.eq_false_iff]
    intro letter
    have := le_toNat_of_isAlphanum letter
    omega
  · exact Ranges.contains_eq_false_of_apart (by decide +kernel) h

end Folio.Text
