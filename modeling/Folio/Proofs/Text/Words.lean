import Folio.Text.Trim
import Mathlib.Algebra.GroupWithZero.Nat
import Mathlib.Data.List.Chain

/-!
# How many words texts have together

Putting two texts together loses a word exactly if a word of the first one runs into one of the second
(`length_words_append`). So texts put together have as many words as they have by themselves, less one for each of these
joints (`length_words_flatten`).
-/

namespace Folio.Text

theorem words_cons_blank {c : Char} (h : isBlank c = true) (s : List Char) : words (c :: s) = words s := by
  rw [words.eq_def]
  simp [h]

theorem words_ne_nil {c : Char} (h : isBlank c = false) (s : List Char) : words (c :: s) ≠ [] := by
  unfold words
  rw [if_neg (by simp [h])]
  split
  · exact List.cons_ne_nil _ _
  · split
    · exact List.cons_ne_nil _ _
    · split <;> exact List.cons_ne_nil _ _

/-- A character that is not white space ends a word if white space or nothing follows it. -/
theorem length_words_cons (c : Char) (s : List Char) :
    (words (c :: s)).length = (words s).length + if !isBlank c && s.head?.all isBlank then 1 else 0 := by
  by_cases hc : isBlank c = true
  · simp [words_cons_blank hc, hc]
  · rcases s with _ | ⟨d, s⟩
    · simp [words, hc]
    · by_cases hd : isBlank d = true
      · rw [words.eq_def (c :: d :: s)]
        simp [hc, hd]
      · obtain ⟨w, ws, hws⟩ := List.exists_cons_of_ne_nil (words_ne_nil (by simpa using hd) s)
        rw [words.eq_def (c :: d :: s)]
        simp [hc, hd, hws]

/-- Does a word run from the end of a text into the next text? -/
def joins (s t : List Char) : Bool := s.getLast?.any (!isBlank ·) && t.head?.any (!isBlank ·)

theorem joins_cons_cons (c d : Char) (s t : List Char) : joins (c :: d :: s) t = joins (d :: s) t := by
  rw [joins, joins, List.getLast?_cons_cons]

theorem length_words_append (s t : List Char) :
    (words (s ++ t)).length + (if joins s t then 1 else 0) = (words s).length + (words t).length := by
  induction s with
  | nil => simp [joins, words]
  | cons c s ih =>
    rw [List.cons_append, length_words_cons, length_words_cons]
    cases s with
    | nil =>
      have alone : joins [c] t = (!isBlank c && t.head?.any (!isBlank ·)) := rfl
      rw [alone]
      cases isBlank c <;> cases t with
        | nil => simp [words]
        | cons d t => cases hd : isBlank d <;> simp [words, hd] <;> omega
    | cons d s =>
      have head : (d :: s ++ t).head? = (d :: s).head? := rfl
      rw [joins_cons_cons, head]
      omega

/-- White space keeps the words apart. -/
theorem length_words_append_blank {c : Char} (h : isBlank c = true) (s t : List Char) :
    (words (s ++ c :: t)).length = (words s).length + (words t).length := by
  have apart : joins s (c :: t) = false := by simp [joins, h]
  have both := length_words_append s (c :: t)
  rwa [apart, words_cons_blank h] at both

/-- How many words run from one text into the next one. -/
def joints : List (List Char) → Nat
  | [] | [_] => 0
  | s :: t :: ts => (if joins s t then 1 else 0) + joints (t :: ts)

theorem joints_eq_zero_iff {ts : List (List Char)} : joints ts = 0 ↔ ts.IsChain fun s t => joins s t = false := by
  fun_induction joints ts with
  | case1 => simp
  | case2 => simp
  | case3 s t ts ih =>
    rw [List.isChain_cons_cons, ← ih]
    cases joins s t <;> simp

theorem joins_append {t : List Char} (h : t ≠ []) (s u : List Char) : joins s (t ++ u) = joins s t := by
  obtain ⟨c, t, rfl⟩ := List.exists_cons_of_ne_nil h
  rfl

/-- Texts that are not empty have together the words that they have by themselves, less one for each joint. -/
theorem length_words_flatten {ts : List (List Char)} (h : ∀ t ∈ ts, t ≠ []) :
    (words ts.flatten).length + joints ts = (ts.map fun t => (words t).length).sum := by
  fun_induction joints ts with
  | case1 => rfl
  | case2 => simp
  | case3 s t ts ih =>
    have rest := ih fun u hu => h u (List.mem_cons_of_mem s hu)
    have first := length_words_append s (t :: ts).flatten
    have seam : joins s (t :: ts).flatten = joins s t := joins_append (h t (by simp)) s ts.flatten
    rw [seam] at first
    rw [List.flatten_cons, List.map_cons, List.sum_cons, ← rest]
    omega

/-- Empty texts have no words and make no joints. -/
theorem length_words_flatten_filter (ts : List (List Char)) :
    (words ts.flatten).length + joints (ts.filter (· ≠ [])) = (ts.map fun t => (words t).length).sum := by
  have nonempty : ∀ t ∈ ts.filter (· ≠ []), t ≠ [] := fun t ht => by simpa using (List.mem_filter.1 ht).2
  have full := length_words_flatten nonempty
  have sum : ((ts.filter (· ≠ [])).map fun t => (words t).length).sum = (ts.map fun t => (words t).length).sum := by
    clear full nonempty
    induction ts with
    | nil => rfl
    | cons t ts ih =>
      by_cases ht : t = []
      · subst ht
        simpa [words] using ih
      · rw [List.filter_cons_of_pos (by simpa using ht), List.map_cons, List.sum_cons, ih, List.map_cons, List.sum_cons]
  rw [List.flatten_filter_ne_nil, sum] at full
  exact full

end Folio.Text
