import Folio.Text.Letter

/-!
# Trimming and words

White space at the ends of a text, and the words that white space separates.
-/

namespace Folio.Text

/-- Drops the characters of a class at the end. -/
def dropEndWhile (p : Char → Bool) (s : List Char) : List Char :=
  (s.reverse.dropWhile p).reverse

def trimStart (s : List Char) : List Char := s.dropWhile isBlank

def trimEnd (s : List Char) : List Char := dropEndWhile isBlank s

def trim (s : List Char) : List Char := trimEnd (trimStart s)

/-- The maximal runs of characters that are not white space. -/
def words : List Char → List (List Char)
  | [] => []
  | c :: cs =>
    if isBlank c then words cs
    else
      match cs with
      | [] => [[c]]
      | d :: _ =>
        if isBlank d then [c] :: words cs
        else
          match words cs with
          | [] => [[c]]
          | w :: ws => (c :: w) :: ws

/-- The pieces between the occurrences of a character, empty ones included. -/
def splitOn (sep : Char) : List Char → List (List Char)
  | [] => [[]]
  | c :: cs =>
    if c = sep then [] :: splitOn sep cs
    else
      match splitOn sep cs with
      | [] => [[c]]
      | w :: ws => (c :: w) :: ws

/-- The text as UTF-8 takes so many bytes. -/
def byteSize : List Char → Nat
  | [] => 0
  | c :: s => c.utf8Size + byteSize s

/-- Drops a given beginning, or fails. -/
def stripFront? : List Char → List Char → Option (List Char)
  | [], s => some s
  | _ :: _, [] => none
  | p :: ps, c :: cs => if p = c then stripFront? ps cs else none

theorem stripFront?_eq_some_iff {p s r : List Char} : stripFront? p s = some r ↔ s = p ++ r := by
  induction p generalizing s with
  | nil => simp [stripFront?]
  | cons a p ih =>
    cases s with
    | nil => simp [stripFront?]
    | cons c s =>
      by_cases h : a = c
      · simp [stripFront?, h, ih]
      · simp [stripFront?, h, Ne.symm h]

/-- The two parts of a text have its length together. -/
theorem length_takeWhile_add_length_dropWhile (p : Char → Bool) (s : List Char) :
    (s.takeWhile p).length + (s.dropWhile p).length = s.length := by
  rw [← List.length_append, List.takeWhile_append_dropWhile]

theorem byteSize_append (s t : List Char) : byteSize (s ++ t) = byteSize s + byteSize t := by
  induction s with
  | nil => simp [byteSize]
  | cons c s ih => simp [byteSize, ih, Nat.add_assoc]

theorem dropEndWhile_append_of_forall {p : Char → Bool} {s t : List Char} (h : ∀ c ∈ t, p c = true) :
    dropEndWhile p (s ++ t) = dropEndWhile p s := by
  simp only [dropEndWhile, List.reverse_append]
  rw [List.dropWhile_append_of_pos]
  intro c hc
  exact h c (List.mem_reverse.mp hc)

end Folio.Text
