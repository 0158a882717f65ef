import Folio.Selector
import Mathlib.Data.List.Basic

/-!
# What selectors say

A style sheet reads a string in quotes by rules of its own (`readString`): a backslash takes away the meaning of the
character behind it, unless this is a hexadecimal digit, which starts a code point, or the end of a line, which is left
out; the end of a line without a backslash makes the string invalid. The string of a selector is always one whole
string up to its last quote, but ends of lines are not escaped in it: it reads back as the value just if the value
has none (`string?_quoted_iff`).
-/

namespace Folio.Selector

def isNewline (c : Char) : Bool := c = '\n' || c = '\r' || c = '\x0c'

def isHexDigit (c : Char) : Bool := c.isDigit || ('a' ≤ c && c ≤ 'f') || ('A' ≤ c && c ≤ 'F')

def hexValue (c : Char) : Nat :=
  if c.isDigit then c.toNat - '0'.toNat else if 'a' ≤ c then c.toNat - 'a'.toNat + 10 else c.toNat - 'A'.toNat + 10

/-- No text has the null character: a replacement character stands in its place. -/
def shown (c : Char) : Char := if c = '\x00' then '\uFFFD' else c

/-- Drops one white space; the two characters that end a line on some systems count as one. -/
def dropSpace : List Char → List Char
  | '\r' :: '\n' :: s => s
  | c :: s => if c = ' ' || c = '\t' || isNewline c then s else c :: s
  | [] => []

/-- Reads what a backslash is followed by: up to six hexadecimal digits of a code point, with white space behind them,
or a character that stands for itself. -/
def readEscape (c : Char) (s : List Char) : Char × List Char :=
  if isHexDigit c then
    let ds := (s.take 5).takeWhile isHexDigit
    (shown (.ofNat ((c :: ds).foldl (fun n d => n * 16 + hexValue d) 0)), dropSpace (s.drop ds.length))
  else (shown c, s)

theorem length_dropSpace_le (s : List Char) : (dropSpace s).length ≤ s.length := by
  fun_cases dropSpace s with
  | case1 s => simp only [List.length_cons]; omega
  | case2 c s => exact Nat.le_succ _
  | case3 c s => exact Nat.le_refl _
  | case4 => exact Nat.le_refl _

theorem length_readEscape_le (c : Char) (s : List Char) : (readEscape c s).2.length ≤ s.length := by
  unfold readEscape
  split
  · refine Nat.le_trans (length_dropSpace_le _) ?_
    rw [List.length_drop]
    exact Nat.sub_le _ _
  · exact Nat.le_refl _

/-- Reads a string behind its first quote up to the quote that closes it: its text, and what is left. -/
def readString : List Char → Option (List Char × List Char)
  | [] => none
  | c :: s =>
    if c = '"' then some ([], s)
    else if isNewline c then none
    else if c = '\\' then
      match s with
      | [] => none
      | d :: s =>
        if isNewline d then readString (dropSpace (d :: s))
        else (readString (readEscape d s).2).map fun (t, r) => ((readEscape d s).1 :: t, r)
    else (readString s).map fun (t, r) => (shown c :: t, r)
termination_by s => s.length
decreasing_by
  · have := length_dropSpace_le (d :: s)
    simp only [List.length_cons] at this ⊢
    omega
  · have := length_readEscape_le d s
    simp only [List.length_cons]
    omega
  · simp only [List.length_cons]
    omega

/-- The text of a string in quotes, if it is one and nothing else. -/
def string? (s : String) : Option String :=
  match s.toList with
  | '"' :: s =>
    match readString s with
    | some (t, []) => some (String.ofList t)
    | _ => none
  | _ => none

/-! ### Reading what is escaped -/

section

variable {c : Char} {s : List Char}

theorem readString_quote (s : List Char) : readString ('"' :: s) = some ([], s) := by
  rw [readString.eq_def]
  exact if_pos rfl

theorem readString_newline (h : isNewline c = true) (s : List Char) : readString (c :: s) = none := by
  have ne : c ≠ '"' := by rintro rfl; exact absurd h (by decide)
  rw [readString.eq_def]
  simp only [if_neg ne, if_pos h]

theorem readString_plain (quote : c ≠ '"') (newline : isNewline c = false) (backslash : c ≠ '\\') (s : List Char) :
    readString (c :: s) = (readString s).map fun (t, r) => (shown c :: t, r) := by
  rw [readString.eq_def]
  simp only [if_neg quote, newline, Bool.false_eq_true, if_false, if_neg backslash]

theorem readString_escaped (newline : isNewline c = false) (digit : isHexDigit c = false) (s : List Char) :
    readString ('\\' :: c :: s) = (readString s).map fun (t, r) => (shown c :: t, r) := by
  have escape : readEscape c s = (shown c, s) := by rw [readEscape, if_neg (by simp [digit])]
  rw [readString, if_neg (by decide), if_neg (by decide), if_pos rfl]
  simp only [newline, Bool.false_eq_true, if_false, escape]

end

/-- Whatever follows its last quote, a value is read up to there, unless the end of a line comes first. -/
theorem readString_escape (value rest : List Char) : readString (escape value ++ '"' :: rest) =
    if value.any isNewline then none else some (value.map shown, rest) := by
  induction value with
  | nil => exact readString_quote rest
  | cons c value ih =>
    have next : ((readString (escape value ++ '"' :: rest)).map fun (t, r) => (shown c :: t, r)) =
        if value.any isNewline then none else some (shown c :: value.map shown, rest) := by
      rw [ih]; split <;> rfl
    by_cases special : c = '"' ∨ c = '\\'
    · have escaped : escape (c :: value) = '\\' :: c :: escape value := by simp [escape, special]
      have newline : isNewline c = false := by rcases special with rfl | rfl <;> decide
      have digit : isHexDigit c = false := by rcases special with rfl | rfl <;> decide
      rw [escaped, List.cons_append, List.cons_append, readString_escaped newline digit, next, List.any_cons, newline]
      rfl
    · have plain : escape (c :: value) = c :: escape value := by simp [escape, special]
      rw [plain, List.cons_append, List.any_cons]
      cases newline : isNewline c with
      | true => rw [readString_newline newline]; rfl
      | false =>
        rw [not_or] at special
        rw [readString_plain special.1 newline special.2, next]
        rfl

/-- Takes the backslashes out again. -/
def unescape : List Char → List Char
  | '\\' :: c :: s => c :: unescape s
  | c :: s => c :: unescape s
  | [] => []

theorem unescape_cons {c : Char} (h : c ≠ '\\') (s : List Char) : unescape (c :: s) = c :: unescape s := by
  rw [unescape.eq_def]
  split
  · rename_i same
    exact absurd (List.cons.inj same).1 h
  · rename_i same
    obtain ⟨rfl, rfl⟩ := List.cons.inj same
    rfl
  · rename_i same
    cases same

theorem unescape_escape (s : List Char) : unescape (escape s) = s := by
  induction s with
  | nil => rfl
  | cons c s ih =>
    by_cases special : c = '"' ∨ c = '\\'
    · simp [escape, special, unescape, ih]
    · have plain : escape (c :: s) = c :: escape s := by simp [escape, special]
      rw [plain, unescape_cons (not_or.1 special).2, ih]

theorem escape_injective : Function.Injective escape :=
  Function.LeftInverse.injective unescape_escape

/-! ### Selectors -/

/-- A value as a string in quotes. -/
def quoted (value : String) : String := "\"" ++ String.ofList (escape value.toList) ++ "\""

theorem string?_quoted (value : String) : string? (quoted value) =
    if value.toList.any isNewline then none else some (String.ofList (value.toList.map shown)) := by
  have chars : (quoted value).toList = '"' :: (escape value.toList ++ ['"']) := by simp [quoted]
  unfold string?
  rw [chars]
  simp only [readString_escape]
  cases value.toList.any isNewline <;> rfl

theorem ofAttribute_eq (name value : String) : ofAttribute name value = "[" ++ name ++ "=" ++ quoted value ++ "]" := by
  simp [ofAttribute, quoted, ← String.toList_inj]

theorem quoted_injective : Function.Injective quoted := by
  intro a b same
  have chars : escape a.toList = escape b.toList := by simpa [quoted, ← String.toList_inj] using same
  exact String.toList_inj.1 (escape_injective chars)

theorem ofAttribute_inj {name a b : String} : ofAttribute name a = ofAttribute name b ↔ a = b := by
  rw [ofAttribute_eq, ofAttribute_eq, String.append_left_inj, String.append_right_inj, quoted_injective.eq_iff]

theorem string?_quoted_eq_none_iff (value : String) :
    string? (quoted value) = none ↔ ∃ c ∈ value.toList, isNewline c = true := by
  rw [string?_quoted, ← List.any_eq_true]
  cases value.toList.any isNewline <;> simp

theorem string?_quoted_eq_self_iff (value : String) :
    string? (quoted value) = some value ↔ ∀ c ∈ value.toList, c ≠ '\x00' ∧ isNewline c = false := by
  have null : value.toList.map shown = value.toList ↔ ∀ c ∈ value.toList, c ≠ '\x00' := by
    conv_lhs => rw [← List.map_id value.toList, List.map_map, List.map_inj_left]
    refine forall₂_congr fun c _ => ?_
    by_cases h : c = '\x00'
    · subst h; decide
    · simp [shown, h]
  rw [string?_quoted, forall₂_and, ← null]
  cases newline : value.toList.any isNewline with
  | true =>
    obtain ⟨c, hc, ends⟩ := List.any_eq_true.1 newline
    simp only [if_true, reduceCtorEq, false_iff, not_and]
    intro _ none
    rw [none c hc] at ends
    cases ends
  | false =>
    simp only [Bool.false_eq_true, if_false, Option.some.injEq, ← String.toList_inj, String.toList_ofList]
    exact (and_iff_left fun c hc => eq_false_of_ne_true (List.any_eq_false.1 newline c hc)).symm

/-- A selector is the name and one whole string in quotes. The string is invalid just if the value has the end of a
line in it; it says the value just if the value has neither this nor the null character. Selectors of different values
differ. -/
theorem ofAttribute_reads_iff (name value : String) :
    (∃ string, ofAttribute name value = "[" ++ name ++ "=" ++ string ++ "]" ∧
      (string? string = none ↔ ∃ c ∈ value.toList, isNewline c = true) ∧
      (string? string = some value ↔ ∀ c ∈ value.toList, c ≠ '\x00' ∧ isNewline c = false)) ∧
    ∀ other, ofAttribute name other = ofAttribute name value ↔ other = value := by
  refine ⟨⟨quoted value, ofAttribute_eq name value, ?_, ?_⟩, fun other => ofAttribute_inj⟩
  · exact string?_quoted_eq_none_iff value
  · exact string?_quoted_eq_self_iff value

/-- An id that runs over two lines. -/
def twoLines : String := "a\nb"

/-- Its selector has an invalid string. -/
theorem not_reads_twoLines : '\x00' ∉ twoLines.toList ∧
    ¬ ∃ string, ofAttribute "data-slug" twoLines = "[" ++ "data-slug" ++ "=" ++ string ++ "]" ∧
      string? string = some twoLines := by
  refine ⟨by decide, ?_⟩
  rintro ⟨string, same, reads⟩
  rw [ofAttribute_eq, String.append_left_inj, String.append_right_inj] at same
  rw [← same, string?_quoted_eq_self_iff] at reads
  exact absurd (reads '\n' (by decide)).2 (by decide)

end Folio.Selector
