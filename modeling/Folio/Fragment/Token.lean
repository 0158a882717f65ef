import Folio.Text.Trim

/-!
# Tokens of HTML fragments

A fragment is read leniently into texts, start tags and end tags: comments and declarations yield nothing, and what
breaks off inside a tag is dropped. `tokens` never fails.
-/

namespace Folio.Fragment

open Folio.Text

/-- An attribute as written; without a sign it has no value. -/
abbrev Attribute := List Char × Option (List Char)

/-- A token. Names and values are as written. -/
inductive Token where
  | text (s : List Char)
  | start (name : List Char) (attributes : List Attribute) (selfClosing : Bool)
  | close (name : List Char)
deriving DecidableEq, Repr

/-- The characters of names. -/
def isNameChar (c : Char) : Bool :=
  c.isAlphanum || c = '-' || c = '_' || c = ':' || c = '+' || c = '/'

/-- The white space between the parts of a tag. -/
def isTagSpace (c : Char) : Bool := c = ' ' || c = '\n'

def skipSpace (s : List Char) : List Char := s.dropWhile isTagSpace

/-- What follows a comment, from its opening dashes on. Two dashes take the character behind them with them. -/
def afterComment : List Char → List Char
  | [] => []
  | ['-', '-'] => []
  | '-' :: '-' :: c :: s => if c = '>' then s else afterComment s
  | _ :: s => afterComment s

/-- One byte on: of a longer character the other bytes are left, each of them unreadable. -/
def skipByte : List Char → List Char
  | [] => []
  | c :: s => List.replicate (c.utf8Size - 1) '\uFFFD' ++ s

/-- What follows a declaration, from behind its exclamation mark on. -/
def afterDeclaration (s : List Char) : List Char :=
  match s with
  | '-' :: '-' :: _ => afterComment s
  | _ =>
    let word := s.takeWhile isNameChar
    let rest := skipSpace (s.dropWhile isNameChar)
    if word.map Char.toLower = "doctype".toList then skipByte (skipSpace (rest.dropWhile isNameChar))
    else rest

/-- Is the value of an attribute without quotes over before this character? -/
def endsValue (c : Char) : Bool := isTagSpace c || c = '/' || c = '>'

/-- The value of an attribute behind its sign, and the rest from its closing quote on. -/
def readValue (s : List Char) : List Char × List Char :=
  match s with
  | [] => ([], [])
  | c :: r =>
    if c = '"' || c = '\'' then (r.takeWhile (· ≠ c), r.dropWhile (· ≠ c))
    else (s.takeWhile (!endsValue ·), s.dropWhile (!endsValue ·))

/-- One attribute and the rest from behind it on. -/
def readAttribute (s : List Char) : Attribute × List Char :=
  let key := s.takeWhile isNameChar
  match skipSpace (s.dropWhile isNameChar) with
  | '=' :: r =>
    let (v, rest) := readValue (skipSpace r)
    ((key, some v), rest)
  | rest => ((key, none), rest)

/-- The attributes of a tag and the rest from its closing `/` or `>` on, unless the text ends before. Behind an
attribute one character is passed, whatever it is; one of several bytes leaves an attribute without a name. -/
def readAttributes (acc : List Attribute) (s : List Char) : Nat → Option (List Attribute × List Char)
  | 0 => none
  | fuel + 1 =>
    match skipSpace s with
    | [] => none
    | c :: r =>
      if c = '/' || c = '>' then some (acc.reverse, c :: r)
      else
        let (a, rest) := readAttribute (c :: r)
        match rest with
        | [] => none
        | d :: rest' =>
          if d = '/' || d = '>' then some ((a :: acc).reverse, d :: rest')
          else if d.utf8Size = 1 then readAttributes (a :: acc) rest' fuel
          else readAttributes (([], none) :: a :: acc) rest' fuel

/-- Reads what stands behind a `<`: a tag, unless it breaks off, and the rest. -/
def readTag (s : List Char) : Option Token × List Char :=
  match skipSpace s with
  | [] => (none, [])
  | '/' :: r => (some (.close (r.takeWhile (· ≠ '>'))), (r.dropWhile (· ≠ '>')).drop 1)
  | '!' :: r => (none, afterDeclaration r)
  | c :: r =>
    let name := (c :: r).takeWhile isNameChar
    match readAttributes [] ((c :: r).dropWhile isNameChar) (s.length + 1) with
    | none => (none, [])
    | some (as, rest) =>
      let (selfClosing, rest) : Bool × List Char :=
        match rest with
        | '/' :: rest => (true, rest)
        | rest => (false, rest)
      match rest with
      | '>' :: rest => (some (.start name as selfClosing), rest)
      | rest => (none, rest)

/-! ### Every step goes on -/

theorem skipSpace_length (s : List Char) : (skipSpace s).length ≤ s.length :=
  (List.dropWhile_sublist _).length_le

theorem afterComment_length (s : List Char) : (afterComment s).length ≤ s.length := by
  fun_induction afterComment s with
  | case1 => simp
  | case2 => simp
  | case3 => simp only [List.length_cons]; omega
  | case4 _ _ _ ih => simp only [List.length_cons]; omega
  | case5 _ _ _ _ ih => simp only [List.length_cons]; omega

theorem skipByte_length (s : List Char) : (skipByte s).length ≤ s.length + 2 := by
  cases s with
  | nil => simp [skipByte]
  | cons c s =>
    have := c.utf8Size_le_four
    simp only [skipByte, List.length_append, List.length_replicate, List.length_cons]
    omega

theorem afterDeclaration_length (s : List Char) : (afterDeclaration s).length ≤ s.length := by
  unfold afterDeclaration
  split
  · exact afterComment_length _
  · have h1 := Text.length_takeWhile_add_length_dropWhile isNameChar s
    have h2 := skipSpace_length (s.dropWhile isNameChar)
    simp only
    split
    · rename_i hw
      have h3 := congrArg List.length hw
      simp only [List.length_map] at h3
      have h4 := (List.dropWhile_sublist isNameChar (l := skipSpace (s.dropWhile isNameChar))).length_le
      have h5 := skipSpace_length ((skipSpace (s.dropWhile isNameChar)).dropWhile isNameChar)
      have h6 := skipByte_length (skipSpace ((skipSpace (s.dropWhile isNameChar)).dropWhile isNameChar))
      have h7 : "doctype".toList.length = 7 := rfl
      omega
    · omega

theorem readValue_length (s : List Char) : (readValue s).2.length ≤ s.length := by
  unfold readValue
  split
  · simp
  · rename_i c r
    split
    · have := (List.dropWhile_sublist (l := r) (fun x => decide (x ≠ c))).length_le
      simp only [List.length_cons]
      exact Nat.le_succ_of_le this
    · exact (List.dropWhile_sublist _).length_le

theorem readAttribute_length (s : List Char) : (readAttribute s).2.length ≤ s.length := by
  have h1 := (List.dropWhile_sublist isNameChar (l := s)).length_le
  have h2 := skipSpace_length (s.dropWhile isNameChar)
  unfold readAttribute
  simp only
  split
  · rename_i r hr
    have h3 := readValue_length (skipSpace r)
    have h4 := skipSpace_length r
    rw [hr, List.length_cons] at h2
    simp only
    omega
  · simp only
    omega

theorem readAttributes_length {acc as : List Attribute} {s rest : List Char} {fuel : Nat}
    (h : readAttributes acc s fuel = some (as, rest)) : rest.length ≤ s.length := by
  induction fuel generalizing acc s with
  | zero => simp [readAttributes] at h
  | succ fuel ih =>
    have hs := skipSpace_length s
    unfold readAttributes at h
    split at h
    · cases h
    · rename_i c r hc
      rw [hc] at hs
      split at h
      · simp only [Option.some.injEq, Prod.mk.injEq] at h
        rw [← h.2]
        exact hs
      · have ha := readAttribute_length (c :: r)
        simp only at h
        split at h
        · cases h
        · rename_i d rest' hd
          rw [hd] at ha
          simp only [List.length_cons] at ha hs
          split at h
          · simp only [Option.some.injEq, Prod.mk.injEq] at h
            rw [← h.2, List.length_cons]
            omega
          · split at h
            · have := ih h
              omega
            · have := ih h
              omega

theorem readTag_length (s : List Char) : (readTag s).2.length ≤ s.length := by
  have hs := skipSpace_length s
  unfold readTag
  split
  · simp
  · rename_i r hr
    have := (List.dropWhile_sublist (· ≠ '>') (l := r)).length_le
    rw [hr] at hs
    simp only [List.length_drop, List.length_cons] at *
    omega
  · rename_i r hr
    have := afterDeclaration_length r
    rw [hr] at hs
    simp only [List.length_cons] at *
    omega
  · rename_i c r _ _ hr
    rw [hr] at hs
    have hd := (List.dropWhile_sublist isNameChar (l := c :: r)).length_le
    simp only
    split
    · simp
    · rename_i as rest has
      have := readAttributes_length has
      split
      · rename_i h'
        have := congrArg List.length h'
        split at this <;> simp only [List.length_cons] at this <;> simp only [List.length_cons] at * <;> omega
      · split <;> simp only [List.length_cons] at * <;> omega

/-- The tokens of a fragment. -/
def tokens (s : List Char) : List Token :=
  match _hs : s with
  | [] => []
  | c :: r =>
    if c = '<' then
      match (readTag r).1 with
      | some t => t :: tokens (readTag r).2
      | none => tokens (readTag r).2
    else .text (c :: r.takeWhile (· ≠ '<')) :: tokens (r.dropWhile (· ≠ '<'))
termination_by s.length
decreasing_by
  all_goals simp only [List.length_cons]
  · exact Nat.lt_succ_of_le (readTag_length r)
  · exact Nat.lt_succ_of_le (readTag_length r)
  · exact Nat.lt_succ_of_le (List.dropWhile_sublist _).length_le

end Folio.Fragment
