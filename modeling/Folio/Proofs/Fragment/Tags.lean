import Folio.Fragment
import Folio.Proofs.Text

/-!
# Reading tags

How plain markup is cut into tokens: a text up to the next tag, end tags, and start tags with no attribute or with one
in double quotes.
-/

namespace Folio.Fragment

open Text Html

/-! ### Names -/

/-- The name of a tag that is read as it is written. -/
structure IsName (name : List Char) : Prop where
  ne_nil : name ≠ []
  all : ∀ c ∈ name, isNameChar c = true
  noSlash : name.head? ≠ some '/'

/-- The name of an element with content: a word of small letters of ASCII. -/
structure IsTagName (t : List Char) : Prop where
  ne_nil : t ≠ []
  lower : ∀ c ∈ t, c.isLower = true
  notVoid : voidNames.contains (String.ofList t) = false

theorem toNat_of_isLower {c : Char} (h : c.isLower = true) : 97 ≤ c.toNat ∧ c.toNat ≤ 122 := by
  obtain ⟨first, last⟩ := Bool.and_eq_true_iff.1 h
  exact ⟨UInt32.le_iff_toNat_le.1 (of_decide_eq_true first), UInt32.le_iff_toNat_le.1 (of_decide_eq_true last)⟩

theorem isNameChar_of_isLower {c : Char} (h : c.isLower = true) : isNameChar c = true := by
  have letter : c.isAlphanum = true := Bool.or_eq_true_iff.2 (.inl (Bool.or_eq_true_iff.2 (.inr h)))
  simp [isNameChar, letter]

theorem ne_of_isLower {c d : Char} (h : c.isLower = true) (hd : d.isLower = false) : c ≠ d := by
  rintro rfl
  rw [h] at hd
  cases hd

theorem lowerChar_of_isLower {c : Char} (h : c.isLower = true) : lowerChar c = [c] := by
  obtain ⟨first, last⟩ := toNat_of_isLower h
  have stays : c.toLower = c := by
    refine dif_neg ?_
    rintro ⟨-, capital⟩
    have : c.toNat ≤ 90 := UInt32.le_iff_toNat_le.1 capital
    omega
  rw [lowerChar, if_pos (by omega), stays]

/-- Small letters stay as they are. -/
theorem lower_of_isLower {t : List Char} (h : ∀ c ∈ t, c.isLower = true) : Text.lower t = t := by
  have stays (before : List Char) : lowerFrom before t = t := by
    induction t generalizing before with
    | nil => rfl
    | cons c t ih =>
      obtain ⟨hc, ht⟩ := List.forall_mem_cons.1 h
      rw [lowerFrom, if_neg (ne_of_isLower hc (by decide)), lowerChar_of_isLower hc, ih ht]
      rfl
  exact stays []

theorem IsTagName.isName {t : List Char} (h : IsTagName t) : IsName t :=
  ⟨h.ne_nil, fun c hc => isNameChar_of_isLower (h.lower c hc),
    fun slash => ne_of_isLower (h.lower '/' (List.mem_of_mem_head? slash)) (by decide) rfl⟩

/-! ### Texts -/

theorem tokens_nil : tokens [] = [] := by rw [tokens]

/-- A text ends where a tag starts. -/
theorem tokens_text {s rest : List Char} (hne : s ≠ []) (hs : '<' ∉ s) (hrest : ∀ c ∈ rest.head?, c = '<') :
    tokens (s ++ rest) = .text s :: tokens rest := by
  obtain ⟨c, r, rfl⟩ := List.exists_cons_of_ne_nil hne
  have behind := List.not_mem_of_not_mem_cons hs
  rw [List.cons_append, tokens, if_neg (List.ne_of_not_mem_cons hs).symm, takeWhile_ne_append behind hrest,
    dropWhile_ne_append behind hrest]

theorem tokens_tag {r rest : List Char} {t : Token} (h : readTag r = (some t, rest)) :
    tokens ('<' :: r) = t :: tokens rest := by
  rw [tokens, if_pos rfl, h]

/-! ### Tags -/

theorem tokens_close {name : List Char} (h : '>' ∉ name) (rest : List Char) :
    tokens ('<' :: '/' :: (name ++ '>' :: rest)) = .close name :: tokens rest := by
  have stop : ∀ c ∈ ('>' :: rest).head?, c = '>' := by
    rintro _ ⟨⟩
    rfl
  have skip : skipSpace ('/' :: (name ++ '>' :: rest)) = '/' :: (name ++ '>' :: rest) :=
    List.dropWhile_cons_of_neg (by decide)
  refine tokens_tag ?_
  rw [readTag, skip]
  show (some (Token.close ((name ++ '>' :: rest).takeWhile (· ≠ '>'))),
    ((name ++ '>' :: rest).dropWhile (· ≠ '>')).drop 1) = _
  rw [takeWhile_ne_append h stop, dropWhile_ne_append h stop]
  rfl

theorem skipSpace_of_isNameChar {c : Char} (h : isNameChar c = true) (s : List Char) : skipSpace (c :: s) = c :: s := by
  refine List.dropWhile_cons_of_neg ?_
  intro space
  rcases Bool.or_eq_true_iff.1 space with blank | newline
  · obtain rfl := of_decide_eq_true blank
    exact absurd h (by decide)
  · obtain rfl := of_decide_eq_true newline
    exact absurd h (by decide)

/-- A start tag is read if what stands behind its name is read as attributes up to its end. -/
theorem tokens_start {name after rest : List Char} {as : List Attribute} (hname : IsName name)
    (hafter : ∀ c ∈ after.head?, isNameChar c = false)
    (h : ∀ n, readAttributes [] after (n + 2) = some (as, '>' :: rest)) :
    tokens ('<' :: (name ++ after)) = .start name as false :: tokens rest := by
  refine tokens_tag ?_
  have taken := takeWhile_append_of_head hname.all hafter
  have left := dropWhile_append_of_head hname.all hafter
  obtain ⟨c, r, rfl⟩ := List.exists_cons_of_ne_nil hname.ne_nil
  have hc := hname.all c List.mem_cons_self
  have slash : c ≠ '/' := fun h => hname.noSlash (congrArg some h)
  have mark : c ≠ '!' := by
    rintro rfl
    exact absurd hc (by decide)
  rw [List.cons_append] at taken left ⊢
  rw [readTag.eq_def, skipSpace_of_isNameChar hc]
  split
  · rename_i e
    cases e
  · rename_i e
    exact absurd (List.cons.inj e).1 slash
  · rename_i e
    exact absurd (List.cons.inj e).1 mark
  · rename_i d r' _ _ e
    obtain ⟨rfl, rfl⟩ := List.cons.inj e
    dsimp only
    rw [taken, left, List.length_cons, h]
    rfl

theorem tokens_startTag {name : List Char} (h : IsName name) (rest : List Char) :
    tokens ('<' :: (name ++ '>' :: rest)) = .start name [] false :: tokens rest := by
  refine tokens_start h ?_ fun n => ?_
  · rintro _ ⟨⟩
    decide
  · have skip : skipSpace ('>' :: rest) = '>' :: rest := List.dropWhile_cons_of_neg (by decide)
    rw [readAttributes, skip]
    rfl

/-- An attribute with its value in double quotes. -/
def quotedAttribute (key value : List Char) : List Char := ' ' :: (key ++ '=' :: '"' :: (value ++ ['"']))

theorem readAttribute_quoted {key value : List Char} (hkey : IsName key) (hvalue : '"' ∉ value) (rest : List Char) :
    readAttribute (key ++ '=' :: '"' :: (value ++ '"' :: rest)) = ((key, some value), '"' :: rest) := by
  have behind : ∀ d ∈ ('=' :: '"' :: (value ++ '"' :: rest)).head?, isNameChar d = false := by
    rintro _ ⟨⟩
    decide
  have stop : ∀ c ∈ ('"' :: rest).head?, c = '"' := by
    rintro _ ⟨⟩
    rfl
  have sign : skipSpace ('=' :: '"' :: (value ++ '"' :: rest)) = '=' :: '"' :: (value ++ '"' :: rest) :=
    List.dropWhile_cons_of_neg (by decide)
  have quote : skipSpace ('"' :: (value ++ '"' :: rest)) = '"' :: (value ++ '"' :: rest) :=
    List.dropWhile_cons_of_neg (by decide)
  have read : readValue ('"' :: (value ++ '"' :: rest)) = (value, '"' :: rest) := by
    rw [readValue, if_pos (by decide), takeWhile_ne_append hvalue stop, dropWhile_ne_append hvalue stop]
  rw [readAttribute, takeWhile_append_of_head hkey.all behind, dropWhile_append_of_head hkey.all behind, sign]
  show ((key, some (readValue (skipSpace ('"' :: (value ++ '"' :: rest)))).1),
    (readValue (skipSpace ('"' :: (value ++ '"' :: rest)))).2) = _
  rw [quote, read]

theorem tokens_startTag_attribute {name key value : List Char} (h : IsName name) (hkey : IsName key)
    (hvalue : '"' ∉ value) (rest : List Char) :
    tokens ('<' :: (name ++ (quotedAttribute key value ++ '>' :: rest))) =
      .start name [(key, some value)] false :: tokens rest := by
  refine tokens_start h ?_ fun n => ?_
  · rintro _ ⟨⟩
    decide
  · obtain ⟨c, r, hc⟩ := List.exists_cons_of_ne_nil hkey.ne_nil
    have letter : isNameChar c = true := hkey.all c (hc ▸ List.mem_cons_self)
    have goesOn : ¬ (c = '/' || c = '>') = true := by
      have slash : c ≠ '/' := fun h => hkey.noSlash (by rw [hc, h]; rfl)
      have close : c ≠ '>' := by
        rintro rfl
        exact absurd letter (by decide)
      simp [slash, close]
    have read := readAttribute_quoted hkey hvalue ('>' :: rest)
    have skip : skipSpace (quotedAttribute key value ++ '>' :: rest) =
        key ++ '=' :: '"' :: (value ++ '"' :: '>' :: rest) := by
      have whole : quotedAttribute key value ++ '>' :: rest =
          ' ' :: (key ++ '=' :: '"' :: (value ++ '"' :: '>' :: rest)) := by
        simp [quotedAttribute]
      rw [whole, skipSpace, List.dropWhile_cons_of_pos (by decide), hc]
      exact skipSpace_of_isNameChar letter _
    have close : skipSpace ('>' :: rest) = '>' :: rest := List.dropWhile_cons_of_neg (by decide)
    rw [readAttributes, skip]
    rw [hc, List.cons_append] at read ⊢
    dsimp only
    rw [if_neg goesOn, read]
    dsimp only
    -- the closing quote is passed, and what follows is the end of the tag
    rw [if_neg (by decide), if_pos (by decide), readAttributes, close]
    rfl

end Folio.Fragment
