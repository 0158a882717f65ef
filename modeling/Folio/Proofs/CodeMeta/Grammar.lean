import Folio.CodeMeta
import Folio.Proofs.Text
import Mathlib.Data.List.Induction

/-!
# The grammar of meta strings

`Token` relates the text of a token to the entry that it stands for, and `Spelled` the text of a whole meta string to
its entries. Reading a spelled text gives its entries (`value_collect_items`), whether the text stands as it is or in
braces (`parse_spelled`). Only a text that already starts with an opening brace and ends with a closing one is read as
if the two belonged together.
-/

namespace Folio.CodeMeta

open Text

/-! ### Tokens -/

/-- The text of a key. -/
structure IsKey (k : List Char) : Prop where
  ne_nil : k ≠ []
  all : ∀ c ∈ k, isKeyChar c = true

def IsQuote (c : Char) : Prop := c = '"' ∨ c = '\''

def IsSign (c : Char) : Prop := c = '=' ∨ c = ':'

/-- The text between quotes, and the value: a backslash takes the next character as it is. -/
inductive Quoted (quote : Char) : List Char → List Char → Prop where
  | nil : Quoted quote [] []
  | plain {c : Char} {s v : List Char} (hc : c ≠ '\\') (hq : c ≠ quote) (h : Quoted quote s v) :
      Quoted quote (c :: s) (c :: v)
  | escaped {c : Char} {s v : List Char} (h : Quoted quote s v) : Quoted quote ('\\' :: c :: s) (c :: v)

/-- A value as it is written between quotes, with no more backslashes than it needs. -/
def escape (quote : Char) (v : List Char) : List Char :=
  v.flatMap fun c => if c = '\\' ∨ c = quote then ['\\', c] else [c]

theorem quoted_escape (quote : Char) (v : List Char) : Quoted quote (escape quote v) v := by
  induction v with
  | nil => exact .nil
  | cons c v ih =>
    rw [escape, List.flatMap_cons]
    split
    · exact .escaped ih
    · rename_i plain
      exact .plain (fun h => plain (.inl h)) (fun h => plain (.inr h)) ih

/-- The texts of values, each with the value. -/
inductive Value : List Char → List Char → Prop where
  | bare {v : List Char} (hne : v ≠ []) (hv : ∀ c ∈ v, isSeparator c = false) (hq : ∀ c ∈ v.head?, ¬ IsQuote c) :
      Value v v
  | quoted {quote : Char} {s v : List Char} (hq : IsQuote quote) (h : Quoted quote s v) :
      Value (quote :: (s ++ [quote])) v

/-- The characters that other tools put around their tokens. -/
def enclosures : List (Char × Char) :=
  [('"', '"'), ('\'', '\''), ('/', '/'), ('\x7b', '\x7d'), ('[', ']'), ('(', ')')]

/-- The texts of tokens, each with the entry that it stands for; the tokens of other tools stand for none. -/
inductive Token : List Char → Option (String × Option String) → Prop where
  | flag {k : List Char} (hk : IsKey k) : Token k (some (String.ofList k, none))
  | assigned {k before after s v : List Char} {sign : Char} (hk : IsKey k) (hb : ∀ c ∈ before, isBlank c = true)
      (hs : IsSign sign) (ha : ∀ c ∈ after, isBlank c = true) (hv : Value s v) :
      Token (k ++ (before ++ sign :: (after ++ s))) (some (String.ofList k, some (String.ofList v)))
  | foreign {opening closing : Char} {s : List Char} (h : (opening, closing) ∈ enclosures) (hs : closing ∉ s) :
      Token (opening :: (s ++ [closing])) none

/-- The texts of meta strings, each with its entries: tokens with separators between and around them. -/
inductive Spelled : List (String × Option String) → List Char → Prop where
  | nil {gap : List Char} (hgap : ∀ c ∈ gap, isSeparator c = true) : Spelled [] gap
  | cons {gap t s : List Char} {e : Option (String × Option String)} {es : List (String × Option String)}
      (hgap : ∀ c ∈ gap, isSeparator c = true) (ht : Token t e) (apart : ∀ c ∈ s.head?, isSeparator c = true)
      (h : Spelled es s) : Spelled (e.toList ++ es) (gap ++ (t ++ s))

/-! ### Classes of characters -/

theorem isSeparator_of_isBlank {c : Char} (h : isBlank c = true) : isSeparator c = true := by
  rw [isSeparator, h, Bool.true_or]

theorem isBlank_of_not_isSeparator {c : Char} (h : isSeparator c = false) : isBlank c = false :=
  (Bool.or_eq_false_iff.1 h).1

theorem not_isKeyChar_of_isBlank {c : Char} (h : isBlank c = true) : isKeyChar c = false := by
  rw [isKeyChar, isLetter_of_isBlank h]
  simp only [Bool.false_or, Bool.or_eq_false_iff, decide_eq_false_iff_not]
  refine ⟨⟨?_, ?_⟩, ?_⟩
  · rintro rfl
    exact absurd h (by decide)
  · rintro rfl
    exact absurd h (by decide)
  · rintro rfl
    exact absurd h (by decide)

theorem not_isKeyChar_of_isSeparator {c : Char} (h : isSeparator c = true) : isKeyChar c = false := by
  rcases Bool.or_eq_true_iff.1 h with blank | comma
  · exact not_isKeyChar_of_isBlank blank
  · obtain rfl := of_decide_eq_true comma
    decide

theorem not_isSeparator_of_isKeyChar {c : Char} (h : isKeyChar c = true) : isSeparator c = false := by
  rw [Bool.eq_false_iff]
  intro sep
  rw [not_isKeyChar_of_isSeparator sep] at h
  cases h

theorem IsSign.class {c : Char} (h : IsSign c) : isKeyChar c = false ∧ isBlank c = false := by
  rcases h with rfl | rfl <;> decide

theorem IsQuote.class {c : Char} (h : IsQuote c) : isSeparator c = false ∧ c ≠ '\\' := by
  rcases h with rfl | rfl <;> decide

theorem closing?_of_mem {opening closing : Char} (h : (opening, closing) ∈ enclosures) :
    closing? opening = some closing ∧ isKeyChar opening = false ∧ isSeparator opening = false ∧
      isSeparator closing = false ∧ ¬ IsSign opening := by
  have all : ∀ e ∈ enclosures, closing? e.1 = some e.2 ∧ isKeyChar e.1 = false ∧ isSeparator e.1 = false ∧
      isSeparator e.2 = false ∧ ¬ (e.1 = '=' ∨ e.1 = ':') := by decide
  exact all _ h

/-! ### How tokens begin and end -/

theorem Value.exists_cons {s v : List Char} (h : Value s v) : ∃ c r, s = c :: r ∧ isSeparator c = false := by
  cases h with
  | bare hne hv hq =>
    obtain ⟨c, r, rfl⟩ := List.exists_cons_of_ne_nil hne
    exact ⟨c, r, rfl, hv c List.mem_cons_self⟩
  | quoted hq h => exact ⟨_, _, rfl, hq.class.1⟩

theorem Value.exists_concat {s v : List Char} (h : Value s v) : ∃ r c, s = r ++ [c] ∧ isSeparator c = false := by
  cases h with
  | bare hne hv hq => exact ⟨_, _, (List.dropLast_concat_getLast hne).symm, hv _ (List.getLast_mem hne)⟩
  | @quoted quote s v hq h => exact ⟨quote :: s, quote, rfl, hq.class.1⟩

theorem IsKey.exists_cons {k : List Char} (h : IsKey k) : ∃ c r, k = c :: r ∧ isKeyChar c = true := by
  obtain ⟨c, r, rfl⟩ := List.exists_cons_of_ne_nil h.ne_nil
  exact ⟨c, r, rfl, h.all c List.mem_cons_self⟩

theorem not_isSign_of_isKeyChar {c : Char} (h : isKeyChar c = true) : ¬ IsSign c := by
  intro sign
  rw [sign.class.1] at h
  cases h

namespace Token

variable {t : List Char} {e : Option (String × Option String)}

/-- A token starts with no separator, and with no sign that a key in front could take for its own. -/
theorem exists_cons (h : Token t e) : ∃ c r, t = c :: r ∧ isSeparator c = false ∧ ¬ IsSign c := by
  cases h with
  | flag hk =>
    obtain ⟨c, r, rfl, hc⟩ := hk.exists_cons
    exact ⟨c, r, rfl, not_isSeparator_of_isKeyChar hc, not_isSign_of_isKeyChar hc⟩
  | assigned hk hb hs ha hv =>
    obtain ⟨c, r, rfl, hc⟩ := hk.exists_cons
    exact ⟨c, _, rfl, not_isSeparator_of_isKeyChar hc, not_isSign_of_isKeyChar hc⟩
  | foreign h hs =>
    obtain ⟨-, -, hsep, -, hsign⟩ := closing?_of_mem h
    exact ⟨_, _, rfl, hsep, hsign⟩

theorem exists_concat (h : Token t e) : ∃ r c, t = r ++ [c] ∧ isSeparator c = false := by
  cases h with
  | flag hk =>
    exact ⟨_, _, (List.dropLast_concat_getLast hk.ne_nil).symm,
      not_isSeparator_of_isKeyChar (hk.all _ (List.getLast_mem hk.ne_nil))⟩
  | @assigned k before after s v sign hk hb hs ha hv =>
    obtain ⟨r, c, rfl, hc⟩ := hv.exists_concat
    exact ⟨k ++ (before ++ sign :: (after ++ r)), c, by simp, hc⟩
  | foreign h hs => exact ⟨_ :: _, _, rfl, (closing?_of_mem h).2.2.2.1⟩

end Token

/-! ### Reading a token -/

theorem readQuoted_quoted {quote : Char} {s v : List Char} (hq : quote ≠ '\\') (h : Quoted quote s v)
    (acc rest : List Char) : readQuoted quote acc (s ++ quote :: rest) = some (acc.reverse ++ v, rest) := by
  induction h generalizing acc with
  | nil =>
    rw [List.nil_append, readQuoted.eq_def]
    dsimp only
    rw [if_neg hq, if_pos rfl, List.append_nil]
  | plain hc hcq _ ih =>
    rw [List.cons_append, readQuoted.eq_def]
    dsimp only
    rw [if_neg hc, if_neg hcq, ih, List.reverse_cons, List.append_assoc]
    rfl
  | escaped _ ih =>
    rw [List.cons_append, List.cons_append, readQuoted.eq_def]
    dsimp only
    rw [if_pos rfl, ih, List.reverse_cons, List.append_assoc]
    rfl

theorem readValue_value (key : String) {s v rest : List Char} (h : Value s v)
    (apart : ∀ c ∈ rest.head?, isSeparator c = true) :
    readValue key (s ++ rest) = (.entry key (some (String.ofList v)), rest) := by
  cases h with
  | bare hne hv hquote =>
    have inside : ∀ c ∈ s, (!isSeparator c) = true := fun c hc => by rw [hv c hc]; rfl
    have behind : ∀ c ∈ rest.head?, (!isSeparator c) = false := fun c hc => by rw [apart c hc]; rfl
    have taken := takeWhile_append_of_head inside behind
    have left := dropWhile_append_of_head inside behind
    obtain ⟨c, r, rfl⟩ := List.exists_cons_of_ne_nil hne
    have quote : ¬ (c = '"' || c = '\'') = true := by simpa [IsQuote] using hquote c rfl
    have comma : c ≠ ',' := by
      rintro rfl
      exact absurd (hv ',' List.mem_cons_self) (by decide)
    rw [List.cons_append] at taken left ⊢
    rw [readValue, if_neg quote, if_neg comma, taken, left]
  | @quoted quote s v hq h =>
    have opens : (quote = '"' || quote = '\'') = true := by simpa [IsQuote] using hq
    rw [List.cons_append, List.append_assoc, readValue, if_pos opens, List.singleton_append,
      readQuoted_quoted hq.class.2 h, List.reverse_nil, List.nil_append]

theorem upTo_append {d : Char} {s : List Char} (h : d ∉ s) (rest : List Char) :
    upTo d (s ++ d :: rest) = s ++ [d] := by
  induction s with
  | nil => rw [List.nil_append, upTo, if_pos rfl, List.nil_append]
  | cons c s ih =>
    rw [List.cons_append, upTo, if_neg (List.ne_of_not_mem_cons h).symm, ih (List.not_mem_of_not_mem_cons h)]
    rfl

theorem readItem_of_isKey {k s : List Char} (hk : IsKey k) (hs : ∀ c ∈ s.head?, isKeyChar c = false) :
    readItem (k ++ s) =
      match s.dropWhile isBlank with
      | c :: r =>
        if c = '=' || c = ':' then readValue (String.ofList k) (r.dropWhile isBlank)
        else (.entry (String.ofList k) none, c :: r)
      | [] => (.entry (String.ofList k) none, []) := by
  have nonempty : ¬ k.isEmpty = true := by simpa using hk.ne_nil
  rw [readItem, takeWhile_append_of_head hk.all hs, dropWhile_append_of_head hk.all hs]
  exact if_neg nonempty

/-- What a token is read as. -/
def Item.Gives (i : Item) (e : Option (String × Option String)) : Prop :=
  ∀ is, (collect (i :: is)).value = (collect is).value.map (e.toList ++ ·)

theorem gives_entry (key : String) (value : Option String) : (Item.entry key value).Gives (some (key, value)) :=
  fun _ => rfl

theorem gives_foreign (token : String) : (Item.foreign token).Gives none := by
  intro is
  show (collect is).value = _
  cases (collect is).value <;> rfl

theorem dropWhile_isBlank_isSeparator (s : List Char) :
    (s.dropWhile isBlank).dropWhile isSeparator = s.dropWhile isSeparator := by
  calc (s.dropWhile isBlank).dropWhile isSeparator
      = (s.takeWhile isBlank ++ s.dropWhile isBlank).dropWhile isSeparator :=
        (List.dropWhile_append_of_pos fun c hc => isSeparator_of_isBlank (List.mem_takeWhile_imp hc)).symm
    _ = s.dropWhile isSeparator := by rw [List.takeWhile_append_dropWhile]

/-- A value is read behind its key, the sign and the white space around that. -/
theorem readItem_assigned {k before after s v rest : List Char} {sign : Char} (hk : IsKey k)
    (hb : ∀ c ∈ before, isBlank c = true) (hs : IsSign sign) (ha : ∀ c ∈ after, isBlank c = true) (hv : Value s v)
    (apart : ∀ c ∈ rest.head?, isSeparator c = true) :
    readItem (k ++ (before ++ sign :: (after ++ (s ++ rest)))) =
      (.entry (String.ofList k) (some (String.ofList v)), rest) := by
  obtain ⟨d, r, htext, hd⟩ := hv.exists_cons
  have behind : ∀ c ∈ (before ++ sign :: (after ++ (s ++ rest))).head?, isKeyChar c = false := by
    cases before with
    | nil =>
      rintro c ⟨⟩
      exact hs.class.1
    | cons b before =>
      rintro c ⟨⟩
      exact not_isKeyChar_of_isBlank (hb _ List.mem_cons_self)
  have signed : (before ++ sign :: (after ++ (s ++ rest))).dropWhile isBlank = sign :: (after ++ (s ++ rest)) := by
    refine dropWhile_append_of_head hb ?_
    rintro c ⟨⟩
    exact hs.class.2
  have valued : (after ++ (s ++ rest)).dropWhile isBlank = s ++ rest := by
    refine dropWhile_append_of_head ha ?_
    rw [htext]
    rintro c ⟨⟩
    exact isBlank_of_not_isSeparator hd
  have signs : (sign = '=' || sign = ':') = true := by simpa [IsSign] using hs
  rw [readItem_of_isKey hk behind, signed]
  dsimp only
  rw [if_pos signs, valued, readValue_value _ hv apart]

theorem foreignLength_enclosed {opening closing : Char} {inner s : List Char} (h : closing? opening = some closing)
    (hs : closing ∉ inner) (apart : ∀ c ∈ s.head?, isSeparator c = true) :
    foreignLength (opening :: (inner ++ closing :: s)) = (opening :: (inner ++ [closing])).length := by
  have run : (upTo closing (inner ++ closing :: s)).length + 1 = (opening :: (inner ++ [closing])).length := by
    rw [upTo_append hs, List.length_cons]
  have whole : opening :: (inner ++ closing :: s) = (opening :: (inner ++ [closing])) ++ s := by simp
  have rest : s.takeWhile (!isSeparator ·) = [] :=
    takeWhile_eq_nil_of_head fun c hc => by rw [apart c hc]; rfl
  rw [foreignLength]
  simp only [h]
  rw [run, whole, List.drop_left, rest, List.length_nil, Nat.add_zero]

theorem readItem_enclosed {opening closing : Char} {inner s : List Char} (h : (opening, closing) ∈ enclosures)
    (hs : closing ∉ inner) (apart : ∀ c ∈ s.head?, isSeparator c = true) :
    readItem (opening :: (inner ++ closing :: s)) =
      (.foreign (String.ofList (opening :: (inner ++ [closing]))), s) := by
  obtain ⟨closes, key, -, -, -⟩ := closing?_of_mem h
  have noKey : ((opening :: (inner ++ closing :: s)).takeWhile isKeyChar).isEmpty = true := by
    rw [List.takeWhile_cons_of_neg (by simp [key])]
    rfl
  have size : max (foreignLength (opening :: (inner ++ closing :: s))) 1 =
      (opening :: (inner ++ [closing])).length := by
    rw [foreignLength_enclosed closes hs apart]
    exact Nat.max_eq_left (by simp)
  have whole : opening :: (inner ++ closing :: s) = opening :: (inner ++ [closing]) ++ s := by simp
  rw [readItem]
  dsimp only
  rw [if_pos noKey, size, whole, List.take_left, List.drop_left]

/-- A token is read as what it stands for. What is left of the text starts like the text behind the token, but for
separators. -/
theorem readItem_token {t s : List Char} {e : Option (String × Option String)} (ht : Token t e)
    (apart : ∀ c ∈ s.head?, isSeparator c = true) (noSign : ∀ c ∈ (s.dropWhile isBlank).head?, ¬ IsSign c) :
    (readItem (t ++ s)).1.Gives e ∧ (readItem (t ++ s)).2.dropWhile isSeparator = s.dropWhile isSeparator := by
  cases ht with
  | flag hk =>
    -- A flag is read with the white space behind it, in search of a sign.
    have skipped := dropWhile_isBlank_isSeparator s
    rw [readItem_of_isKey hk fun c hc => not_isKeyChar_of_isSeparator (apart c hc)]
    cases hr : s.dropWhile isBlank with
    | nil =>
      rw [hr] at skipped
      exact ⟨gives_entry _ _, skipped⟩
    | cons c r =>
      rw [hr] at noSign skipped
      have plain : ¬ (c = '=' || c = ':') = true := by simpa [IsSign] using noSign c rfl
      dsimp only
      rw [if_neg plain]
      exact ⟨gives_entry _ _, skipped⟩
  | assigned hk hb hs ha hv =>
    simp only [List.append_assoc, List.cons_append]
    rw [readItem_assigned hk hb hs ha hv apart]
    exact ⟨gives_entry _ _, rfl⟩
  | foreign h hs =>
    rw [List.cons_append, List.append_assoc, List.singleton_append, readItem_enclosed h hs apart]
    exact ⟨gives_foreign _, rfl⟩

/-! ### Reading a text -/

theorem items_of_separators {s : List Char} (h : ∀ c ∈ s, isSeparator c = true) : items s = [] := by
  rw [items, dif_pos (List.dropWhile_eq_nil_iff.2 h)]

theorem items_eq_cons {gap s : List Char} (hgap : ∀ c ∈ gap, isSeparator c = true) (hne : s ≠ [])
    (hs : ∀ c ∈ s.head?, isSeparator c = false) :
    items (gap ++ s) = (readItem s).1 :: items (readItem s).2 := by
  rw [items, dropWhile_append_of_head hgap hs, dif_neg hne]

/-- Separators in front make no difference. -/
theorem items_congr {s s' : List Char} (h : s.dropWhile isSeparator = s'.dropWhile isSeparator) :
    items s = items s' := by
  rw [items.eq_def s, items.eq_def s', h]

namespace Spelled

variable {s : List Char} {es : List (String × Option String)}

/-- Behind the white space at the front stands no sign. -/
theorem not_isSign (h : Spelled es s) : ∀ c ∈ (s.dropWhile isBlank).head?, ¬ IsSign c := by
  have gap_cases (gap t : List Char) (hgap : ∀ c ∈ gap, isSeparator c = true)
      (ht : ∀ c ∈ (t.dropWhile isBlank).head?, ¬ IsSign c) :
      ∀ c ∈ ((gap ++ t).dropWhile isBlank).head?, ¬ IsSign c := by
    induction gap with
    | nil => exact ht
    | cons g gap ih =>
      obtain ⟨hg, hgap⟩ := List.forall_mem_cons.1 hgap
      by_cases blank : isBlank g = true
      · rw [List.cons_append, List.dropWhile_cons_of_pos blank]
        exact ih hgap
      · -- What is left of a gap starts with a comma.
        rw [List.cons_append, List.dropWhile_cons_of_neg blank]
        rintro c ⟨⟩ sign
        have comma := (Bool.or_eq_true_iff.1 hg).resolve_left blank
        obtain rfl := of_decide_eq_true comma
        rcases sign with equals | colon
        · exact absurd equals (by decide)
        · exact absurd colon (by decide)
  cases h with
  | nil hgap => simpa using gap_cases s [] hgap (by simp)
  | cons hgap ht apart h =>
    refine gap_cases _ _ hgap ?_
    obtain ⟨c, r, rfl, hc, sign⟩ := ht.exists_cons
    rw [List.cons_append, List.dropWhile_cons_of_neg (by simp [isBlank_of_not_isSeparator hc])]
    rintro _ ⟨⟩
    exact sign

end Spelled

/-- A spelled text is read as its entries. -/
theorem value_collect_items {es : List (String × Option String)} {s : List Char} (h : Spelled es s) :
    (collect (items s)).value = .ok es := by
  induction h with
  | nil hgap =>
    rw [items_of_separators hgap]
    rfl
  | @cons gap t s e es hgap ht apart h ih =>
    obtain ⟨gives, left⟩ := readItem_token ht apart h.not_isSign
    obtain ⟨c, r, hr, hc, -⟩ := ht.exists_cons
    have starts : ∀ c ∈ (t ++ s).head?, isSeparator c = false := by
      rw [hr]
      rintro _ ⟨⟩
      exact hc
    rw [items_eq_cons hgap (by simp [hr]) starts, gives, items_congr left, ih]
    rfl

/-! ### White space and braces around a text -/

/-- White space at the ends of a spelled text may be taken off. -/
theorem Spelled.trimEnd {es : List (String × Option String)} {s : List Char} (h : Spelled es s) :
    Spelled es (trimEnd s) := by
  induction h with
  | nil hgap => exact .nil fun c hc => hgap c ((dropEndWhile_isPrefix ..).subset hc)
  | @cons gap t s e es hgap ht apart h ih =>
    obtain ⟨r, c, rfl, hc⟩ := ht.exists_concat
    have stays : Text.trimEnd (gap ++ (r ++ [c] ++ s)) = gap ++ (r ++ [c] ++ Text.trimEnd s) := by
      have whole : gap ++ (r ++ [c] ++ s) = (gap ++ r) ++ c :: s := by simp
      rw [whole, Text.trimEnd, dropEndWhile_append (isBlank_of_not_isSeparator hc)]
      simp [Text.trimEnd]
    rw [stays]
    refine .cons hgap ht (fun d hd => apart d ?_) ih
    obtain ⟨u, hu⟩ := dropEndWhile_isPrefix isBlank s
    rw [← hu, Option.mem_def, List.head?_append, show (dropEndWhile isBlank s).head? = some d from hd]
    rfl

theorem Spelled.trimStart {es : List (String × Option String)} {s : List Char} (h : Spelled es s) :
    Spelled es (trimStart s) := by
  cases h with
  | nil hgap => exact .nil fun c hc => hgap c ((List.dropWhile_sublist _).subset hc)
  | @cons gap t s e es hgap ht apart h =>
    obtain ⟨c, r, hr, hc, -⟩ := ht.exists_cons
    have stays : Text.trimStart (gap ++ (t ++ s)) = Text.trimStart gap ++ (t ++ s) := by
      rw [Text.trimStart, List.dropWhile_append]
      split
      · rename_i none
        rw [hr, List.cons_append, List.dropWhile_cons_of_neg (by simp [isBlank_of_not_isSeparator hc]),
          Text.trimStart, List.isEmpty_iff.1 none, List.nil_append]
      · rfl
    rw [stays]
    exact .cons (fun c hc => hgap c ((List.dropWhile_sublist _).subset hc)) ht apart h

theorem Spelled.trim {es : List (String × Option String)} {s : List Char} (h : Spelled es s) :
    Spelled es (trim s) := h.trimStart.trimEnd

/-- A text starts with an opening brace and ends with a closing one. -/
def InBraces (s : List Char) : Prop := s.head? = some '\x7b' ∧ s.getLast? = some '\x7d'

instance (s : List Char) : Decidable (InBraces s) := inferInstanceAs (Decidable (_ ∧ _))

theorem unbrace_of_not_inBraces {s : List Char} (h : ¬ InBraces s) : unbrace s = s := by
  unfold unbrace
  split
  · rename_i r
    split
    · rename_i inner closes
      refine absurd ⟨rfl, ?_⟩ h
      have last : r = inner.reverse ++ ['\x7d'] := by
        rw [← List.reverse_reverse r, closes, List.reverse_cons]
      rw [last, ← List.cons_append, List.getLast?_concat]
    · rfl
  · rfl

theorem trim_braces {before after : List Char} (hb : ∀ c ∈ before, isBlank c = true)
    (ha : ∀ c ∈ after, isBlank c = true) (s : List Char) :
    unbrace (trim (before ++ '\x7b' :: (s ++ '\x7d' :: after))) = s := by
  have start : trimStart (before ++ '\x7b' :: (s ++ '\x7d' :: after)) = '\x7b' :: (s ++ '\x7d' :: after) := by
    refine dropWhile_append_of_head hb ?_
    rintro _ ⟨⟩
    decide
  have stop : trimEnd ('\x7b' :: (s ++ '\x7d' :: after)) = '\x7b' :: (s ++ ['\x7d']) := by
    have none : dropEndWhile isBlank after = [] := dropEndWhile_append_of_forall (s := []) ha
    rw [trimEnd, ← List.cons_append, dropEndWhile_append (by decide), none]
    rfl
  rw [trim, start, stop, unbrace]
  simp

theorem value_parse (s : List Char) :
    (parse (String.ofList s)).value = (collect (items (unbrace (trim s)))).value.map CodeMeta.mk := by
  rw [parse, String.toList_ofList]
  rfl

/-! ### The last entry of a key -/

/-- The last entry of a key. -/
def lastNamed? (entries : List (String × Option String)) (key : String) : Option (String × Option String) :=
  (entries.filter fun e => e.1 = key).getLast?

theorem get?_eq (entries : List (String × Option String)) (key : String) :
    get? ⟨entries⟩ key = (lastNamed? entries key).bind (·.2) := by
  unfold get? lastNamed?
  dsimp only
  induction entries using List.reverseRecOn with
  | nil => rfl
  | append_singleton es e ih =>
    rw [List.reverse_append, List.reverse_singleton, List.singleton_append, List.lookup_cons, List.filter_append]
    by_cases here : e.1 = key
    · simp [here]
    · have other : (key == e.1) = false := beq_false_of_ne (Ne.symm here)
      rw [other, List.filter_cons_of_neg (by simpa using here), List.filter_nil, List.append_nil]
      exact ih

/-- A spelled text is read as its entries, unless it starts with an opening brace and ends with a closing one; in braces
every spelled text is read as its entries. The file is the last one that is named. -/
theorem parse_spelled {entries : List (String × Option String)} {s : List Char} (h : Spelled entries s) :
    (¬ InBraces (trim s) → (parse (String.ofList s)).value = .ok ⟨entries⟩) ∧
      (∀ before after : List Char, (∀ c ∈ before, isBlank c = true) → (∀ c ∈ after, isBlank c = true) →
        (parse (String.ofList (before ++ '\x7b' :: (s ++ '\x7d' :: after)))).value = .ok ⟨entries⟩) ∧
      file? ⟨entries⟩ = ((lastNamed? entries "file").bind (·.2)).filter (!·.isEmpty) := by
  refine ⟨fun apart => ?_, fun before after hb ha => ?_, ?_⟩
  · rw [value_parse, unbrace_of_not_inBraces apart, value_collect_items h.trim]
    rfl
  · rw [value_parse, trim_braces hb ha, value_collect_items h]
    rfl
  · rw [file?, get?_eq]
    rfl

theorem Spelled.cons_of_all {gap t s : List Char} {e : Option (String × Option String)}
    {es : List (String × Option String)} (hgap : gap.all isSeparator = true) (ht : Token t e)
    (apart : s.head?.all isSeparator = true) (h : Spelled es s) : Spelled (e.toList ++ es) (gap ++ (t ++ s)) := by
  refine .cons (List.all_eq_true.1 hgap) ht (fun c hc => ?_) h
  rw [show s.head? = some c from hc] at apart
  exact apart

theorem parse_spelled_markers :
    let entries := [("showLineNumbers", none), ("file", some "a b.rs")]
    let s := "showLineNumbers \x7b1-3\x7d, file='a b.rs' /x y/".toList
    Spelled entries s ∧ ¬ InBraces (trim s) ∧ (parse (String.ofList s)).value = .ok ⟨entries⟩ ∧
      (parse (String.ofList ([' '] ++ '\x7b' :: (s ++ '\x7d' :: [])))).value = .ok ⟨entries⟩ := by
  intro entries s
  have flagKey : IsKey "showLineNumbers".toList := ⟨by decide, List.all_eq_true.1 (by decide)⟩
  have fileKey : IsKey "file".toList := ⟨by decide, List.all_eq_true.1 (by decide)⟩
  have range : Token "\x7b1-3\x7d".toList none := @Token.foreign '\x7b' '\x7d' ['1', '-', '3'] (by decide) (by decide)
  have file : Token "file='a b.rs'".toList (some ("file", some "a b.rs")) :=
    @Token.assigned "file".toList [] [] "'a b.rs'".toList "a b.rs".toList '=' fileKey (List.forall_mem_nil _)
      (.inl rfl) (List.forall_mem_nil _) (.quoted (.inr rfl) (quoted_escape '\'' "a b.rs".toList))
  have marker : Token "/x y/".toList none := @Token.foreign '/' '/' ['x', ' ', 'y'] (by decide) (by decide)
  have spelled : Spelled entries s :=
    @Spelled.cons_of_all [] _ _ _ _ rfl (.flag flagKey) rfl <|
    @Spelled.cons_of_all [' '] _ _ _ _ (by decide) range rfl <|
    @Spelled.cons_of_all [',', ' '] _ _ _ _ (by decide) file (by decide) <|
    @Spelled.cons_of_all [' '] _ _ _ _ (by decide) marker rfl <| @Spelled.nil [] (List.forall_mem_nil _)
  have apart : ¬ InBraces (trim s) := by decide +kernel
  obtain ⟨bare, braced, -⟩ := parse_spelled spelled
  exact ⟨spelled, apart, bare apart, braced [' '] [] (List.all_eq_true.1 (by decide)) (List.forall_mem_nil _)⟩

/-- A text in braces is no token of another tool, although it may look like one: it is read as what the braces hold. A
file without a name is none. -/
theorem parse_objectLiteral_emptyFile :
    let s := "\x7b file: '../src/lib.rs', title: \"Library\" \x7d".toList
    let empty := "file=''".toList
    Spelled [] s ∧ InBraces s ∧
      (parse (String.ofList s)).value = .ok ⟨[("file", some "../src/lib.rs"), ("title", some "Library")]⟩ ∧
      (CodeMeta.mk [("file", some "../src/lib.rs"), ("title", some "Library")]).file? = some "../src/lib.rs" ∧
      Spelled [("file", some "")] empty ∧ (parse (String.ofList empty)).value = .ok ⟨[("file", some "")]⟩ ∧
      (CodeMeta.mk [("file", some "")]).file? = none := by
  intro s empty
  have braces : Token s none :=
    @Token.foreign '\x7b' '\x7d' " file: '../src/lib.rs', title: \"Library\" ".toList (by decide) (by decide)
  have fileKey : IsKey "file".toList := ⟨by decide, List.all_eq_true.1 (by decide)⟩
  have file : Token empty (some ("file", some "")) :=
    @Token.assigned "file".toList [] [] "''".toList [] '=' fileKey (List.forall_mem_nil _) (.inl rfl)
      (List.forall_mem_nil _) (.quoted (.inr rfl) .nil)
  have foreign : Spelled [] s := @Spelled.cons_of_all [] s [] _ [] rfl braces rfl (.nil (List.forall_mem_nil _))
  have entry : Spelled [("file", some "")] empty :=
    @Spelled.cons_of_all [] empty [] _ [] rfl file rfl (.nil (List.forall_mem_nil _))
  exact ⟨foreign, by decide, by decide +kernel, by decide, entry, by decide +kernel, by decide⟩

end Folio.CodeMeta
