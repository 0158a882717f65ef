import Folio.Proofs.CodeMeta.Grammar

/-!
# Writing entries

Entries are written one by one with gaps between them; a value stands in quotes. Reading what was written gives the
entries back, with braces around the whole or without (`parse_print`).
-/

namespace Folio.CodeMeta

open Text

/-! ### Layout -/

/-- White space, or nothing. -/
structure Space where
  text : List Char
  blank : ∀ c ∈ text, isBlank c = true

/-- What separates two entries. -/
structure Gap where
  text : List Char
  ne_nil : text ≠ []
  separators : ∀ c ∈ text, isSeparator c = true

/-- How a value is written behind its key: the sign with the white space around it, and the quotes. -/
structure Layout where
  before : Space
  sign : Char
  after : Space
  quote : Char
  isSign : IsSign sign
  isQuote : IsQuote quote

/-- An entry that can be written. -/
structure Written where
  key : List Char
  isKey : IsKey key
  value : Option String
  layout : Layout

namespace Written

def entry (w : Written) : String × Option String := (String.ofList w.key, w.value)

/-- A flag is written as its key alone. -/
def text (w : Written) : List Char :=
  match w.value with
  | none => w.key
  | some v =>
    let l := w.layout
    w.key ++ (l.before.text ++ l.sign :: (l.after.text ++ l.quote :: (escape l.quote v.toList ++ [l.quote])))

theorem token (w : Written) : Token w.text (some w.entry) := by
  obtain ⟨key, isKey, value, layout⟩ := w
  cases value with
  | none => exact .flag isKey
  | some v =>
    have value := Value.quoted layout.isQuote (quoted_escape layout.quote v.toList)
    have token := Token.assigned isKey layout.before.blank layout.isSign layout.after.blank value
    rwa [String.ofList_toList] at token

theorem exists_cons (w : Written) : ∃ c r, w.text = c :: r ∧ isKeyChar c = true := by
  obtain ⟨c, r, hk, hc⟩ := w.isKey.exists_cons
  unfold text
  split
  · exact ⟨c, r, hk, hc⟩
  · exact ⟨c, _, by rw [hk, List.cons_append], hc⟩

end Written

/-- Entries with the gaps behind them; behind the last one there is none. -/
def print : List (Written × Gap) → List Char
  | [] => []
  | [(w, _)] => w.text
  | (w, gap) :: e :: es => w.text ++ (gap.text ++ print (e :: es))

/-- The entries that are written. -/
def entriesOf (es : List (Written × Gap)) : List (String × Option String) := es.map (·.1.entry)

/-! ### Reading what was written -/

theorem spelled_print (es : List (Written × Gap)) {before after : List Char}
    (hb : ∀ c ∈ before, isSeparator c = true) (ha : ∀ c ∈ after, isSeparator c = true) :
    Spelled (entriesOf es) (before ++ (print es ++ after)) := by
  induction es generalizing before with
  | nil => exact .nil (List.forall_mem_append.2 ⟨hb, ha⟩)
  | cons e es ih =>
    obtain ⟨w, gap⟩ := e
    cases es with
    | nil => exact .cons hb w.token (fun c hc => ha c (List.mem_of_mem_head? hc)) (.nil ha)
    | cons e es =>
      obtain ⟨g, r, hg⟩ := List.exists_cons_of_ne_nil gap.ne_nil
      have apart : ∀ c ∈ (gap.text ++ (print (e :: es) ++ after)).head?, isSeparator c = true := by
        rw [hg]
        rintro _ ⟨⟩
        exact gap.separators g (hg ▸ List.mem_cons_self)
      have spelled := Spelled.cons hb w.token apart (ih gap.separators)
      rw [print, List.append_assoc, List.append_assoc]
      exact spelled

theorem isSeparator_of_space (s : Space) : ∀ c ∈ s.text, isSeparator c = true :=
  fun c hc => isSeparator_of_isBlank (s.blank c hc)

theorem head?_of_trim {s : List Char} {c : Char} (h : (trim s).head? = some c) : (trimStart s).head? = some c := by
  obtain ⟨t, ht⟩ := dropEndWhile_isPrefix isBlank (trimStart s)
  rw [← ht, List.head?_append, show (dropEndWhile isBlank (trimStart s)).head? = some c from h]
  rfl

/-- Without braces around it, what is written does not start with one. -/
theorem not_inBraces_print (es : List (Written × Gap)) (before after : Space) :
    ¬ InBraces (trim (before.text ++ (print es ++ after.text))) := by
  rintro ⟨opens, -⟩
  have start := head?_of_trim opens
  rw [trimStart, List.dropWhile_append_of_pos before.blank] at start
  cases es with
  | nil =>
    rw [print, List.nil_append, List.dropWhile_eq_nil_iff.2 after.blank] at start
    cases start
  | cons e es =>
    obtain ⟨w, gap⟩ := e
    obtain ⟨c, r, hw, hc⟩ := w.exists_cons
    have first : ∃ r, print ((w, gap) :: es) ++ after.text = c :: r := by
      cases es with
      | nil => exact ⟨_, by rw [print, hw, List.cons_append]⟩
      | cons e es => exact ⟨_, by rw [print, hw, List.cons_append, List.cons_append]⟩
    obtain ⟨r, hr⟩ := first
    have plain := isBlank_of_not_isSeparator (not_isSeparator_of_isKeyChar hc)
    rw [hr, List.dropWhile_cons_of_neg (by simp [plain])] at start
    obtain rfl := Option.some.inj start
    exact absurd hc (by decide)

/-- Entries that were written are read as they are, with braces around them or without; the keys are those that were
written, and the last entry of a key has its value. -/
theorem parse_print (es : List (Written × Gap)) :
    (∀ before after : Space,
      (parse (String.ofList (before.text ++ (print es ++ after.text)))).value = .ok ⟨entriesOf es⟩) ∧
    (∀ before inner inner' after : Space,
      (parse (String.ofList (before.text ++ '\x7b' :: (inner.text ++ (print es ++ inner'.text) ++
        '\x7d' :: after.text)))).value = .ok ⟨entriesOf es⟩) ∧
    ∀ key, (contains ⟨entriesOf es⟩ key = true ↔ key ∈ (entriesOf es).map (·.1)) ∧
      get? ⟨entriesOf es⟩ key = (lastNamed? (entriesOf es) key).bind (·.2) := by
  have spelled (before after : Space) : Spelled (entriesOf es) (before.text ++ (print es ++ after.text)) :=
    spelled_print es (isSeparator_of_space before) (isSeparator_of_space after)
  refine ⟨fun before after => ?_, fun before inner inner' after => ?_, fun key => ⟨?_, get?_eq _ key⟩⟩
  · rw [value_parse, unbrace_of_not_inBraces (not_inBraces_print es before after),
      value_collect_items (spelled before after).trim]
    rfl
  · rw [value_parse, trim_braces before.blank after.blank, value_collect_items (spelled inner inner')]
    rfl
  · simp [contains]

/-- A file whose name has a quote in it, written with blanks around the sign, a flag, and the file once more. -/
def quotedFile : List (Written × Gap) :=
  let nothing : Space := ⟨[], List.forall_mem_nil _⟩
  let blank : Space := ⟨[' '], List.all_eq_true.1 rfl⟩
  let comma : Gap := ⟨[',', ' '], List.cons_ne_nil _ _, List.all_eq_true.1 rfl⟩
  let space : Gap := ⟨[' '], List.cons_ne_nil _ _, List.all_eq_true.1 rfl⟩
  let spacious : Layout := ⟨blank, ':', ⟨[' ', ' '], List.all_eq_true.1 rfl⟩, '"', .inr rfl, .inl rfl⟩
  let tight : Layout := ⟨nothing, '=', nothing, '\'', .inl rfl, .inr rfl⟩
  let file : IsKey ['f', 'i', 'l', 'e'] := ⟨List.cons_ne_nil _ _, List.all_eq_true.1 rfl⟩
  let flag : IsKey ['l', 'n'] := ⟨List.cons_ne_nil _ _, List.all_eq_true.1 rfl⟩
  [(⟨_, file, some "a\"b.rs", spacious⟩, comma), (⟨_, flag, none, tight⟩, space),
    (⟨_, file, some "c.rs", tight⟩, comma)]

theorem parse_print_quotedFile :
    let entries := [("file", some "a\"b.rs"), ("ln", none), ("file", some "c.rs")]
    (parse "\x7b file :  \"a\\\"b.rs\", ln file='c.rs' \x7d").value = .ok ⟨entries⟩ ∧
      get? ⟨entries⟩ "file" = some "c.rs" := by
  intro entries
  obtain ⟨-, braced, read⟩ := parse_print quotedFile
  let nothing : Space := ⟨[], List.forall_mem_nil _⟩
  let blank : Space := ⟨[' '], List.all_eq_true.1 rfl⟩
  exact ⟨braced nothing blank blank nothing, (read "file").2⟩

end Folio.CodeMeta
