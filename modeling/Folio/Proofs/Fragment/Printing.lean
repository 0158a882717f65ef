import Folio.Proofs.Fragment.Tags
import Folio.Proofs.Html.Forest

/-!
# Writing markup

Forests of elements without attributes other than classes, and of texts with the special characters escaped, are
written as markup. Reading the markup gives the forest back (`parse_ofList_printAll`).
-/

namespace Folio.Fragment

open Text Html Html.Node

/-! ### Special characters -/

/-- The special characters with the bodies of the character references that are written for them. -/
def references : List (Char × List Char) :=
  [('&', ['a', 'm', 'p']), ('<', ['l', 't']), ('>', ['g', 't']), ('"', ['q', 'u', 'o', 't'])]

def escapeChar (c : Char) : List Char :=
  match references.lookup c with
  | some body => '&' :: (body ++ [';'])
  | none => [c]

/-- A text with its special characters written as character references. -/
def escape (s : List Char) : List Char := s.flatMap escapeChar

theorem decode_cons {c : Char} (h : c ≠ '&') (s : List Char) : Entity.decode (c :: s) = c :: Entity.decode s := by
  rw [Entity.decode, if_neg h]

theorem decode_of_notMem {s : List Char} (h : '&' ∉ s) : Entity.decode s = s := by
  induction s with
  | nil => rw [Entity.decode]
  | cons c s ih => rw [decode_cons (List.ne_of_not_mem_cons h).symm, ih (List.not_mem_of_not_mem_cons h)]

theorem decode_reference {body cs : List Char} (hbody : ∀ c ∈ body, Entity.isBody c = true)
    (h : Entity.meaning? body = some cs) (s : List Char) :
    Entity.decode ('&' :: (body ++ ';' :: s)) = cs ++ Entity.decode s := by
  have semicolon : ∀ c ∈ (';' :: s).head?, Entity.isBody c = false := by
    rintro _ ⟨⟩
    decide
  have split : Entity.splitBody? (body ++ ';' :: s) = some (body, s) := by
    rw [Entity.splitBody?, dropWhile_append_of_head hbody semicolon, takeWhile_append_of_head hbody semicolon]
    rfl
  rw [Entity.decode, if_pos rfl]
  split
  · rename_i body' rest found
    rw [split] at found
    obtain ⟨rfl, rfl⟩ := Prod.mk.inj (Option.some.inj found)
    rw [h]
  · rename_i none
    rw [split] at none
    cases none

/-- A reference that is written means its character. -/
theorem references_spec {c : Char} {body : List Char} (h : references.lookup c = some body) :
    (∀ d ∈ body, Entity.isBody d = true ∧ d ≠ '<' ∧ d ≠ '"') ∧ Entity.meaning? body = some [c] := by
  have all : ∀ e ∈ references, e.2.all (fun d => Entity.isBody d && d != '<' && d != '"') = true ∧
      Entity.meaning? e.2 = some [e.1] := by decide +kernel
  obtain ⟨l, r, found, -⟩ := List.lookup_eq_some_iff.1 h
  have mem : (c, body) ∈ references := by
    rw [found]
    simp
  obtain ⟨plain, means⟩ := all _ mem
  refine ⟨fun d hd => ?_, means⟩
  simpa [and_assoc] using List.all_eq_true.1 plain d hd

theorem ne_of_lookup_references {c : Char} (h : references.lookup c = none) : c ≠ '&' ∧ c ≠ '<' ∧ c ≠ '"' := by
  refine ⟨?_, ?_, ?_⟩
  · rintro rfl
    cases h
  · rintro rfl
    cases h
  · rintro rfl
    cases h

theorem decode_escape (s : List Char) : Entity.decode (escape s) = s := by
  induction s with
  | nil => rw [escape, List.flatMap_nil, Entity.decode]
  | cons c s ih =>
    rw [escape, List.flatMap_cons, ← escape, escapeChar]
    split
    · rename_i body hc
      obtain ⟨plain, means⟩ := references_spec hc
      rw [List.cons_append, List.append_assoc, List.singleton_append,
        decode_reference (fun d hd => (plain d hd).1) means, ih]
      rfl
    · rename_i hc
      rw [List.singleton_append, decode_cons (ne_of_lookup_references hc).1, ih]

/-- No escaped text has a character that ends a text or a quoted value. -/
theorem notMem_escape (s : List Char) : '<' ∉ escape s ∧ '"' ∉ escape s := by
  have each (c : Char) : '<' ∉ escapeChar c ∧ '"' ∉ escapeChar c := by
    unfold escapeChar
    split
    · rename_i body hc
      have plain := (references_spec hc).1
      constructor
      · intro h
        have : '<' ∈ body := by simpa using h
        exact (plain _ this).2.1 rfl
      · intro h
        have : '"' ∈ body := by simpa using h
        exact (plain _ this).2.2 rfl
    · rename_i hc
      obtain ⟨-, open', quote⟩ := ne_of_lookup_references hc
      exact ⟨by simpa using Ne.symm open', by simpa using Ne.symm quote⟩
  constructor
  · intro h
    obtain ⟨c, -, hc⟩ := List.mem_flatMap.1 h
    exact (each c).1 hc
  · intro h
    obtain ⟨c, -, hc⟩ := List.mem_flatMap.1 h
    exact (each c).2 hc

theorem escape_ne_nil {s : List Char} (h : s ≠ []) : escape s ≠ [] := by
  obtain ⟨c, r, rfl⟩ := List.exists_cons_of_ne_nil h
  rw [escape, List.flatMap_cons, escapeChar]
  split <;> exact List.cons_ne_nil _ _

/-! ### Classes -/

theorem words_of_forall {w : List Char} (hne : w ≠ []) (hw : ∀ c ∈ w, isBlank c = false) : words w = [w] := by
  induction w with
  | nil => exact absurd rfl hne
  | cons c w ih =>
    obtain ⟨hc, hw⟩ := List.forall_mem_cons.1 hw
    cases w with
    | nil => simp [words, hc]
    | cons d w =>
      have hd := hw d List.mem_cons_self
      rw [words, if_neg (by simp [hc]), if_neg (by simp [hd]), ih (List.cons_ne_nil d w) hw]

/-- A word ends where a blank follows. -/
theorem words_append {w : List Char} (hne : w ≠ []) (hw : ∀ c ∈ w, isBlank c = false) (s : List Char) :
    words (w ++ ' ' :: s) = w :: words s := by
  induction w with
  | nil => exact absurd rfl hne
  | cons c w ih =>
    obtain ⟨hc, hw⟩ := List.forall_mem_cons.1 hw
    have blank : isBlank ' ' = true := by decide
    have skip : words (' ' :: s) = words s := by
      rw [words.eq_def]
      exact if_pos blank
    cases w with
    | nil =>
      rw [List.cons_append, List.nil_append, words, if_neg (by simp [hc]), if_pos blank, skip]
    | cons d w =>
      have hd := hw d List.mem_cons_self
      have rest := ih (List.cons_ne_nil d w) hw
      rw [List.cons_append] at rest ⊢
      rw [List.cons_append, words, if_neg (by simp [hc]), if_neg (by simp [hd]), rest]

/-- The name of a class. -/
structure IsClassName (t : String) : Prop where
  ne_empty : t ≠ ""
  solid : ∀ c ∈ t.toList, isBlank c = false

theorem IsClassName.of_all {t : String} (hne : t ≠ "") (h : t.toList.all (!isBlank ·) = true) : IsClassName t :=
  ⟨hne, fun c hc => by simpa using List.all_eq_true.1 h c hc⟩

/-- Names of classes with blanks between them. -/
def joinClasses : List String → List Char
  | [] => []
  | [t] => t.toList
  | t :: u :: ts => t.toList ++ ' ' :: joinClasses (u :: ts)

theorem words_joinClasses {ts : List String} (h : ∀ t ∈ ts, IsClassName t) :
    (words (joinClasses ts)).map String.ofList = ts := by
  induction ts with
  | nil => rfl
  | cons t ts ih =>
    obtain ⟨⟨hne, ht⟩, hts⟩ := List.forall_mem_cons.1 h
    have nonempty : t.toList ≠ [] := by simpa using hne
    cases ts with
    | nil => rw [joinClasses, words_of_forall nonempty ht, List.map_singleton, String.ofList_toList]
    | cons u ts => rw [joinClasses, words_append nonempty ht, List.map_cons, ih hts, String.ofList_toList]

/-- The properties of an element that has classes or nothing. -/
inductive IsClassed : Properties → Prop where
  | empty : IsClassed .empty
  | classes {ts : List String} (hne : ts ≠ []) (h : ∀ t ∈ ts, IsClassName t) :
      IsClassed (.ofList [("class", .tokens ts)])

/-- The attribute for the classes. -/
def attributeText (p : Properties) : List Char :=
  match p.get? "class" with
  | some (.tokens ts) => quotedAttribute className (escape (joinClasses ts))
  | _ => []

theorem properties_class {ts : List String} (h : ∀ t ∈ ts, IsClassName t) :
    properties [(className, some (escape (joinClasses ts)))] = .ofList [("class", .tokens ts)] := by
  have arranged (v : List Char) : arrange [(className, some v)] = [(className, some v)] := rfl
  have lowered : Text.lower className = className := by decide
  rw [properties, arranged, List.map_singleton, property]
  dsimp only
  rw [lowered, if_pos rfl, Option.getD_some, decode_escape, words_joinClasses h]
  rfl

/-- A start tag is read with the properties that were written. -/
theorem tokens_printed {t : List Char} (ht : IsTagName t) {p : Properties} (hp : IsClassed p) (rest : List Char) :
    ∃ as, properties as = p ∧
      tokens ('<' :: (t ++ (attributeText p ++ '>' :: rest))) = .start t as false :: tokens rest := by
  cases hp with
  | empty => exact ⟨[], rfl, tokens_startTag ht.isName rest⟩
  | @classes ts hne h =>
    have isName : IsName className := ⟨by decide, List.all_eq_true.1 (by decide), by decide⟩
    exact ⟨_, properties_class h, tokens_startTag_attribute ht.isName isName (notMem_escape _).2 rest⟩

/-! ### Forests -/

def isText : Node → Bool
  | .text _ => true
  | _ => false

mutual

/-- A tree that can be written. -/
def IsMarkup : Node → Prop
  | .root _ => False
  | .element t p cs => IsTagName t.toList ∧ IsClassed p ∧ AreMarkup cs
  | .text s => s ≠ ""

/-- Trees that can be written side by side: no text stands next to another one. -/
def AreMarkup : List Node → Prop
  | [] => True
  | n :: ns => IsMarkup n ∧ (isText n = true → ∀ m ∈ ns.head?, isText m = false) ∧ AreMarkup ns

end

mutual

/-- The markup of a tree. -/
def print : Node → List Char
  | .root cs => printAll cs
  | .element t p cs =>
    '<' :: (t.toList ++ (attributeText p ++ '>' :: (printAll cs ++ '<' :: '/' :: (t.toList ++ ['>']))))
  | .text s => escape s.toList

/-- The markup of a forest. -/
def printAll : List Node → List Char
  | [] => []
  | n :: ns => print n ++ printAll ns

end

namespace AreMarkup

variable {s : String} {n : Node} {ns : List Node}

theorem nil : AreMarkup [] := trivial

theorem text_nil (h : s ≠ "") : AreMarkup [.text s] := ⟨h, fun _ _ h => (Option.not_mem_none _ h).elim, trivial⟩

theorem cons_element {t : String} {p : Properties} {cs : List Node} (ht : IsTagName t.toList) (hp : IsClassed p)
    (hcs : AreMarkup cs) (hns : AreMarkup ns) : AreMarkup (.element t p cs :: ns) :=
  ⟨⟨ht, hp, hcs⟩, fun text => absurd text Bool.false_ne_true, hns⟩

end AreMarkup

theorem head?_printAll {n : Node} {ns : List Node} (h : AreMarkup ns)
    (apart : isText n = true → ∀ m ∈ ns.head?, isText m = false) {rest : List Char} (hn : isText n = true)
    (hrest : ∀ c ∈ rest.head?, c = '<') : ∀ c ∈ (printAll ns ++ rest).head?, c = '<' := by
  cases ns with
  | nil => exact hrest
  | cons m ns =>
    cases m with
    | root cs => exact absurd h.1 id
    | element t p cs =>
      rintro _ ⟨⟩
      rfl
    | text s => exact absurd (apart hn _ rfl) (by simp [isText])

mutual

/-- Reading the markup of a tree puts the tree behind what was read before. -/
theorem build_print {stack : List Frame} {done : List Node} {rest : List Char} : (n : Node) → IsMarkup n →
    (isText n = true → ∀ c ∈ rest.head?, c = '<') →
    build stack done (tokens (print n ++ rest)) = build stack (n :: done) (tokens rest)
  | .element t p cs, h, _ => by
    obtain ⟨ht, hp, hcs⟩ := h
    have stop : ∀ c ∈ ('<' :: '/' :: (t.toList ++ '>' :: rest)).head?, c = '<' := by
      rintro _ ⟨⟩
      rfl
    have whole : print (.element t p cs) ++ rest = '<' :: (t.toList ++ (attributeText p ++
        '>' :: (printAll cs ++ '<' :: '/' :: (t.toList ++ '>' :: rest)))) := by
      simp [print]
    have noEnd : '>' ∉ t.toList := fun h => ne_of_isLower (ht.lower _ h) (by decide) rfl
    obtain ⟨as, has, start⟩ :=
      tokens_printed ht hp (printAll cs ++ '<' :: '/' :: (t.toList ++ '>' :: rest))
    have opens : ¬ (false || voidNames.contains (String.ofList t.toList)) = true := by
      rw [ht.notVoid]
      decide
    -- The element is open while its content is read, and its end tag finds it on top of the stack.
    rw [whole, start, build, if_neg opens, build_printAll cs hcs stop, tokens_close noEnd, build,
      if_pos rfl, List.append_nil, List.reverse_reverse, has, element, lower_of_isLower ht.lower, String.ofList_toList]
  | .text s, h, hrest => by
    have nonempty : s.toList ≠ [] := by simpa [IsMarkup] using h
    rw [print, tokens_text (escape_ne_nil nonempty) (notMem_escape _).1 (hrest rfl), build, decode_escape,
      String.ofList_toList]

theorem build_printAll {stack : List Frame} {done : List Node} {rest : List Char} : (ns : List Node) → AreMarkup ns →
    (∀ c ∈ rest.head?, c = '<') →
    build stack done (tokens (printAll ns ++ rest)) = build stack (ns.reverse ++ done) (tokens rest)
  | [], _, _ => rfl
  | n :: ns, h, hrest => by
    obtain ⟨hn, apart, hns⟩ := h
    rw [printAll, List.append_assoc, build_print n hn fun text => head?_printAll hns apart text hrest,
      build_printAll ns hns hrest, List.reverse_cons, List.append_assoc]
    rfl

end

/-- Markup that was written is read as what it was written for. -/
theorem parse_ofList_printAll {ns : List Node} (h : AreMarkup ns) : parse (String.ofList (printAll ns)) = ns := by
  have read : build [] [] (tokens (printAll ns ++ [])) = build [] (ns.reverse ++ []) (tokens []) :=
    build_printAll ns h (by simp)
  rw [List.append_nil, tokens_nil, build, closeAll, List.append_nil, List.reverse_reverse] at read
  rw [parse, String.toList_ofList, read]

end Folio.Fragment
