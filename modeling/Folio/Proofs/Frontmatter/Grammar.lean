import Folio.Frontmatter
import Folio.Proofs.Frontmatter.Body

/-!
# The grammar of metadata

`Block.find` looks for fences with one recursion over the blank lines in front and another one over the lines of the block.
Both are read here as functions of the lines of the document (`linesOf_dropBlankLines`, `untilFence_eq_some`), so that
`extract_grammar` can say for every document, from its lines alone, what is read and where the body begins.
-/

namespace Folio

open Text

namespace Block

/-- The lines of a text, each with the line feed that ends it. -/
def linesOf : List Char → List (List Char)
  | [] => []
  | c :: s =>
    if c = '\n' then [c] :: linesOf s
    else
      match linesOf s with
      | [] => [[c]]
      | l :: ls => (c :: l) :: ls

/-- Three dashes, and behind them nothing but carriage returns and the line feed. -/
def IsFenceLine (l : List Char) : Prop :=
  ∃ n, l = ['-', '-', '-'] ++ List.replicate n '\r' ∨ l = ['-', '-', '-'] ++ List.replicate n '\r' ++ ['\n']

/-! ### Lines -/

theorem flatten_linesOf (s : List Char) : (linesOf s).flatten = s := by
  induction s with
  | nil => rfl
  | cons c s ih =>
    rw [linesOf]
    split
    · rw [List.flatten_cons, ih, List.singleton_append]
    · split
      · next h =>
        rw [h] at ih
        exact congrArg (c :: ·) ih
      · next l ls h =>
        rw [h] at ih
        exact congrArg (c :: ·) ih

theorem not_mem_cutLine (s : List Char) : '\n' ∉ (cutLine s).1 := by
  induction s with
  | nil => exact List.not_mem_nil
  | cons c s ih =>
    rw [cutLine]
    split
    · exact List.not_mem_nil
    · next h => exact List.not_mem_cons_of_ne_of_not_mem (Ne.symm h) ih

/-- The first line of a text, and the lines of what follows it. -/
theorem linesOf_eq_cons {s : List Char} (h : s ≠ []) :
    ∃ e, (e = ['\n'] ∨ e = []) ∧ linesOf s = ((cutLine s).1 ++ e) :: linesOf (cutLine s).2 := by
  induction s with
  | nil => exact absurd rfl h
  | cons c s ih =>
    rw [linesOf, cutLine]
    split
    · next hc => exact ⟨['\n'], .inl rfl, by rw [hc, List.nil_append]⟩
    · cases s with
      | nil => exact ⟨[], .inr rfl, rfl⟩
      | cons d s =>
        obtain ⟨e, he, lines⟩ := ih (List.cons_ne_nil d s)
        exact ⟨e, he, by rw [lines]; rfl⟩

theorem isFence_iff {l : List Char} : isFence l = true ↔ ∃ n, l = ['-', '-', '-'] ++ List.replicate n '\r' := by
  unfold isFence
  rw [decide_eq_true_eq]
  constructor
  · intro h
    obtain ⟨ends, split, hends⟩ := eq_dropEndWhile_append (· = '\r') l
    refine ⟨ends.length, ?_⟩
    rw [← List.eq_replicate_of_mem fun c hc => of_decide_eq_true (hends c hc), ← h]
    exact split
  · rintro ⟨n, rfl⟩
    rw [dropEndWhile_append_of_forall fun c hc => decide_eq_true (List.eq_of_mem_replicate hc)]
    rfl

theorem isFenceLine_append_iff {l e : List Char} (hl : '\n' ∉ l) (he : e = ['\n'] ∨ e = []) :
    IsFenceLine (l ++ e) ↔ isFence l = true := by
  have plain (n : Nat) : '\n' ∉ ['-', '-', '-'] ++ List.replicate n '\r' := by
    intro h
    rcases List.mem_append.1 h with h | h
    · exact absurd h (by decide)
    · exact absurd (List.eq_of_mem_replicate h) (by decide)
  rw [isFence_iff]
  constructor
  · rintro ⟨n, h⟩
    refine ⟨n, ?_⟩
    rcases he with rfl | rfl <;> rcases h with h | h
    · exact absurd (h ▸ List.mem_append_right l (List.mem_singleton.2 rfl)) (plain n)
    · exact List.append_cancel_right h
    · rwa [List.append_nil] at h
    · rw [List.append_nil] at h
      exact absurd (h ▸ List.mem_append_right _ (List.mem_singleton.2 rfl)) hl
  · rintro ⟨n, rfl⟩
    rcases he with rfl | rfl
    · exact ⟨n, .inr rfl⟩
    · exact ⟨n, .inl (List.append_nil _)⟩

theorem all_isBlank_append {l e : List Char} (he : e = ['\n'] ∨ e = []) :
    (l ++ e).all isBlank = isBlankLine l := by
  have feed : isBlank '\n' = true := by decide
  rcases he with rfl | rfl <;> simp [isBlankLine, feed]

/-! ### The two searches -/

theorem linesOf_dropBlankLines (s : List Char) : linesOf (dropBlankLines s) = (linesOf s).dropWhile (·.all isBlank) := by
  fun_induction dropBlankLines s with
  | case1 => rfl
  | case2 s hs blank ih =>
    obtain ⟨e, he, lines⟩ := linesOf_eq_cons hs
    rw [lines, List.dropWhile_cons_of_pos (by rw [all_isBlank_append he, blank]), ih]
  | case3 s hs blank =>
    obtain ⟨e, he, lines⟩ := linesOf_eq_cons hs
    rw [lines, List.dropWhile_cons_of_neg (by rwa [all_isBlank_append he])]

theorem untilFence_eq_none {s : List Char} (h : ∀ l ∈ linesOf s, ¬ IsFenceLine l) : untilFence s = none := by
  fun_induction untilFence s with
  | case1 => rfl
  | case2 s hs fence =>
    obtain ⟨e, he, lines⟩ := linesOf_eq_cons hs
    refine absurd ((isFenceLine_append_iff (not_mem_cutLine s) he).2 fence) (h _ ?_)
    exact lines ▸ List.mem_cons_self
  | case3 s hs fence ih =>
    obtain ⟨e, he, lines⟩ := linesOf_eq_cons hs
    rw [ih fun l hl => h l (lines ▸ List.mem_cons_of_mem _ hl)]
    rfl

theorem untilFence_eq_some {s closing : List Char} {inside later : List (List Char)}
    (h : linesOf s = inside ++ closing :: later) (hinside : ∀ l ∈ inside, ¬ IsFenceLine l)
    (hclosing : IsFenceLine closing) : untilFence s = some (inside.flatten, later.flatten) := by
  fun_induction untilFence s generalizing inside with
  | case1 => cases inside <;> cases h
  | case2 s hs fence =>
    obtain ⟨e, he, lines⟩ := linesOf_eq_cons hs
    rw [lines] at h
    cases inside with
    | nil =>
      obtain ⟨-, rfl⟩ := List.cons.inj h
      rw [flatten_linesOf, List.flatten_nil]
    | cons l inside =>
      obtain ⟨rfl, -⟩ := List.cons.inj h
      exact absurd ((isFenceLine_append_iff (not_mem_cutLine s) he).2 fence) (hinside _ List.mem_cons_self)
  | case3 s hs fence ih =>
    obtain ⟨e, he, lines⟩ := linesOf_eq_cons hs
    have whole : s = ((cutLine s).1 ++ e) ++ (cutLine s).2 := by
      have joined := flatten_linesOf s
      rw [lines, List.flatten_cons, flatten_linesOf] at joined
      exact joined.symm
    rw [lines] at h
    cases inside with
    | nil =>
      obtain ⟨rfl, -⟩ := List.cons.inj h
      exact absurd ((isFenceLine_append_iff (not_mem_cutLine s) he).1 hclosing) fence
    | cons l inside =>
      obtain ⟨rfl, rest⟩ := List.cons.inj h
      have first : s.take (s.length - (cutLine s).2.length) = (cutLine s).1 ++ e := by
        generalize cutLine s = r at whole
        rw [whole, List.length_append, Nat.add_sub_cancel]
        exact List.take_left
      rw [ih rest fun l hl => hinside l (List.mem_cons_of_mem _ hl), first]
      rfl

/-! ### What is found -/

/-- The lines behind a byte order mark and the blank lines in front. -/
def contentLines (s : List Char) : List (List Char) := (linesOf (dropMark s)).dropWhile (·.all isBlank)

theorem contentLines_eq (s : List Char) : contentLines s = linesOf (dropBlankLines (dropMark s)) :=
  (linesOf_dropBlankLines _).symm

theorem find_eq_absent {s : List Char} (h : ∀ l ∈ (contentLines s).head?, ¬ IsFenceLine l) : find s = .absent := by
  rw [contentLines_eq] at h
  unfold find
  dsimp only
  generalize dropBlankLines (dropMark s) = r at h
  by_cases hr : r = []
  · simp [hr]
  · obtain ⟨e, he, lines⟩ := linesOf_eq_cons hr
    have fence := h _ (by rw [lines]; rfl)
    rw [isFenceLine_append_iff (not_mem_cutLine r) he] at fence
    simp [fence]

/-- Behind a fence, what is found is what the search for the next one gives. -/
theorem find_of_fence {s opening : List Char} {later : List (List Char)} (h : contentLines s = opening :: later)
    (hopening : IsFenceLine opening) : ∃ r, linesOf r = later ∧ find s =
      match untilFence r with
      | none => .unterminated
      | some (text, body) => .found ⟨dropEndWhile (fun c => c = '\r' || c = '\n') text, body⟩ := by
  rw [contentLines_eq] at h
  unfold find
  dsimp only
  generalize dropBlankLines (dropMark s) = r at h
  have hr : r ≠ [] := by
    rintro rfl
    cases h
  obtain ⟨e, he, lines⟩ := linesOf_eq_cons hr
  rw [lines] at h
  obtain ⟨rfl, rfl⟩ := List.cons.inj h
  have fence := (isFenceLine_append_iff (not_mem_cutLine r) he).1 hopening
  refine ⟨_, rfl, ?_⟩
  exact if_neg (by simp [hr, fence])

theorem find_eq_unterminated {s opening : List Char} {later : List (List Char)} (h : contentLines s = opening :: later)
    (hopening : IsFenceLine opening) (hlater : ∀ l ∈ later, ¬ IsFenceLine l) : find s = .unterminated := by
  obtain ⟨r, rfl, found⟩ := find_of_fence h hopening
  rw [found, untilFence_eq_none hlater]

theorem find_eq_found {s opening closing : List Char} {inside later : List (List Char)}
    (h : contentLines s = opening :: (inside ++ closing :: later)) (hopening : IsFenceLine opening)
    (hinside : ∀ l ∈ inside, ¬ IsFenceLine l) (hclosing : IsFenceLine closing) :
    find s = .found ⟨dropEndWhile (fun c => c = '\r' || c = '\n') inside.flatten, later.flatten⟩ := by
  obtain ⟨r, hr, found⟩ := find_of_fence h hopening
  rw [found, untilFence_eq_some hr hinside hclosing]

/-- The three ways in which a document can begin. -/
theorem contentLines_cases (s : List Char) :
    (∀ l ∈ (contentLines s).head?, ¬ IsFenceLine l) ∨
      (∃ opening later, contentLines s = opening :: later ∧ IsFenceLine opening ∧ ∀ l ∈ later, ¬ IsFenceLine l) ∨
      ∃ opening inside closing later, contentLines s = opening :: (inside ++ closing :: later) ∧
        IsFenceLine opening ∧ (∀ l ∈ inside, ¬ IsFenceLine l) ∧ IsFenceLine closing := by
  classical
  cases hs : contentLines s with
  | nil => exact .inl nofun
  | cons opening later =>
    by_cases hopening : IsFenceLine opening
    · cases first : later.find? (fun l => decide (IsFenceLine l)) with
      | none =>
        refine .inr (.inl ⟨opening, later, rfl, hopening, fun l hl => ?_⟩)
        simpa using List.find?_eq_none.1 first l hl
      | some closing =>
        obtain ⟨hclosing, inside, behind, rfl, hinside⟩ := List.find?_eq_some_iff_append.1 first
        refine .inr (.inr ⟨opening, inside, closing, behind, rfl, hopening, fun l hl => ?_, by simpa using hclosing⟩)
        simpa using hinside l hl
    · refine .inl fun l hl => ?_
      obtain rfl : opening = l := by simpa using hl
      exact hopening

/-! ### Where the body begins -/

theorem dropMark_isSuffix (s : List Char) : dropMark s <:+ s := by
  unfold dropMark
  split
  · exact List.suffix_cons _ _
  · exact List.suffix_rfl

theorem flatten_contentLines_isSuffix (s : List Char) : (contentLines s).flatten <:+ s := by
  refine List.IsSuffix.trans ?_ (dropMark_isSuffix s)
  refine ⟨((linesOf (dropMark s)).takeWhile (·.all isBlank)).flatten, ?_⟩
  rw [contentLines, ← List.flatten_append, List.takeWhile_append_dropWhile, flatten_linesOf]

/-- Lines at the end of a document are what stands behind the others. -/
theorem exists_before {s : List Char} {front later : List (List Char)} (h : contentLines s = front ++ later) :
    ∃ before, s = before ++ later.flatten := by
  obtain ⟨skipped, hs⟩ := flatten_contentLines_isSuffix s
  refine ⟨skipped ++ front.flatten, ?_⟩
  rw [← hs, h, List.flatten_append, List.append_assoc]

end Block

namespace Text

theorem byteSize_eq (s : List Char) : byteSize s = (String.ofList s).utf8ByteSize := by
  induction s with
  | nil => rfl
  | cons c s ih =>
    have both : String.ofList (c :: s) = String.ofList [c] ++ String.ofList s := by
      rw [← String.ofList_append, List.singleton_append]
    rw [both, String.utf8ByteSize_append, ← ih, byteSize]
    simp

end Text

namespace Frontmatter

open Block

/-- What is read from a document that has a block of metadata with this text and a body behind so many bytes. -/
def extractionOf (text : List Char) (bodyStart : Nat) : Except FrontmatterError Extraction :=
  match if text.all isBlank then some (.map []) else Yaml.read? (String.ofList text) with
  | none => .error .malformed
  | some .null => .ok ⟨true, [], bodyStart⟩
  | some (.map entries) => .ok ⟨true, entries, bodyStart⟩
  | some _ => .error .notMap

theorem bodyStart_of_extractionOf {text : List Char} {n : Nat} {e : Extraction} (h : extractionOf text n = .ok e) :
    e.bodyStart = n := by
  unfold extractionOf at h
  split at h <;> cases h <;> rfl

theorem extract_of_find {input : String} {b : Block} {before : List Char} (h : find input.toList = .found b)
    (hb : input.toList = before ++ b.body) :
    extract input = extractionOf b.text (String.ofList before).utf8ByteSize := by
  have start : byteSize input.toList - byteSize b.body = (String.ofList before).utf8ByteSize := by
    rw [hb, byteSize_append, Nat.add_sub_cancel, byteSize_eq]
  unfold extract extractionOf
  rw [h]
  dsimp only
  rw [start, entriesOf]
  by_cases blank : b.text.all isBlank = true
  · rw [if_pos blank, if_pos blank]
    rfl
  · rw [if_neg blank, if_neg blank]
    rcases Yaml.read? (String.ofList b.text) with _ | v
    · rfl
    · cases v <;> rfl

theorem extract_of_no_fence {input : String} (h : ∀ l ∈ (contentLines input.toList).head?, ¬ IsFenceLine l) :
    extract input = .ok ⟨false, [], 0⟩ := by
  rw [extract, find_eq_absent h]

theorem extract_of_one_fence {input : String} {opening : List Char} {later : List (List Char)}
    (h : contentLines input.toList = opening :: later) (hopening : IsFenceLine opening)
    (hlater : ∀ l ∈ later, ¬ IsFenceLine l) : extract input = .error .unterminated := by
  rw [extract, find_eq_unterminated h hopening hlater]

theorem extract_of_fences {input : String} {opening closing : List Char} {inside later : List (List Char)}
    (h : contentLines input.toList = opening :: (inside ++ closing :: later)) (hopening : IsFenceLine opening)
    (hinside : ∀ l ∈ inside, ¬ IsFenceLine l) (hclosing : IsFenceLine closing) :
    ∃ before : String, input = before ++ String.ofList later.flatten ∧ extract input =
      extractionOf (dropEndWhile (fun c => c = '\r' || c = '\n') inside.flatten) before.utf8ByteSize := by
  have front : contentLines input.toList = (opening :: (inside ++ [closing])) ++ later := by simp [h]
  obtain ⟨before, hbefore⟩ := exists_before front
  refine ⟨String.ofList before, ?_, extract_of_find (find_eq_found h hopening hinside hclosing) hbefore⟩
  rw [← String.ofList_append, ← hbefore, String.ofList_toList]

/-- The body begins at a character of the document, or at its end. -/
theorem isValid_bodyStart {input : String} {e : Extraction} (h : extract input = .ok e) :
    String.Pos.Raw.IsValid input ⟨e.bodyStart⟩ := by
  rw [String.Pos.Raw.isValid_iff_exists_append]
  rcases contentLines_cases input.toList with
    absent | ⟨opening, later, lines, hopening, hlater⟩ | ⟨opening, inside, closing, later, lines, hopening, hinside, hclosing⟩
  · rw [extract_of_no_fence absent] at h
    cases h
    exact ⟨"", input, by simp, rfl⟩
  · rw [extract_of_one_fence lines hopening hlater] at h
    cases h
  · obtain ⟨before, whole, read⟩ := extract_of_fences lines hopening hinside hclosing
    rw [read] at h
    rw [bodyStart_of_extractionOf h]
    exact ⟨before, _, whole, rfl⟩

/-- What is read from a document, given its lines behind a byte order mark and the blank lines in front: nothing if the
first one is no fence; an error if it is the only one; and otherwise the text up to the next fence is read, and the body
begins right behind that fence. -/
theorem extract_grammar (input : String) :
    ((∀ l ∈ (contentLines input.toList).head?, ¬ IsFenceLine l) → extract input = .ok ⟨false, [], 0⟩) ∧
    (∀ opening later, contentLines input.toList = opening :: later → IsFenceLine opening →
      (∀ l ∈ later, ¬ IsFenceLine l) → extract input = .error .unterminated) ∧
    (∀ opening inside closing later, contentLines input.toList = opening :: (inside ++ closing :: later) →
      IsFenceLine opening → (∀ l ∈ inside, ¬ IsFenceLine l) → IsFenceLine closing →
      ∃ before : String, input = before ++ String.ofList later.flatten ∧ extract input =
        extractionOf (dropEndWhile (fun c => c = '\r' || c = '\n') inside.flatten) before.utf8ByteSize) ∧
    ∀ e, extract input = .ok e → String.Pos.Raw.IsValid input ⟨e.bodyStart⟩ :=
  ⟨extract_of_no_fence, fun _ _ => extract_of_one_fence, fun _ _ _ _ => extract_of_fences, fun _ => isValid_bodyStart⟩

/-- A byte order mark, blank lines, carriage returns and a letter of two bytes. -/
def markedPost : String := "\ufeff\n \u3000\n---\r\r\ntitle: é\r\n\r\n---\r\nBody\n---\n"

theorem extract_markedPost :
    contentLines markedPost.toList = "---\r\r\n".toList ::
      (["title: é\r\n".toList, "\r\n".toList] ++ "---\r\n".toList :: ["Body\n".toList, "---\n".toList]) ∧
    extract markedPost = extractionOf "title: é".toList 33 ∧
    (extract markedPost).toOption.map (fun e => (e.present, e.bodyStart)) = some (true, 33) := by
  have lines : contentLines markedPost.toList = "---\r\r\n".toList ::
      (["title: é\r\n".toList, "\r\n".toList] ++ "---\r\n".toList :: ["Body\n".toList, "---\n".toList]) := by
    decide +kernel
  have inside : ∀ l ∈ ["title: é\r\n".toList, "\r\n".toList], ¬ IsFenceLine l := by
    rintro l hl ⟨n, h | h⟩ <;> rcases List.mem_pair.1 hl with rfl | rfl <;>
      exact absurd (congrArg List.head? h) (by simp)
  obtain ⟨before, whole, read⟩ :=
    (extract_grammar markedPost).2.2.1 _ _ _ _ lines ⟨2, .inr rfl⟩ inside ⟨1, .inr rfl⟩
  have size : before.utf8ByteSize = 33 := by
    have sum := congrArg String.utf8ByteSize whole
    rw [String.utf8ByteSize_append] at sum
    have all : markedPost.utf8ByteSize = 42 := by decide +kernel
    have body : (String.ofList ["Body\n".toList, "---\n".toList].flatten).utf8ByteSize = 9 := by decide +kernel
    omega
  rw [size] at read
  refine ⟨lines, read.trans ?_, by decide +kernel⟩
  rfl

end Frontmatter

end Folio
