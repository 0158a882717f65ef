import Folio.Proofs.Frontmatter.Lines
import Folio.Proofs.Text

/-!
# Where the body begins

`Block.find` and the reader of Markdown look for a block of metadata each in its own way. They agree on where the body
begins unless blank lines stand in front of the block, the reader sees a fence within it, or the body begins with a
byte order mark, which the reader would pass if it saw the body alone (`isTaken_iff`).
-/

namespace Folio.Block

open Markdown Text

/-! ### Fence lines -/

/-- A text begins with a fence line, behind which a text stands. -/
def Fenced (s rest : List Char) : Prop :=
  ∃ ends, (∀ c ∈ ends, isLineEnd c = true) ∧
    (s = ['-', '-', '-'] ++ (ends ++ '\n' :: rest) ∨ s = ['-', '-', '-'] ++ ends ∧ rest = [])

theorem cutLine_spec (s : List Char) :
    s = (cutLine s).1 ++ '\n' :: (cutLine s).2 ∨ s = (cutLine s).1 ∧ (cutLine s).2 = [] := by
  induction s with
  | nil => exact .inr ⟨rfl, rfl⟩
  | cons c s ih =>
    unfold cutLine
    split
    · next h => exact .inl (by simp [h])
    · rcases ih with h | ⟨h, hr⟩
      · exact .inl (congrArg (c :: ·) h)
      · exact .inr ⟨congrArg (c :: ·) h, hr⟩

theorem fenced_of_isFence {s : List Char} (h : isFence (cutLine s).1 = true) : Fenced s (cutLine s).2 := by
  have fence : dropEndWhile (· = '\r') (cutLine s).1 = ['-', '-', '-'] := by simpa [isFence] using h
  obtain ⟨ends, split, hends⟩ := eq_dropEndWhile_append (· = '\r') (cutLine s).1
  rw [fence] at split
  refine ⟨ends, fun c hc => by simp [isLineEnd, of_decide_eq_true (hends c hc)], ?_⟩
  rcases cutLine_spec s with e | ⟨e, hr⟩
  · left
    rw [split, List.append_assoc] at e
    exact e
  · exact .inr ⟨e.trans split, hr⟩

/-- The lines of a text that begins with a fence line. -/
theorem Fenced.lines {s rest : List Char} (h : Fenced s rest) (p : Point) :
    ∃ l es shift, linesFrom p [] s = l :: (es ++ (textLines rest).map (.shift shift)) ∧
      isMetaFence '-' l = true ∧ ∀ e ∈ es, e.glyphs = [] := by
  obtain ⟨ends, hends, h⟩ := h
  have dashes (t : List Char) : ∃ q a b c, linesFrom p [] (['-', '-', '-'] ++ t) = linesFrom q [c, b, a] t ∧
      isMetaRow [a, b, c] = true := by
    have plain : isLineEnd '-' = false := rfl
    simp only [List.cons_append, List.nil_append, linesFrom_cons _ _ plain]
    exact ⟨_, _, _, _, rfl, rfl⟩
  rcases h with rfl | ⟨rfl, rfl⟩
  · obtain ⟨q, a, b, c, e, fence⟩ := dashes (ends ++ '\n' :: rest)
    obtain ⟨shift, cut⟩ := linesFrom_append q [c, b, a] ends rest
    have all : ∀ c ∈ ends ++ ['\n'], isLineEnd c = true :=
      List.forall_mem_append.2 ⟨hends, List.forall_mem_singleton.2 rfl⟩
    obtain ⟨l, es, first, hl, hes⟩ := linesFrom_lineEnds q [c, b, a] all (.inl (List.cons_ne_nil _ _))
    refine ⟨l, es, shift, ?_, ?_, hes⟩
    · rw [e, cut, first, List.cons_append]
    · rw [isMetaFence_eq, hl]
      exact fence
  · obtain ⟨q, a, b, c, e, fence⟩ := dashes ends
    obtain ⟨l, es, first, hl, hes⟩ := linesFrom_lineEnds q [c, b, a] hends (.inl (List.cons_ne_nil _ _))
    refine ⟨l, es, ⟨0, 0⟩, ?_, ?_, hes⟩
    · rw [e, first]
      simp [linesFrom]
    · rw [isMetaFence_eq, hl]
      exact fence

/-! ### The parts of a document -/

/-- Nothing, or lines that a line feed ends. -/
def WholeLines (s : List Char) : Prop := s = [] ∨ ∃ t, s = t ++ ['\n']

theorem WholeLines.line_append {s : List Char} (h : WholeLines s) (line : List Char) :
    WholeLines (line ++ ['\n'] ++ s) := by
  right
  rcases h with rfl | ⟨t, rfl⟩
  · exact ⟨line, by simp⟩
  · exact ⟨line ++ '\n' :: t, by simp⟩

/-- Behind whole lines the lines are those of the rest. -/
theorem WholeLines.lines_append {s : List Char} (h : WholeLines s) (rest : List Char) (shift : Shift) :
    ∃ p, (textLines (s ++ rest)).map (.shift shift) = (textLines s).map (.shift shift) ++ linesFrom p [] rest := by
  have moved (p : Point) : linesFrom (p.shift shift) [] rest = (linesFrom p [] rest).map (.shift shift) :=
    linesFrom_shift shift p [] rest
  rcases h with rfl | ⟨t, rfl⟩
  · exact ⟨_, (moved ⟨1, 1, 0⟩).symm⟩
  · obtain ⟨shift', cut⟩ := linesFrom_append ⟨1, 1, 0⟩ [] t rest
    have start : linesFrom ((⟨1, 1, 0⟩ : Point).shift shift') [] rest = (textLines rest).map (.shift shift') :=
      linesFrom_shift shift' ⟨1, 1, 0⟩ [] rest
    refine ⟨((⟨1, 1, 0⟩ : Point).shift shift').shift shift, ?_⟩
    rw [List.append_assoc, List.singleton_append, textLines, cut, List.map_append, moved, start]

theorem untilFence_spec {s text body : List Char} (h : untilFence s = some (text, body)) :
    ∃ rest, s = text ++ rest ∧ WholeLines text ∧ Fenced rest body := by
  fun_induction untilFence s generalizing text with
  | case1 => nomatch h
  | case2 s hs fence =>
    cases h
    exact ⟨s, rfl, .inl rfl, fenced_of_isFence fence⟩
  | case3 s hs fence ih =>
    obtain ⟨⟨text', body'⟩, found, e⟩ := Option.map_eq_some_iff.1 h
    cases e
    obtain ⟨rest, e, ends, hrest⟩ := ih found
    rcases cutLine_spec s with cut | ⟨-, hr⟩
    · have front : s.take (s.length - (cutLine s).2.length) = (cutLine s).1 ++ ['\n'] := by
        generalize cutLine s = r at cut
        rw [cut, List.append_cons, List.length_append, Nat.add_sub_cancel]
        exact List.take_left
      rw [front]
      refine ⟨rest, ?_, ends.line_append _, hrest⟩
      conv => lhs; rw [cut, e]
      simp
    · rw [hr, untilFence] at found
      nomatch found

/-- A document with a block: blank lines, a fence, lines within, and a fence in front of the body. -/
theorem find_spec {s : List Char} {b : Block} (h : find s = .found b) :
    ∃ inside tail, Fenced (dropBlankLines (dropMark s)) (inside ++ tail) ∧ WholeLines inside ∧
      Fenced tail b.body ∧ b.text = dropEndWhile isLineEnd inside := by
  unfold find at h
  dsimp only at h
  split at h
  · nomatch h
  · next absent =>
    have fence : isFence (cutLine (dropBlankLines (dropMark s))).1 = true := by
      simp only [Bool.or_eq_true, not_or, Bool.not_eq_true', Bool.not_eq_false] at absent
      exact absent.2
    split at h
    · nomatch h
    · next inside body found =>
      cases h
      obtain ⟨tail, split, ends, hbody⟩ := untilFence_spec found
      exact ⟨inside, tail, split ▸ fenced_of_isFence fence, ends, hbody, rfl⟩

theorem dropBlankLines_isSuffix (s : List Char) : dropBlankLines s <:+ s := by
  fun_induction dropBlankLines s with
  | case1 => exact List.suffix_rfl
  | case2 s _ _ ih =>
    rcases cutLine_spec s with cut | ⟨-, rest⟩
    · exact ih.trans ⟨(cutLine s).1 ++ ['\n'], by rw [List.append_assoc]; exact cut.symm⟩
    · rw [rest, dropBlankLines]
      exact List.nil_suffix
  | case3 => exact List.suffix_rfl

theorem Fenced.isSuffix {s rest : List Char} (h : Fenced s rest) : rest <:+ s := by
  obtain ⟨ends, -, rfl | ⟨-, rfl⟩⟩ := h
  · exact ⟨['-', '-', '-'] ++ ends ++ ['\n'], by simp⟩
  · exact List.nil_suffix

theorem body_isSuffix {s : List Char} {b : Block} (h : find s = .found b) : b.body <:+ s := by
  obtain ⟨inside, tail, opening, -, closing, -⟩ := find_spec h
  have mark : dropMark s <:+ s := by
    unfold dropMark
    split
    · exact List.suffix_cons _ _
    · exact List.suffix_rfl
  have front := opening.isSuffix.trans ((dropBlankLines_isSuffix _).trans mark)
  exact closing.isSuffix.trans ((List.suffix_append inside tail).trans front)

theorem lines_eq_linesFrom (s : List Char) : ∃ p, lines s = linesFrom p [] (dropMark s) := by
  cases s with
  | nil => exact ⟨_, rfl⟩
  | cons c s =>
    by_cases h : c = '\ufeff'
    · exact ⟨⟨1, 4, 3⟩, by simp [lines, dropMark, h]⟩
    · exact ⟨⟨1, 1, 0⟩, by simp [lines, dropMark, h]⟩

/-- What Markdown sees of a document whose block stands first. Between the fences it sees a fence just if it sees one in
the text of the block. -/
theorem lines_of_find {s : List Char} {b : Block} (h : find s = .found b)
    (front : dropBlankLines (dropMark s) = dropMark s) :
    ∃ first between last es shift,
      lines s = first :: (between ++ last :: (es ++ (textLines b.body).map (.shift shift))) ∧
        isMetaFence '-' first = true ∧ isMetaFence '-' last = true ∧ (∀ e ∈ es, e.glyphs = []) ∧
        between.any (isMetaFence '-') = (textLines b.text).any (isMetaFence '-') := by
  obtain ⟨inside, tail, opening, ends, closing, text⟩ := find_spec h
  rw [front] at opening
  obtain ⟨p, whole⟩ := lines_eq_linesFrom s
  obtain ⟨first, es, shift, behind, hfirst, hes⟩ := opening.lines p
  obtain ⟨q, cut⟩ := ends.lines_append tail shift
  obtain ⟨last, es', shift', behind', hlast, hes'⟩ := closing.lines q
  refine ⟨first, es ++ (textLines inside).map (.shift shift), last, es', shift', ?_, hfirst, hlast, hes', ?_⟩
  · rw [whole, behind, cut, behind', List.append_assoc]
  · have empty : es.any (isMetaFence '-') = false := List.any_eq_false.2 fun e he => by
      rw [isMetaFence_eq, hes e he]
      exact Bool.false_ne_true
    have trimmed : (textLines inside).any (isMetaFence '-') = (textLines b.text).any (isMetaFence '-') := by
      obtain ⟨t, split, ht⟩ := eq_dropEndWhile_append isLineEnd inside
      rw [text]
      conv => lhs; rw [split]
      exact any_linesFrom_append ⟨1, 1, 0⟩ [] _ ht (f := isMetaRow) rfl
    rw [List.any_append, empty, Bool.false_or, List.any_map, ← trimmed]
    congr 1
    funext l
    exact isMetaFence_shift shift l

/-! ### Agreement -/

/-- The reader of Markdown takes a block off, and goes on with the lines of the body, further down and perhaps behind
empty lines. -/
def IsTaken (s body : List Char) : Prop :=
  ∃ v q es shift, takeMeta (lines s) = some (.leaf (.yaml v) q, es ++ (lines body).map (.shift shift)) ∧
    ∀ e ∈ es, e.glyphs = []

/-- The block stands first, no line of it is a fence to the reader of Markdown, and the body begins with no byte order
mark. -/
structure IsPlain (s : List Char) (b : Block) : Prop where
  front : dropBlankLines (dropMark s) = dropMark s
  inside : (textLines b.text).any (isMetaFence '-') = false
  behind : b.body.head? ≠ some '\ufeff'

/-- Behind blank lines there is no block of data. -/
theorem takeMeta_of_blank {s : List Char} (h : dropBlankLines (dropMark s) ≠ dropMark s) :
    takeMeta (lines s) = none := by
  obtain ⟨p, whole⟩ := lines_eq_linesFrom s
  rw [whole]
  generalize dropMark s = t at h
  cases t with
  | nil =>
    rw [dropBlankLines] at h
    exact absurd rfl h
  | cons c t =>
    have blank : isBlankLine (cutLine (c :: t)).1 = true := by
      by_contra other
      rw [dropBlankLines, dif_neg nofun, if_neg other] at h
      exact h rfl
    refine takeMeta_eq_none fun l hl g hg => ?_
    rw [head_linesFrom p c t l hl g hg]
    constructor <;>
    · rintro rfl
      simp [cutLine, isBlankLine] at blank
      exact absurd blank.1 (by decide)

theorem glyphCount_textLines (s : List Char) : glyphCount (textLines s) = s.countP fun c => !isLineEnd c := by
  rw [textLines, glyphCount_linesFrom, List.length_nil, Nat.zero_add]

theorem glyphCount_lines (s : List Char) : glyphCount (lines s) = glyphCount (textLines (dropMark s)) := by
  obtain ⟨p, whole⟩ := lines_eq_linesFrom s
  rw [whole, glyphCount_linesFrom, glyphCount_linesFrom]

theorem glyphCount_lines_mark (s : List Char) :
    glyphCount (lines ('\ufeff' :: s)) < glyphCount (textLines ('\ufeff' :: s)) := by
  have mark : dropMark ('\ufeff' :: s) = s := rfl
  have glyph : isLineEnd '\ufeff' = false := rfl
  rw [glyphCount_lines, mark, glyphCount_textLines, glyphCount_textLines]
  simp [glyph]

theorem lines_eq_textLines {s : List Char} (h : s.head? ≠ some '\ufeff') : lines s = textLines s := by
  cases s with
  | nil => rfl
  | cons c s => exact lines.eq_2 _ fun r e => h (by rw [e]; rfl)

theorem glyphCount_lines_le (s : List Char) : glyphCount (lines s) ≤ glyphCount (textLines s) := by
  by_cases mark : s.head? = some '\ufeff'
  · obtain ⟨s, rfl⟩ := List.head?_eq_some_iff.1 mark
    exact (glyphCount_lines_mark s).le
  · rw [lines_eq_textLines mark]

theorem length_of_isMetaFence {l : Line} (h : isMetaFence '-' l = true) : 3 ≤ l.glyphs.length := by
  have row : (chars (l.glyphs.take 3)).length = 3 := by
    simp only [isMetaFence, Bool.and_eq_true, decide_eq_true_eq] at h
    rw [h.1]
    rfl
  rw [chars, List.length_map, List.length_take] at row
  omega

/-- What is taken off ends at the fence in front of the body: there are as many glyphs behind it as in the body. -/
theorem glyphCount_of_isTaken {s : List Char} {b : Block} (h : IsTaken s b.body) {first last : Line}
    {inside after : List Line} (whole : lines s = first :: (inside ++ last :: after)) (hfirst : isMetaFence '-' first = true)
    (hinside : ∀ l ∈ inside, isMetaFence '-' l = false) (hlast : isMetaFence '-' last = true) :
    glyphCount after = glyphCount (lines b.body) := by
  obtain ⟨v, q, es, shift, taken, hes⟩ := h
  obtain ⟨v', q', taken'⟩ := takeMeta_eq_some after hfirst hinside hlast
  rw [whole, taken'] at taken
  cases taken
  rw [glyphCount_append, glyphCount_eq_zero hes, glyphCount_shift, Nat.zero_add]

/-- A fence within the block would leave too many glyphs behind it: those of the fence in front of the body. -/
theorem not_isMetaFence_of_isTaken {s : List Char} {b : Block} (h : IsTaken s b.body) {first last : Line}
    {between es : List Line} {shift : Shift}
    (whole : lines s = first :: (between ++ last :: (es ++ (textLines b.body).map (.shift shift))))
    (hfirst : isMetaFence '-' first = true) (hlast : isMetaFence '-' last = true) :
    ∀ l ∈ between, isMetaFence '-' l = false := by
  by_contra early
  simp only [not_forall, Bool.not_eq_false] at early
  obtain ⟨l, hl, fence⟩ := early
  obtain ⟨x, found⟩ := Option.isSome_iff_exists.1 (List.find?_isSome.2 ⟨l, hl, fence⟩)
  obtain ⟨hx, before, rest, rfl, hbefore⟩ := List.find?_eq_some_iff_append.1 found
  rw [List.append_assoc, List.cons_append] at whole
  have count := glyphCount_of_isTaken h whole hfirst (fun l hl => by simpa using hbefore l hl) hx
  have least := length_of_isMetaFence hlast
  have most := glyphCount_lines_le b.body
  rw [glyphCount_append, glyphCount_cons, glyphCount_append, glyphCount_shift] at count
  omega

theorem isTaken_iff {s : List Char} {b : Block} (h : find s = .found b) : IsTaken s b.body ↔ IsPlain s b := by
  constructor
  · intro taken
    have front : dropBlankLines (dropMark s) = dropMark s := by
      by_contra blank
      obtain ⟨v, q, es, shift, taken, -⟩ := taken
      rw [takeMeta_of_blank blank] at taken
      nomatch taken
    obtain ⟨first, between, last, es, shift, whole, hfirst, hlast, hes, same⟩ := lines_of_find h front
    have inside := not_isMetaFence_of_isTaken taken whole hfirst hlast
    refine ⟨front, ?_, ?_⟩
    · rw [← same]
      exact List.any_eq_false.2 fun l hl => by simp [inside l hl]
    · intro mark
      have count := glyphCount_of_isTaken taken whole hfirst inside hlast
      obtain ⟨t, e⟩ := List.head?_eq_some_iff.1 mark
      have fewer := glyphCount_lines_mark t
      rw [glyphCount_append, glyphCount_eq_zero hes, glyphCount_shift, Nat.zero_add, e] at count
      omega
  · rintro ⟨front, inside, behind⟩
    obtain ⟨first, between, last, es, shift, whole, hfirst, hlast, hes, same⟩ := lines_of_find h front
    rw [inside, List.any_eq_false] at same
    obtain ⟨v, q, taken⟩ := takeMeta_eq_some (es ++ (textLines b.body).map (.shift shift)) hfirst
      (fun l hl => Bool.eq_false_iff.2 (same l hl)) hlast
    refine ⟨v, q, es, shift, ?_, hes⟩
    rw [whole, lines_eq_textLines behind]
    exact taken

end Folio.Block
