import Folio.Frontmatter.Block
import Folio.Markdown.Page
import Folio.Proofs.Shift.Shape
import Mathlib

/-!
# The lines of a document with metadata

`Block.find` cuts a document at line feeds, the reader of Markdown at line feeds, carriage returns and both. Here the
lines that Markdown sees are put together from those of the parts that `Block.find` sees: behind a line feed they are
those of the rest (`linesFrom_append`), and line ends in a row are empty lines (`linesFrom_lineEnds`).
-/

namespace Folio.Markdown

/-- The lines of a text without regard to a byte order mark. -/
abbrev textLines (s : List Char) : List Line := linesFrom ⟨1, 1, 0⟩ [] s

def isLineEnd (c : Char) : Bool := c = '\r' || c = '\n'

/-- Further down the lines of a text are its shifted lines. -/
theorem linesFrom_nextLine (p : Point) (n : Nat) (s : List Char) :
    linesFrom (p.nextLine n) [] s = (textLines s).map (.shift ⟨p.line, p.offset + n⟩) := by
  have start : p.nextLine n = (⟨1, 1, 0⟩ : Point).shift ⟨p.line, p.offset + n⟩ := by
    simp [Point.nextLine, Point.shift, Nat.add_comm]
  rw [start]
  exact linesFrom_shift ⟨p.line, p.offset + n⟩ ⟨1, 1, 0⟩ [] s

/-! ### Cuts -/

theorem linesFrom_lineFeed (p : Point) (acc : List Glyph) (s : List Char) :
    linesFrom p acc ('\n' :: s) = ⟨acc.reverse, [⟨'\n', p, p.nextLine 1⟩], p⟩ :: linesFrom (p.nextLine 1) [] s := by
  simp [linesFrom]

theorem linesFrom_cons (p : Point) (acc : List Glyph) {c : Char} (h : isLineEnd c = false) (s : List Char) :
    linesFrom p acc (c :: s) = linesFrom (p.after c) (⟨c, p, p.after c⟩ :: acc) s := by
  have ends : c ≠ '\r' ∧ c ≠ '\n' := by simpa [isLineEnd] using h
  simp [linesFrom, ends]

theorem isLineEnd_eq_false {c : Char} {s : List Char} (single : c = '\r' → s = [] → False)
    (pair : ∀ d t, c = '\r' → s = d :: t → False) (h : c ≠ '\n') : isLineEnd c = false := by
  have other : c ≠ '\r' := by
    rintro rfl
    cases s with
    | nil => exact single rfl rfl
    | cons d s => exact pair d s rfl rfl
  simp [isLineEnd, other, h]

/-- Behind a line feed the lines are those of the rest. -/
theorem linesFrom_append (p : Point) (acc : List Glyph) (a t : List Char) :
    ∃ s, linesFrom p acc (a ++ '\n' :: t) = linesFrom p acc (a ++ ['\n']) ++ (textLines t).map (.shift s) := by
  fun_induction linesFrom p acc a with
  | case1 p acc h => exact ⟨⟨p.line, p.offset + 1⟩, by simp [linesFrom, linesFrom_nextLine]⟩
  | case2 p acc h => exact ⟨⟨p.line, p.offset + 1⟩, by simp [linesFrom, linesFrom_nextLine]⟩
  | case3 p acc => exact ⟨⟨p.line, p.offset + 2⟩, by simp [linesFrom, linesFrom_nextLine]⟩
  | case4 p acc s ih =>
    obtain ⟨s', ih⟩ := ih
    exact ⟨s', by simp [linesFrom, ih]⟩
  | case5 p acc c s h ih =>
    obtain ⟨s', ih⟩ := ih
    exact ⟨s', by simpa [linesFrom, h] using ih⟩
  | case6 p acc s _ _ ih =>
    obtain ⟨s', ih⟩ := ih
    exact ⟨s', by simpa only [List.cons_append, linesFrom_lineFeed] using congrArg _ ih⟩
  | case7 p acc c s single pair lineFeed ih =>
    have plain := isLineEnd_eq_false single pair lineFeed
    obtain ⟨s', ih⟩ := ih
    exact ⟨s', by simpa only [List.cons_append, linesFrom_cons _ _ plain] using ih⟩

/-! ### Line ends in a row -/

/-- Line ends in a row end the line that has begun, and then there are empty lines. -/
theorem linesFrom_lineEnds (p : Point) (acc : List Glyph) {t : List Char} (ht : ∀ c ∈ t, isLineEnd c = true)
    (h : acc ≠ [] ∨ t ≠ []) :
    ∃ l es, linesFrom p acc t = l :: es ∧ l.glyphs = acc.reverse ∧ ∀ e ∈ es, e.glyphs = [] := by
  have behind {p : Point} {t : List Char} (ih : t ≠ [] →
      ∃ l es, linesFrom p [] t = l :: es ∧ l.glyphs = [] ∧ ∀ e ∈ es, e.glyphs = []) :
      ∀ e ∈ linesFrom p [] t, e.glyphs = [] := by
    cases t with
    | nil => simp [linesFrom]
    | cons c t =>
      obtain ⟨l, es, e, hl, hes⟩ := ih (List.cons_ne_nil c t)
      rw [e]
      exact List.forall_mem_cons.2 ⟨hl, hes⟩
  fun_induction linesFrom p acc t with
  | case1 p acc hacc => simp_all
  | case2 p acc hacc => exact ⟨_, [], rfl, rfl, List.forall_mem_nil _⟩
  | case3 p acc => exact ⟨_, [], rfl, rfl, List.forall_mem_nil _⟩
  | case4 p acc s ih =>
    exact ⟨_, _, rfl, rfl, behind fun hs => ih (fun c hc => ht c (by simp [hc])) (.inr hs)⟩
  | case5 p acc c s hc ih =>
    exact ⟨_, _, rfl, rfl, behind fun hs => ih (fun c hc => ht c (List.mem_cons_of_mem _ hc)) (.inr hs)⟩
  | case6 p acc s _ _ ih =>
    exact ⟨_, _, rfl, rfl, behind fun hs => ih (fun c hc => ht c (List.mem_cons_of_mem _ hc)) (.inr hs)⟩
  | case7 p acc c s single pair lineFeed ih =>
    have plain := isLineEnd_eq_false single pair lineFeed
    exact absurd (ht c List.mem_cons_self) (by simp [plain])

/-- To what no empty line has, line ends behind a text add nothing. -/
theorem any_linesFrom_append (p : Point) (acc : List Glyph) (s : List Char) {t : List Char}
    (ht : ∀ c ∈ t, isLineEnd c = true) {f : List Glyph → Bool} (hf : f [] = false) :
    (linesFrom p acc (s ++ t)).any (f ·.glyphs) = (linesFrom p acc s).any (f ·.glyphs) := by
  have first {p : Point} {acc : List Glyph} {t : List Char} (ht : ∀ c ∈ t, isLineEnd c = true) (h : acc ≠ [] ∨ t ≠ []) :
      (linesFrom p acc t).any (f ·.glyphs) = f acc.reverse := by
    obtain ⟨l, es, e, hl, hes⟩ := linesFrom_lineEnds p acc ht h
    rw [e, List.any_cons, hl, List.any_eq_false.2 fun e he => by simp [hes e he, hf], Bool.or_false]
  fun_induction linesFrom p acc s with
  | case1 p acc hacc =>
    obtain rfl := List.isEmpty_iff.1 hacc
    cases t with
    | nil => rfl
    | cons c t => exact (first ht (.inr (List.cons_ne_nil c t))).trans hf
  | case2 p acc hacc =>
    rw [List.nil_append, first ht (.inl (mt List.isEmpty_iff.2 hacc))]
    simp
  | case3 p acc =>
    rw [List.singleton_append, first (List.forall_mem_cons.2 ⟨rfl, ht⟩) (.inr (List.cons_ne_nil _ t))]
    simp
  | case4 p acc s ih => simp [linesFrom, ih]
  | case5 p acc c s hc ih => simpa [linesFrom, hc] using congrArg (f acc.reverse || ·) ih
  | case6 p acc s _ _ ih => simp [linesFrom, ih]
  | case7 p acc c s single pair lineFeed ih =>
    rw [List.cons_append, linesFrom_cons _ _ (isLineEnd_eq_false single pair lineFeed)]
    exact ih

/-! ### Glyphs -/

/-- How many glyphs lines have. -/
def glyphCount (ls : List Line) : Nat := (ls.map (·.glyphs.length)).sum

theorem glyphCount_linesFrom (p : Point) (acc : List Glyph) (s : List Char) :
    glyphCount (linesFrom p acc s) = acc.length + s.countP fun c => !isLineEnd c := by
  unfold glyphCount
  fun_induction linesFrom p acc s with
  | case7 p acc c s single pair lineFeed ih =>
    have plain := isLineEnd_eq_false single pair lineFeed
    rw [ih]
    simp [plain]
    omega
  | _ => simp_all [isLineEnd]

@[simp] theorem glyphCount_append (ls ls' : List Line) : glyphCount (ls ++ ls') = glyphCount ls + glyphCount ls' := by
  simp [glyphCount]

@[simp] theorem glyphCount_cons (l : Line) (ls : List Line) :
    glyphCount (l :: ls) = l.glyphs.length + glyphCount ls := rfl

@[simp] theorem glyphCount_shift (s : Shift) (ls : List Line) : glyphCount (ls.map (.shift s)) = glyphCount ls := by
  simp [glyphCount, Function.comp_def, Line.shift]

theorem glyphCount_eq_zero {ls : List Line} (h : ∀ l ∈ ls, l.glyphs = []) : glyphCount ls = 0 := by
  induction ls with
  | nil => rfl
  | cons l ls ih =>
    obtain ⟨hl, hls⟩ := List.forall_mem_cons.1 h
    rw [glyphCount_cons, hl, ih hls]
    rfl

/-- The first line of a text goes on with what has begun. -/
theorem prefix_head_linesFrom (p : Point) (acc : List Glyph) (s : List Char) :
    ∀ l ∈ (linesFrom p acc s).head?, acc.reverse <+: l.glyphs := by
  fun_induction linesFrom p acc s with
  | case1 => simp
  | case7 p acc c s _ _ _ ih =>
    intro l hl
    have longer := ih l hl
    rw [List.reverse_cons] at longer
    exact (List.prefix_append _ _).trans longer
  | _ =>
    rintro l ⟨⟩
    exact List.prefix_rfl

/-- The first glyph of a text is its first character. -/
theorem head_linesFrom (p : Point) (c : Char) (s : List Char) :
    ∀ l ∈ (linesFrom p [] (c :: s)).head?, ∀ g ∈ l.glyphs.head?, g.char = c := by
  intro l hl g hg
  by_cases h : isLineEnd c
  · have empty : l.glyphs = [] := by
      rcases (by simpa [isLineEnd] using h : c = '\r' ∨ c = '\n') with rfl | rfl
      · rcases s with _ | ⟨d, s⟩
        · cases hl
          rfl
        · by_cases lineFeed : d = '\n' <;> simp [linesFrom, lineFeed] at hl <;> exact hl ▸ rfl
      · rw [linesFrom_lineFeed] at hl
        cases hl
        rfl
    rw [empty] at hg
    cases hg
  · rw [linesFrom_cons p [] (by simpa using h)] at hl
    obtain ⟨gs, e⟩ := prefix_head_linesFrom _ _ _ l hl
    rw [← e] at hg
    cases hg
    rfl

/-! ### Blocks of data -/

/-- Is a row of glyphs a fence of metadata? -/
def isMetaRow (gs : List Glyph) : Bool := chars (gs.take 3) = ['-', '-', '-'] && isBlankLine (gs.drop 3)

theorem isMetaFence_eq (l : Line) : isMetaFence '-' l = isMetaRow l.glyphs := rfl

@[simp] theorem isMetaFence_shift (s : Shift) (l : Line) : isMetaFence '-' (l.shift s) = isMetaFence '-' l := by
  simp [isMetaFence, Line.shift, ← List.map_take, ← List.map_drop]

/-- The block of data ends at the first fence behind its opening fence. -/
theorem takeMeta_eq_some {first last : Line} {inside : List Line} (after : List Line)
    (hfirst : isMetaFence '-' first = true) (hinside : ∀ l ∈ inside, isMetaFence '-' l = false) (hlast : isMetaFence '-' last = true) :
    ∃ v q, takeMeta (first :: (inside ++ last :: after)) = some (.leaf (.yaml v) q, after) := by
  have mark : first.glyphs.head?.map (·.char) = some '-' := by
    obtain ⟨gs, ending, stop⟩ := first
    cases gs with
    | nil => nomatch hfirst
    | cons g gs =>
      have row : chars ((g :: gs).take 3) = ['-', '-', '-'] := by
        have both := hfirst
        simp only [isMetaFence, Bool.and_eq_true, decide_eq_true_eq] at both
        exact both.1
      exact congrArg List.head? row
  have taken : (inside ++ last :: after).takeWhile (fun l => !isMetaFence '-' l) = inside := by
    rw [List.takeWhile_append_of_pos fun l hl => by simp [hinside l hl]]
    simp [hlast]
  unfold takeMeta
  simp [mark, hfirst, taken]

/-- Lines that do not begin with the mark of a fence have no block of data. -/
theorem takeMeta_eq_none {ls : List Line}
    (h : ∀ l ∈ ls.head?, ∀ g ∈ l.glyphs.head?, g.char ≠ '-' ∧ g.char ≠ '+') : takeMeta ls = none := by
  rcases ls with _ | ⟨⟨_ | ⟨g, gs⟩, ending, stop⟩, ls⟩
  · rfl
  · rfl
  · obtain ⟨dash, plus⟩ := h _ rfl g rfl
    simp [takeMeta, dash, plus]

end Folio.Markdown
