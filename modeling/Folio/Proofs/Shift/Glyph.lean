import Folio.Markdown.Glyph

/-!
# Text that stands further down

A shift moves points down by some lines and bytes; columns stay. Glyphs keep their characters, their widths and their
source text, so whatever looks at these alone reads shifted glyphs as it reads the glyphs themselves. The lines of a
text that starts further down are the shifted lines of the text (`linesFrom_shift`).
-/

namespace Folio.Markdown

/-- How far a text is moved: by lines and by bytes. -/
structure Shift where
  lines : Nat
  bytes : Nat

variable (s : Shift)

namespace Point

def shift (p : Point) : Point := ⟨p.line + s.lines, p.column, p.offset + s.bytes⟩

@[simp] theorem shift_inj {p q : Point} : p.shift s = q.shift s ↔ p = q := by
  obtain ⟨l, c, o⟩ := p
  obtain ⟨l', c', o'⟩ := q
  simp [shift]

@[simp] theorem offset_shift_lt {p q : Point} : (p.shift s).offset < (q.shift s).offset ↔ p.offset < q.offset := by
  simp [shift]

theorem after_shift (p : Point) (c : Char) : (p.shift s).after c = (p.after c).shift s := by
  unfold after shift
  split <;> simp only [Point.mk.injEq, true_and] <;> omega

theorem nextLine_shift (p : Point) (n : Nat) : (p.shift s).nextLine n = (p.nextLine n).shift s := by
  simp only [nextLine, shift, Point.mk.injEq, true_and]
  omega

end Point

def Position.shift (p : Position) : Position := ⟨p.start.shift s, p.stop.shift s⟩

namespace Glyph

def shift (g : Glyph) : Glyph := ⟨g.char, g.start.shift s, g.stop.shift s⟩

variable (g : Glyph)

@[simp] theorem char_shift : (g.shift s).char = g.char := (rfl)

@[simp] theorem start_shift : (g.shift s).start = g.start.shift s := (rfl)

@[simp] theorem stop_shift : (g.shift s).stop = g.stop.shift s := (rfl)

@[simp] theorem isSpace_shift : (g.shift s).isSpace = g.isSpace := (rfl)

@[simp] theorem isEol_shift : (g.shift s).isEol = g.isEol := (rfl)

@[simp] theorem width_shift : (g.shift s).width = g.width := (rfl)

@[simp] theorem text_shift : (g.shift s).text = g.text := by
  have same : (g.char = '\n' && (g.stop.shift s).offset = (g.start.shift s).offset + 2) =
      (g.char = '\n' && g.stop.offset = g.start.offset + 2) := by
    simp only [Point.shift]
    congr 2
    simp only [eq_iff_iff]
    omega
  change (if (g.char = '\n' && (g.stop.shift s).offset = (g.start.shift s).offset + 2) then _ else _) = _
  rw [same]
  rfl

@[simp] theorem char_comp_shift : Glyph.char ∘ shift s = Glyph.char := (rfl)

@[simp] theorem isSpace_comp_shift : isSpace ∘ shift s = isSpace := (rfl)

@[simp] theorem width_comp_shift : width ∘ shift s = width := (rfl)

end Glyph

/-! ### Glyphs of a line -/

section
variable (gs : List Glyph)

@[simp] theorem isBlankLine_shift : isBlankLine (gs.map (.shift s)) = isBlankLine gs := by
  simp [isBlankLine, List.all_map]

@[simp] theorem indent_shift : indent (gs.map (.shift s)) = indent gs := by
  simp [indent, List.takeWhile_map, List.foldr_map]

@[simp] theorem dropSpaces_shift : dropSpaces (gs.map (.shift s)) = (dropSpaces gs).map (.shift s) := by
  simp [dropSpaces, List.dropWhile_map]

@[simp] theorem dropEndSpaces_shift : dropEndSpaces (gs.map (.shift s)) = (dropEndSpaces gs).map (.shift s) := by
  simp [dropEndSpaces, ← List.map_reverse, List.dropWhile_map]

@[simp] theorem chars_shift : chars (gs.map (.shift s)) = chars gs := by
  simp [chars]

@[simp] theorem sourceChars_shift : sourceChars (gs.map (.shift s)) = sourceChars gs := by
  simp [sourceChars, List.flatMap_map]

@[simp] theorem sourceText_shift : sourceText (gs.map (.shift s)) = sourceText gs := by
  simp [sourceText]

@[simp] theorem span_shift : span (gs.map (.shift s)) = (span gs).map (.shift s) := by
  unfold span
  rw [List.head?_map, List.getLast?_map]
  cases gs.head? <;> cases gs.getLast? <;> rfl

theorem tabRest_shift (g : Glyph) (n : Nat) : tabRest (g.shift s) n = (tabRest g n).map (.shift s) := by
  simp only [tabRest, Glyph.width_shift, List.map_map]
  refine List.map_congr_left fun i _ => ?_
  have stop : (if (g.start.shift s).column + n + i + 1 = (g.stop.shift s).column then g.stop.shift s
      else { g.start.shift s with column := (g.start.shift s).column + n + i + 1 }) =
      Point.shift s (if g.start.column + n + i + 1 = g.stop.column then g.stop
        else { g.start with column := g.start.column + n + i + 1 }) := by
    rw [apply_ite (Point.shift s)]
    rfl
  exact congrArg (Glyph.mk ' ' _) stop

@[simp] theorem dropColumns_shift (n : Nat) : dropColumns n (gs.map (.shift s)) = (dropColumns n gs).map (.shift s) := by
  fun_induction dropColumns n gs with
  | case1 => rfl
  | case2 n g gs h => simp [dropColumns, h]
  | case3 n g gs h hw ih => simp [dropColumns, h, hw, ih]
  | case4 n g gs h hw => simp [dropColumns, h, hw, tabRest_shift]

end

/-! ### Lines -/

namespace Line

def shift (l : Line) : Line := ⟨l.glyphs.map (.shift s), l.ending.map (.shift s), l.stop.shift s⟩

@[simp] theorem glyphs_shift (l : Line) : (l.shift s).glyphs = l.glyphs.map (.shift s) := (rfl)

@[simp] theorem ending_shift (l : Line) : (l.shift s).ending = l.ending.map (.shift s) := (rfl)

@[simp] theorem stop_shift (l : Line) : (l.shift s).stop = l.stop.shift s := (rfl)

end Line

theorem linesFrom_shift (p : Point) (acc : List Glyph) (cs : List Char) :
    linesFrom (p.shift s) (acc.map (.shift s)) cs = (linesFrom p acc cs).map (.shift s) := by
  fun_induction linesFrom p acc cs <;>
    simp_all [linesFrom, Line.shift, Glyph.shift, Point.nextLine_shift, Point.after_shift]

end Folio.Markdown
