import Folio.Proofs.Shift.Line

/-!
# Shapes of lines under a shift

Whether a line is a heading, a fence, a mark of a container, markup or a part of a table does not depend on where it
stands.
-/

namespace Folio.Markdown

variable (s : Shift)

@[simp] theorem unindent?_shift (gs : List Glyph) :
    unindent? (gs.map (.shift s)) = (unindent? gs).map (.map (.shift s)) := by
  by_cases h : indent gs < tabSize <;> simp [unindent?, h]

@[simp] theorem isThematicBreak_shift (gs : List Glyph) :
    isThematicBreak (gs.map (.shift s)) = isThematicBreak gs := by
  unfold isThematicBreak
  rw [unindent?_shift]
  rcases unindent? gs with _ | _ | ⟨g, r⟩
  · rfl
  · rfl
  · simp [List.all_map, List.countP_map, Function.comp_def]

theorem dropClosing_eq (r : List Glyph) : dropClosing r =
    match (dropSpaces r).dropWhile fun g => g.char = '#' with
    | g :: rest => if g.isSpace then dropClosing rest else dropSpaces r
    | [] => [] := by
  rw [dropClosing]
  split <;>
  · next h => rw [h]

@[simp] theorem dropClosing_shift (r : List Glyph) :
    dropClosing (r.map (.shift s)) = (dropClosing r).map (.shift s) := by
  induction h : r.length using Nat.strongRecOn generalizing r with
  | ind n ih =>
    have drop := dropWhile_char_shift s (· = '#') (dropSpaces r)
    rw [dropClosing_eq, dropClosing_eq, dropSpaces_shift, drop]
    cases hd : (dropSpaces r).dropWhile fun g => g.char = '#' with
    | nil => rfl
    | cons g rest =>
      have short : rest.length < n := by
        have h₁ := (List.dropWhile_sublist (l := dropSpaces r) fun g : Glyph => decide (g.char = '#')).length_le
        have h₂ := (List.dropWhile_sublist (l := r) Glyph.isSpace).length_le
        rw [hd, List.length_cons] at h₁
        unfold dropSpaces at h₁
        omega
      cases hs : g.isSpace <;> simp [hs, ih _ short rest rfl]

@[simp] theorem headingLine?_shift (gs : List Glyph) :
    headingLine? (gs.map (.shift s)) = (headingLine? gs).map fun h => (h.1, h.2.map (.shift s)) := by
  unfold headingLine?
  rw [unindent?_shift]
  cases unindent? gs with
  | none => rfl
  | some line =>
    have take := takeWhile_char_shift s (· = '#') line
    simp only [Option.map_some, Option.bind_eq_bind, Option.bind_some, take, List.length_map, ← List.map_drop]
    generalize line.drop _ = rest
    have drop : (rest.map (Glyph.shift s)).dropWhile (fun g => g.isSpace || g.char = '#') =
      (rest.dropWhile fun g => g.isSpace || g.char = '#').map (Glyph.shift s) := List.dropWhile_map ..
    rw [drop, List.head?_map, ← List.map_reverse, dropClosing_shift, ← List.map_reverse]
    simp [apply_ite (Option.map _), Option.any_map]

@[simp] theorem underline?_shift (gs : List Glyph) : underline? (gs.map (.shift s)) = underline? gs := by
  unfold underline?
  rw [unindent?_shift]
  rcases unindent? gs with _ | _ | ⟨g, r⟩
  · rfl
  · rfl
  · have drop := dropWhile_char_shift s (· = g.char) r
    simp [drop]

def Fence.shift (f : Fence) : Fence := { f with info := f.info.map (.shift s), details := f.details.map (.shift s) }

section
variable (f : Fence)

@[simp] theorem Fence.mark_shift : (f.shift s).mark = f.mark := (rfl)

@[simp] theorem Fence.size_shift : (f.shift s).size = f.size := (rfl)

@[simp] theorem Fence.indentation_shift : (f.shift s).indentation = f.indentation := (rfl)

@[simp] theorem Fence.info_shift : (f.shift s).info = f.info.map (.shift s) := (rfl)

@[simp] theorem Fence.details_shift : (f.shift s).details = f.details.map (.shift s) := (rfl)

end

@[simp] theorem fence?_shift (math : Bool) (gs : List Glyph) :
    fence? math (gs.map (.shift s)) = (fence? math gs).map (.shift s) := by
  unfold fence?
  rw [unindent?_shift]
  rcases unindent? gs with _ | _ | ⟨g, r⟩
  · rfl
  · rfl
  · have take := takeWhile_char_shift s (· = g.char) r
    have info (words : List Glyph) : (words.map (Glyph.shift s)).takeWhile (fun h => !h.isSpace) =
      (words.takeWhile fun h => !h.isSpace).map (Glyph.shift s) := List.takeWhile_map ..
    simp only [Option.map_some, List.map_cons, Glyph.char_shift, take, List.length_map, ← List.map_drop,
      dropSpaces_shift, info, indent_shift]
    simp [apply_ite (Option.map _), List.any_map, Function.comp_def, Fence.shift]

@[simp] theorem Fence.isClosedBy_shift (f : Fence) (gs : List Glyph) :
    (f.shift s).isClosedBy (gs.map (.shift s)) = f.isClosedBy gs := by
  unfold Fence.isClosedBy
  rw [unindent?_shift]
  cases unindent? gs with
  | none => rfl
  | some line =>
    have take := takeWhile_char_shift s (· = f.mark) line
    have drop := dropWhile_char_shift s (· = f.mark) line
    simp [take, drop]

@[simp] theorem isFootnoteLabel_shift (gs : List Glyph) :
    isFootnoteLabel (gs.map (.shift s)) = isFootnoteLabel gs := by
  simp [isFootnoteLabel, List.all_map, Function.comp_def]

@[simp] theorem quoteMark?_shift (gs : List Glyph) :
    quoteMark? (gs.map (.shift s)) = (quoteMark? gs).map (.map (.shift s)) := by
  unfold quoteMark?
  rw [unindent?_shift]
  rcases unindent? gs with _ | _ | ⟨g, r⟩
  · rfl
  · rfl
  · by_cases h : g.char = '>' <;> simp [h]

@[simp] theorem itemMark?_shift (interrupts : Bool) (gs : List Glyph) :
    itemMark? interrupts (gs.map (.shift s)) = (itemMark? interrupts gs).map fun m => (m.1, m.2.map (.shift s)) := by
  unfold itemMark?
  rw [unindent?_shift]
  cases unindent? gs with
  | none => rfl
  | some line =>
    have take := takeWhile_char_shift s Char.isDigit line
    simp only [Option.map_some, Option.bind_eq_bind, Option.bind_some, take, List.length_map, ← List.map_drop,
      isThematicBreak_shift, chars_shift, indent_shift, List.isEmpty_map]
    cases line.drop (line.takeWhile fun g => g.char.isDigit).length with
    | nil => rfl
    | cons g r =>
      simp only [List.map_cons, Glyph.char_shift, isBlankLine_shift, indent_shift, dropColumns_shift]
      split
      · simp [apply_ite (Option.map _)]
      · simp [apply_ite (Option.map _)]

@[simp] theorem footnoteMark?_shift (gs : List Glyph) :
    footnoteMark? (gs.map (.shift s)) = (footnoteMark? gs).map (Part.shift s) := by
  unfold footnoteMark?
  rw [unindent?_shift]
  rcases unindent? gs with _ | _ | ⟨bracket, _ | ⟨caret, r⟩⟩
  · rfl
  · rfl
  · rfl
  · simp only [Option.map_some, Option.bind_eq_bind, Option.bind_some, List.map_cons, readLabelInside_nil_shift]
    cases readLabelInside [] r with
    | none => rfl
    | some part =>
      obtain ⟨label, rest⟩ := part
      simp [apply_ite (Option.map _), Option.any_map, ← List.map_tail]

/-! ### Markup -/

namespace HtmlBlock

@[simp] theorem lowerName_shift (name : List Glyph) : lowerName (name.map (.shift s)) = lowerName name := by
  simp [lowerName, Function.comp_def]

@[simp] theorem ofTag?_shift (mayComplete closing : Bool) (name rest : List Glyph) :
    ofTag? mayComplete closing (name.map (.shift s)) (rest.map (.shift s)) = ofTag? mayComplete closing name rest := by
  cases closing with
  | true =>
    cases h : closeTagRest? rest <;> simp [ofTag?, Option.any_map, Option.all_map, h]
  | false =>
    cases h : openTagRest? true rest <;> simp [ofTag?, Option.any_map, Option.all_map, h]

@[simp] theorem opened?_shift (mayComplete : Bool) (gs : List Glyph) :
    opened? mayComplete (gs.map (.shift s)) = opened? mayComplete gs := by
  unfold opened?
  rw [unindent?_shift]
  rcases unindent? gs with _ | _ | ⟨lt, _ | ⟨g, r⟩⟩
  · rfl
  · rfl
  · rfl
  · have tag : (tagName? (Glyph.shift s g :: r.map (.shift s))).bind
        (fun x => ofTag? mayComplete false x.1 x.2) = (tagName? (g :: r)).bind fun x => ofTag? mayComplete false x.1 x.2 := by
      rw [← List.map_cons, tagName?_shift]
      cases tagName? (g :: r) <;> simp
    simp only [Option.map_some, Option.bind_eq_bind, Option.bind_some, List.map_cons, Glyph.char_shift, chars_shift, tag,
      tagName?_shift, Option.bind_map, Function.comp_def, Part.fst_shift, Part.snd_shift, ofTag?_shift,
      List.head?_map, Option.any_map]

@[simp] theorem endsIn_shift (kind : HtmlBlock) (gs : List Glyph) : kind.endsIn (gs.map (.shift s)) = kind.endsIn gs := by
  unfold endsIn
  rw [chars_shift]

end HtmlBlock

/-! ### Tables -/

theorem cutAtPipes_shift (acc gs : List Glyph) :
    cutAtPipes (acc.map (.shift s)) (gs.map (.shift s)) = (cutAtPipes acc gs).map (Part.shift s) := by
  fun_induction cutAtPipes acc gs <;> rw [cutAtPipes.eq_def] <;> simp_all

def Cell.shift (c : Cell) : Cell := ⟨c.glyphs.map (.shift s), c.content.map (.shift s)⟩

@[simp] theorem Cell.content_shift (c : Cell) : (c.shift s).content = c.content.map (.shift s) := rfl

@[simp] theorem Cell.glyphs_shift (c : Cell) : (c.shift s).glyphs = c.glyphs.map (.shift s) := rfl

theorem cellsBehind_shift (pipe : List Glyph) (pieces : List Part) :
    cellsBehind (pipe.map (.shift s)) (pieces.map (Part.shift s)) = (cellsBehind pipe pieces).map (Cell.shift s) := by
  fun_induction cellsBehind pipe pieces <;> simp_all [cellsBehind, Cell.shift] <;> rfl

@[simp] theorem cells_shift (gs : List Glyph) : cells (gs.map (.shift s)) = (cells gs).map (Cell.shift s) := by
  have cut := cutAtPipes_shift s [] gs
  have behind := cellsBehind_shift s []
  simp only [List.map_nil] at cut behind
  unfold cells
  rw [cut]
  rcases cutAtPipes [] gs with _ | ⟨⟨piece, pipe⟩, _ | ⟨next, rest⟩⟩
  · rfl
  · exact behind [(piece, pipe)]
  · simp only [List.map_cons, Part.shift_mk, isBlankLine_shift]
    split
    · rw [← List.map_append, ← List.map_cons, cellsBehind_shift]
    · exact behind ((piece, pipe) :: next :: rest)

@[simp] theorem aligns?_shift (gs : List Glyph) : aligns? (gs.map (.shift s)) = aligns? gs := by
  unfold aligns?
  rw [unindent?_shift]
  cases unindent? gs with
  | none => rfl
  | some line =>
    simp only [Option.map_some, Option.bind_eq_bind, Option.bind_some, List.any_map, Function.comp_def,
      Glyph.char_shift, cells_shift]
    split
    · rfl
    · induction cells line with
      | nil => rfl
      | cons c cs ih => simp [List.mapM_cons, ih]

@[simp] theorem isTableHead_shift (gs : List Glyph) : isTableHead (gs.map (.shift s)) = isTableHead gs := by
  simp only [isTableHead, indent_shift, dropSpaces_shift, dropEndSpaces_shift, chars_shift, List.head?_map,
    Option.map_map, Glyph.char_comp_shift]

end Folio.Markdown
