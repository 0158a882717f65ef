import Folio.Markdown.Page
import Folio.Proofs.Shift.Shape

/-!
# Blocks under a shift

The blocks of lines that stand further down are the blocks of the lines, shifted (`blocksOf_shift`). One step of
reading a page commutes with the shift as long as the open block has a line, which every step preserves.
-/

namespace Folio.Markdown

variable (s : Shift)

/-! ### Blocks -/

def Container.shift : Container → Container
  | footnote label => footnote (label.map (.shift s))
  | kind => kind

mutual

def Block.shift : Block → Block
  | .blank => .blank
  | .paragraph content p => .paragraph (content.map (.shift s)) (p.shift s)
  | .heading depth content p => .heading depth (content.map (.shift s)) (p.shift s)
  | .leaf content p => .leaf content (p.shift s)
  | .table align rows p => .table align (rows.map (.map (.shift s))) (p.shift s)
  | .container kind p children => .container (kind.shift s) (p.shift s) (shiftBlocks children)

def shiftBlocks : List Block → List Block
  | [] => []
  | b :: bs => b.shift :: shiftBlocks bs

end

theorem shiftBlocks_eq_map (bs : List Block) : shiftBlocks s bs = bs.map (.shift s) := by
  induction bs with
  | nil => rfl
  | cons b bs ih => rw [shiftBlocks, ih, List.map_cons]

@[simp] theorem Block.stop?_shift (b : Block) : (b.shift s).stop? = b.stop?.map (.shift s) := by
  cases b <;> simp [Block.shift, Block.stop?, Position.shift]

@[simp] theorem joinLines_shift (ls : List Line) : joinLines (ls.map (.shift s)) = (joinLines ls).map (.shift s) := by
  fun_induction joinLines ls <;> simp_all [joinLines]

theorem takeDefinitions_shift (n : Nat) (gs : List Glyph) :
    takeDefinitions n (gs.map (.shift s)) =
      ((takeDefinitions n gs).1.map (.shift s), (takeDefinitions n gs).2.map (.shift s)) := by
  induction n generalizing gs with
  | zero => rfl
  | succ n ih =>
    rw [takeDefinitions, takeDefinitions, readDefinition_shift]
    cases readDefinition gs with
    | none => rfl
    | some d =>
      simp only [Option.map_some, Definition.shift, ih, span_shift, sourceChars_shift]
      cases span d.taken <;> simp [Block.shift]

@[simp] theorem splitParagraph_shift (ls : List Line) :
    splitParagraph (ls.map (.shift s)) =
      ((splitParagraph ls).1.map (.shift s), (splitParagraph ls).2.map (.shift s)) := by
  change takeDefinitions (joinLines (ls.map (.shift s))).length (joinLines (ls.map (.shift s))) = _
  rw [joinLines_shift, List.length_map, takeDefinitions_shift]
  rfl

@[simp] theorem linesText_shift (whole : Bool) (ls : List Line) :
    linesText whole (ls.map (.shift s)) = linesText whole ls := by
  cases whole <;> simp [linesText, List.flatMap_map]

theorem linesSpan_shift (ls : List Line) (h : ls ≠ []) (stop : Option Point) :
    linesSpan (ls.map (.shift s)) (stop.map (.shift s)) = (linesSpan ls stop).shift s := by
  obtain ⟨l, ls, rfl⟩ := List.exists_cons_of_ne_nil h
  obtain ⟨b, hb⟩ := Option.isSome_iff_exists.1 (List.getLast?_isSome.2 h)
  have hb' : ((l :: ls).map (Line.shift s)).getLast? = some (b.shift s) := by rw [List.getLast?_map, hb]; rfl
  unfold linesSpan
  rw [hb, hb']
  cases hg : l.glyphs <;> cases stop <;> simp [hg, Position.shift]

theorem Fence.leaf_shift (f : Fence) (opening : Line) (ls : List Line) (whole : Bool) :
    (f.shift s).leaf (opening.shift s) (ls.map (.shift s)) whole = f.leaf opening ls whole := by
  have text := linesText_shift s whole ({ opening with glyphs := [] } :: ls)
  have first : Line.shift s { opening with glyphs := [] } = { opening.shift s with glyphs := [] } := rfl
  rw [List.map_cons, first] at text
  simp only [Fence.leaf, text, Fence.mark_shift, Fence.info_shift, Fence.details_shift, List.isEmpty_map,
    sourceChars_shift]

@[simp] theorem Line.after_shift (l : Line) : (l.shift s).after = l.after.shift s := by
  unfold Line.after
  rw [Line.ending_shift, List.getLast?_map]
  cases l.ending.getLast? <;> rfl

theorem lastAfter_shift (ls : List Line) :
    (ls.map (.shift s)).getLast?.map Line.after = (ls.getLast?.map Line.after).map (.shift s) := by
  rw [List.getLast?_map]
  cases ls.getLast? <;> simp

theorem headAfter_shift (ls : List Line) :
    (ls.map (.shift s)).head?.map Line.after = (ls.head?.map Line.after).map (.shift s) := by
  cases ls <;> simp

/-! ### The open block -/

namespace Open

def shift : Open → Open
  | nothing => nothing
  | underlined => underlined
  | paragraph ls => paragraph (ls.map (.shift s))
  | code ls held => code (ls.map (.shift s)) (held.map (.shift s))
  | fenced f opening ls => fenced (f.shift s) (opening.shift s) (ls.map (.shift s))
  | html kind ls => html kind (ls.map (.shift s))
  | table align below rows => table align (below.shift s) (rows.map (.shift s))

/-- An open block that is made of lines has one. -/
def Filled : Open → Prop
  | code ls _ | html _ ls | table _ _ ls => ls ≠ []
  | _ => True

@[simp] theorem isSolid_shift (o : Open) : (o.shift s).isSolid = o.isSolid := by cases o <;> rfl

@[simp] theorem held_shift (o : Open) : (o.shift s).held = o.held.map (.shift s) := by cases o <;> rfl

theorem blocks_shift (atEnd : Bool) {o : Open} (h : o.Filled) :
    (o.shift s).blocks atEnd = (o.blocks atEnd).map (.shift s) := by
  cases o with
  | nothing => rfl
  | underlined => rfl
  | paragraph ls =>
    simp only [shift, blocks, ← List.map_reverse, splitParagraph_shift, span_shift, dropSpaces_shift, List.map_append]
    cases span (splitParagraph ls.reverse).2 <;> simp [Block.shift]
  | code ls held =>
    have span := linesSpan_shift s ls.reverse (by simpa [Filled] using h) none
    rw [Option.map_none] at span
    simp [shift, blocks, ← List.map_reverse, Block.shift, span]
  | fenced f opening ls =>
    have all : (opening.shift s :: (ls.map (.shift s)).reverse) = (opening :: ls.reverse).map (.shift s) := by simp
    have text := Fence.leaf_shift s f opening ls.reverse
    have span := linesSpan_shift s (opening :: ls.reverse) (by simp)
    rw [List.map_reverse] at text
    simp only [shift, blocks, all, text, lastAfter_shift]
    cases atEnd with
    | true => simp only [if_true, span, Block.shift, List.map_singleton]
    | false =>
      have span := span none
      rw [Option.map_none] at span
      simp only [Bool.false_eq_true, if_false, span, Block.shift, List.map_singleton]
  | html kind ls =>
    have span := linesSpan_shift s ls.reverse (by simpa [Filled] using h)
    simp only [shift, blocks, ← List.map_reverse, linesText_shift, headAfter_shift]
    cases atEnd && !kind.endsAtBlank with
    | true => simp only [if_true, span, Block.shift, List.map_singleton]
    | false =>
      have span := span none
      rw [Option.map_none] at span
      simp only [Bool.false_eq_true, if_false, span, Block.shift, List.map_singleton]
  | table align below rows =>
    have span := linesSpan_shift s rows.reverse (by simpa [Filled] using h)
      (some (if rows.length ≤ 1 then below.stop else (rows.head?.getD below).stop))
    have stop : (if rows.length ≤ 1 then (below.shift s).stop
        else ((rows.map (.shift s)).head?.getD (below.shift s)).stop) =
        (if rows.length ≤ 1 then below.stop else (rows.head?.getD below).stop).shift s := by
      rw [apply_ite (Point.shift s), List.head?_map]
      cases rows.head? <;> rfl
    rw [Option.map_some] at span
    simp only [shift, blocks, ← List.map_reverse, List.length_map, stop, span, Block.shift, List.map_map,
      List.map_singleton]
    rfl

end Open

/-! ### Lines and what is open -/

namespace Container

theorem rest?_shift (gs : List Glyph) (kind : Container) :
    (kind.shift s).rest? (gs.map (.shift s)) = (kind.rest? gs).map (.map (.shift s)) := by
  cases kind with
  | document => rfl
  | quote => exact quoteMark?_shift s gs
  | item mark => simp [shift, rest?, apply_ite (Option.map _)]
  | footnote label => simp [shift, rest?, apply_ite (Option.map _)]

theorem filled_shift (kind : Container) : (kind.shift s).filled = kind.filled.shift s := by cases kind <;> rfl

end Container

theorem goOn_shift (kinds : List Container) (gs : List Glyph) :
    goOn (kinds.map (.shift s)) (gs.map (.shift s)) = ((goOn kinds gs).1, (goOn kinds gs).2.map (.shift s)) := by
  induction kinds generalizing gs with
  | nil => rfl
  | cons kind kinds ih =>
    rw [List.map_cons, goOn, goOn, Container.rest?_shift]
    cases kind.rest? gs with
    | none => rfl
    | some rest => simp only [Option.map_some, ih]

theorem container?_shift (d : Dialect) (interrupts : Bool) (gs : List Glyph) :
    container? d interrupts (gs.map (.shift s)) =
      (container? d interrupts gs).map fun c => (c.1.shift s, c.2.map (.shift s)) := by
  unfold container?
  rw [quoteMark?_shift]
  cases quoteMark? gs with
  | some rest => rfl
  | none =>
    rw [itemMark?_shift]
    rcases itemMark? interrupts gs with _ | ⟨mark, rest⟩
    · cases d.gfm with
      | false => rfl
      | true =>
        simp only [Option.map_none, if_true, footnoteMark?_shift, Option.map_map]
        rfl
    · rfl

def Frame.shift (f : Frame) : Frame := ⟨f.kind.shift s, f.start.shift s, f.blocks.map (.shift s)⟩

theorem containers_shift (d : Dialect) (interrupts : Bool) (n : Nat) (gs : List Glyph) :
    containers d interrupts n (gs.map (.shift s)) =
      ((containers d interrupts n gs).1.map (.shift s), (containers d interrupts n gs).2.map (.shift s)) := by
  induction n generalizing gs with
  | zero => rfl
  | succ n ih =>
    unfold containers
    rw [container?_shift]
    cases container? d interrupts gs with
    | none => rfl
    | some c =>
      cases gs with
      | nil => rfl
      | cons g gs => simp [ih, Frame.shift]

/-! ### Kinds of lines -/

namespace LineKind

def shift : LineKind → LineKind
  | .heading depth text => .heading depth (text.map (.shift s))
  | .fence f => .fence (f.shift s)
  | kind => kind

@[simp] theorem isContent_shift (kind : LineKind) : (kind.shift s).isContent = kind.isContent := by cases kind <;> rfl

@[simp] theorem isUnderline_shift (kind : LineKind) : (kind.shift s).isUnderline = kind.isUnderline := by
  cases kind <;> rfl

theorem tableStart?_shift (d : Dialect) (current : Open) (gs : List Glyph) :
    tableStart? d (current.shift s) (gs.map (.shift s)) = tableStart? d current gs := by
  cases current with
  | paragraph ls =>
    cases ls with
    | nil => rfl
    | cons head ls =>
      simp only [tableStart?, Open.shift, List.map_cons, aligns?_shift]
      cases aligns? gs <;> simp
  | _ => rfl

theorem plain_shift (d : Dialect) (current : Open) (st : Stance) (gs : List Glyph) :
    plain d (current.shift s) st (gs.map (.shift s)) = (plain d current st gs).shift s := by
  have same : plain d (current.shift s) st (gs.map (.shift s)) = plain d current st gs := by
    unfold plain
    rw [underline?_shift, isThematicBreak_shift, tableStart?_shift]
    cases current <;> rfl
  have fixed : (plain d current st gs).shift s = plain d current st gs := by
    unfold plain
    dsimp only
    (repeat' split) <;> rfl
  rw [same, fixed]

theorem getD_shift (o : Option LineKind) (kind : LineKind) :
    (o.map (shift s)).getD (kind.shift s) = (o.getD kind).shift s := by
  cases o <;> rfl

theorem fresh_shift (d : Dialect) (current : Open) (st : Stance) (gs : List Glyph) :
    fresh d (current.shift s) st (gs.map (.shift s)) = (fresh d current st gs).shift s := by
  have asHeading : ((headingLine? gs).map fun h => (h.1, h.2.map (Glyph.shift s))).map (fun h => heading h.1 h.2) =
      ((headingLine? gs).map fun h => heading h.1 h.2).map (shift s) := by
    cases headingLine? gs <;> rfl
  have asFence : ((fence? d.math gs).map (Fence.shift s)).map fence = ((fence? d.math gs).map fence).map (shift s) := by
    cases fence? d.math gs <;> rfl
  have asHtml : (if d.html then (HtmlBlock.opened? (!st.interrupts || st.lazy) gs).map html else none) =
      (if d.html then (HtmlBlock.opened? (!st.interrupts || st.lazy) gs).map html else none).map (shift s) := by
    cases d.html <;> cases HtmlBlock.opened? (!st.interrupts || st.lazy) gs <;> rfl
  have orElse (a b : Option LineKind) : (a.map (shift s) <|> b.map (shift s)) = (a <|> b).map (shift s) := by
    cases a <;> rfl
  have getD (o : Option LineKind) : (o.map (shift s)).getD content = (o.getD content).shift s := getD_shift s o content
  unfold fresh
  dsimp only
  rw [headingLine?_shift, fence?_shift, HtmlBlock.opened?_shift, isThematicBreak_shift, isBlankLine_shift, indent_shift,
    plain_shift, List.head?_map, Option.map_map, Glyph.char_comp_shift, asHeading, asFence]
  conv => lhs; rw [asHtml, orElse, orElse, getD_shift, getD, getD, getD]
  simp only [apply_ite (shift s)]
  rfl

theorem of_shift (d : Dialect) (current : Open) (st : Stance) (gs : List Glyph) :
    of d (current.shift s) st (gs.map (.shift s)) = (of d current st gs).shift s := by
  have fresh := fresh_shift s d current st gs
  cases current with
  | fenced f opening ls =>
    simp only [of, Open.shift] at fresh ⊢
    rw [fresh, Fence.isClosedBy_shift, apply_ite (shift s), apply_ite (shift s)]
    rfl
  | html kind ls =>
    simp only [of, Open.shift] at fresh ⊢
    rw [fresh, isBlankLine_shift, apply_ite (shift s)]
    rfl
  | code ls held =>
    simp only [of, Open.shift] at fresh ⊢
    rw [fresh, indent_shift, apply_ite (shift s)]
    rfl
  | _ => exact fresh

end LineKind

/-! ### Pages -/

theorem Frame.close_shift (stop : Point) (f : Frame) :
    (f.shift s).close (stop.shift s) = (f.close stop).shift s := by
  have last : (f.blocks.map (Block.shift s)).findSome? Block.stop? =
      (f.blocks.findSome? Block.stop?).map (.shift s) := by
    rw [List.findSome?_map]
    induction f.blocks with
    | nil => rfl
    | cons b bs ih =>
      simp only [List.findSome?_cons, Function.comp_apply, Block.stop?_shift, ih]
      cases b.stop? <;> rfl
  simp only [close, shift, last, ← List.map_reverse, Block.shift, shiftBlocks_eq_map]
  cases f.blocks.findSome? Block.stop? with
  | none => rfl
  | some q => simp [Position.shift, apply_ite (Point.shift s)]

theorem closeFrames_shift (stop : Point) (n : Nat) (fs : List Frame) :
    closeFrames (stop.shift s) n (fs.map (.shift s)) = (closeFrames stop n fs).map (.shift s) := by
  fun_induction closeFrames stop n fs with
  | case1 fs => rfl
  | case2 n f g fs ih => rw [← ih, List.map_cons, List.map_cons, closeFrames, Frame.close_shift]; rfl
  | case3 n fs h =>
    rcases fs with _ | ⟨f, _ | ⟨g, fs⟩⟩
    · rfl
    · rfl
    · exact absurd rfl (h f g fs)

namespace Page

def shift (p : Page) : Page where
  frames := p.frames.map (.shift s)
  current := p.current.shift s
  interrupts := p.interrupts
  mayFollow := p.mayFollow
  blank := p.blank
  stop := p.stop.shift s

@[simp] theorem interrupts_shift (p : Page) : (p.shift s).interrupts = p.interrupts := (rfl)

@[simp] theorem mayFollow_shift (p : Page) : (p.shift s).mayFollow = p.mayFollow := (rfl)

theorem add_shift (bs : List Block) (p : Page) : (p.shift s).add (bs.map (.shift s)) = (p.add bs).shift s := by
  obtain ⟨frames, _⟩ := p
  cases frames <;> simp [add, shift, Frame.shift]

theorem add_blank_shift (p : Page) : (p.shift s).add [.blank] = (p.add [.blank]).shift s := add_shift s [.blank] p

@[simp] theorem current_add (bs : List Block) (p : Page) : (p.add bs).current = p.current := by
  unfold add
  cases p.frames <;> rfl

theorem finish_shift (atEnd : Bool) {p : Page} (h : p.current.Filled) :
    (p.shift s).finish atEnd = (p.finish atEnd).shift s := by
  have blanks (n : Nat) : List.replicate n Block.blank = (List.replicate n Block.blank).map (.shift s) := by
    rw [List.map_replicate]; rfl
  have blocks := Open.blocks_shift s atEnd h
  have held : (p.shift s).current.held = p.current.held.map (.shift s) := Open.held_shift s p.current
  have all := add_shift s (List.replicate (p.current.held.length - 1) Block.blank ++ p.current.blocks atEnd) p
  rw [List.map_append, ← blanks, ← blocks] at all
  unfold finish
  simp only [held, List.length_map, List.isEmpty_map]
  change (_ : Page) = _ at all
  rw [show (p.shift s).current = p.current.shift s from rfl, all]
  rfl

theorem place_shift (p : Page) : (p.shift s).place = p.place.shift s := by
  unfold place
  rw [add_blank_shift, show (p.shift s).blank = p.blank from rfl]
  cases p.blank <;> rfl

theorem keepBlank_shift (p : Page) : (p.shift s).keepBlank = p.keepBlank.shift s := by
  obtain ⟨frames, current, interrupts, mayFollow, blank, stop⟩ := p
  rcases frames with _ | ⟨⟨kind, start, blocks⟩, frames⟩
  · rfl
  · cases kind <;> cases blank <;> rfl

theorem closeTo_shift (n : Nat) (p : Page) : (p.shift s).closeTo n = (p.closeTo n).shift s := by
  simp [closeTo, shift, closeFrames_shift]

theorem enter_shift (fs : List Frame) (p : Page) :
    (p.shift s).enter (fs.map (.shift s)) = (p.enter fs).shift s := by
  simp [enter, shift]

/-! ### Lines that start or go on with a block -/

theorem lineSpan_shift (ls : List Line) (h : ls ≠ []) :
    linesSpan (ls.map (.shift s)) none = (linesSpan ls none).shift s :=
  linesSpan_shift s ls h none

theorem start_shift (kind : LineKind) (line : Line) (p : Page) :
    (p.shift s).start (kind.shift s) (line.shift s) = (p.start kind line).shift s := by
  have position : linesSpan [line.shift s] none = (linesSpan [line] none).shift s := lineSpan_shift s [line] (by simp)
  unfold start
  rw [position]
  cases kind with
  | heading depth content => exact add_shift s [.heading depth content (linesSpan [line] none)] p
  | topicBreak => exact add_shift s [.leaf .thematicBreak (linesSpan [line] none)] p
  | html kind =>
    have finish := finish_shift s false (p := { p with current := .html kind [line] }) (by simp [Open.Filled])
    simp only [LineKind.shift, Line.glyphs_shift, HtmlBlock.endsIn_shift, apply_ite (Page.shift s), ← finish]
    rfl
  | code => simp [LineKind.shift, shift, Open.shift, Line.shift]
  | _ => rfl

theorem underline_shift (depth : Nat) (lines : List Line) (line : Line) (p : Page) :
    (p.shift s).underline depth (lines.map (.shift s)) (line.shift s) = (p.underline depth lines line).shift s := by
  have definitions := add_shift s (splitParagraph lines.reverse).1.reverse p
  unfold underline
  simp only [← List.map_reverse, splitParagraph_shift, span_shift, definitions, dropSpaces_shift]
  cases span (splitParagraph lines.reverse).2 with
  | none => rfl
  | some position =>
    have heading := add_shift s [.heading depth (dropSpaces (splitParagraph lines.reverse).2)
      ⟨position.start, line.stop⟩] (p.add (splitParagraph lines.reverse).1.reverse)
    rw [List.map_singleton] at heading
    exact congrArg (fun q : Page => { q with current := .underlined }) heading

theorem proceed_shift (kind : LineKind) (line : Line) {p : Page} (h : p.current.Filled) :
    (p.shift s).proceed (kind.shift s) (line.shift s) = (p.proceed kind line).shift s := by
  have other : (((p.shift s).finish false).place).start (kind.shift s) (line.shift s) =
      (((p.finish false).place).start kind line).shift s := by
    rw [finish_shift s false h, place_shift, start_shift]
  obtain ⟨frames, current, interrupts, mayFollow, blank, stop⟩ := p
  cases kind with
  | blank => cases current <;> first | exact other | rfl
  | more =>
    cases current with
    | fenced f opening ls =>
      simp only [LineKind.shift, proceed, shift, Open.shift, Line.glyphs_shift, Fence.indentation_shift,
        dropColumns_shift, List.map_cons]
      rfl
    | html kind ls =>
      have finish := finish_shift s false (p := ⟨frames, .html kind (line :: ls), interrupts, mayFollow, blank, stop⟩)
        (by simp [Open.Filled])
      simp only [LineKind.shift, shift, Open.shift, proceed, Line.glyphs_shift, HtmlBlock.endsIn_shift, List.map_cons]
        at finish ⊢
      rw [finish]
      cases kind.endsIn line.glyphs <;> rfl
    | _ => exact other
  | closing =>
    cases current with
    | fenced f opening ls =>
      have add := add_shift s [.leaf (f.leaf opening ls.reverse true) (linesSpan [opening, line] none)]
        ⟨frames, .fenced f opening ls, interrupts, mayFollow, blank, stop⟩
      have span : linesSpan [opening.shift s, line.shift s] none = (linesSpan [opening, line] none).shift s :=
        lineSpan_shift s [opening, line] (by simp)
      have text := Fence.leaf_shift s f opening ls.reverse true
      rw [List.map_reverse] at text
      simp only [LineKind.shift, shift, Open.shift, proceed, span, text, List.map_singleton, Block.shift] at add ⊢
      rw [add]
    | _ => exact other
  | code =>
    cases current with
    | code ls held => simp [LineKind.shift, proceed, shift, Open.shift, Line.shift]
    | _ => exact other
  | underline depth =>
    cases current with
    | paragraph ls => exact underline_shift s depth ls line _
    | _ => exact other
  | tableStart align =>
    cases current with
    | paragraph ls =>
      cases ls with
      | nil => exact other
      | cons head ls =>
        have finish := finish_shift s false (p := ⟨frames, .paragraph ls, interrupts, mayFollow, blank, stop⟩) trivial
        exact congrArg (fun q : Page => { q with current := .table align (line.shift s) [head.shift s] }) finish
    | _ => exact other
  | row => cases current <;> first | exact other | rfl
  | content => cases current <;> first | exact other | rfl
  | _ => exact other

/-! ### Steps -/

theorem current_finish (atEnd : Bool) (p : Page) : (p.finish atEnd).current = .nothing := rfl

theorem filled_start (kind : LineKind) (line : Line) {p : Page} (h : p.current.Filled) :
    (p.start kind line).current.Filled := by
  cases kind with
  | html kind =>
    unfold start
    dsimp only
    split <;> simp [Open.Filled, current_finish]
  | _ => simp [start, Open.Filled] at h ⊢ <;> exact h

theorem filled_place {p : Page} (h : p.current.Filled) : p.place.current.Filled := by
  unfold place
  split
  · exact (current_add [.blank] p).symm ▸ h
  · exact h

theorem filled_proceed (kind : LineKind) (line : Line) {p : Page} (h : p.current.Filled) :
    (p.proceed kind line).current.Filled := by
  have other : (((p.finish false).place).start kind line).current.Filled := filled_start _ _ (filled_place trivial)
  obtain ⟨frames, current, interrupts, mayFollow, blank, stop⟩ := p
  cases kind with
  | blank => cases current <;> first | exact other | exact h
  | more =>
    cases current with
    | fenced f opening ls => trivial
    | html kind ls =>
      unfold proceed
      dsimp only
      split <;> simp [Open.Filled, current_finish]
    | _ => exact other
  | closing => cases current <;> exact other
  | code => cases current <;> first | exact other | simp [proceed, Open.Filled]
  | underline depth =>
    cases current with
    | paragraph ls =>
      simp only [proceed, underline]
      cases span (splitParagraph ls.reverse).2 <;> trivial
    | _ => exact other
  | tableStart align =>
    cases current with
    | paragraph ls => cases ls <;> first | exact other | simp [proceed, Open.Filled]
    | _ => exact other
  | row => cases current <;> first | exact other | simp [proceed, Open.Filled]
  | content => cases current <;> exact other
  | _ => exact other

theorem current_closeTo (n : Nat) (p : Page) : (p.closeTo n).current = p.current := rfl

theorem current_enter (fs : List Frame) (p : Page) : (p.enter fs).current = p.current := rfl

theorem current_keepBlank (p : Page) : p.keepBlank.current = p.current := by
  unfold keepBlank
  split
  · split <;> simp
  · rfl

theorem current_place (p : Page) : p.place.current = p.current := by
  unfold place
  split
  · exact current_add [.blank] p
  · rfl

/-- Where containers close or open, the open block is finished. -/
theorem current_leave (n : Nat) (p : Page) : ((p.finish false).keepBlank.closeTo n).place.current = .nothing := by
  rw [current_place, current_closeTo, current_keepBlank, current_finish]

theorem leave_shift (n : Nat) {p : Page} (h : p.current.Filled) :
    (((p.shift s).finish false).keepBlank.closeTo n).place = ((p.finish false).keepBlank.closeTo n).place.shift s := by
  rw [finish_shift s false h, keepBlank_shift, closeTo_shift, place_shift]

theorem filled_settle (d : Dialect) (kept : Nat) (opened : List Frame) (line : Line) {p : Page}
    (h : p.current.Filled) : (p.settle d kept opened line).current.Filled := by
  unfold settle
  dsimp only
  split
  · refine filled_start _ _ ?_
    rw [current_enter, current_leave]
    trivial
  · split
    · refine filled_start _ _ ?_
      rw [current_leave]
      trivial
    · exact filled_proceed _ _ h

theorem filled_step (d : Dialect) {p : Page} (line : Line) (h : p.current.Filled) :
    (p.step d line).current.Filled :=
  filled_settle d _ _ _ h

theorem opens_shift (d : Dialect) (all : Bool) (gs : List Glyph) (p : Page) :
    (p.shift s).opens d all (gs.map (.shift s)) =
      ((p.opens d all gs).1.map (.shift s), (p.opens d all gs).2.map (.shift s)) := by
  unfold opens
  rw [show (p.shift s).current.isSolid = p.current.isSolid from Open.isSolid_shift s p.current,
    interrupts_shift, List.length_map, containers_shift]
  split <;> rfl

theorem settle_shift (d : Dialect) (kept : Nat) (opened : List Frame) (line : Line) {p : Page}
    (h : p.current.Filled) :
    (p.shift s).settle d kept (opened.map (.shift s)) (line.shift s) = (p.settle d kept opened line).shift s := by
  have count : (p.shift s).frames.length = p.frames.length := List.length_map _
  have kind (st : LineKind.Stance) :
      LineKind.of d (p.shift s).current st (line.shift s).glyphs = (LineKind.of d p.current st line.glyphs).shift s :=
    LineKind.of_shift s d p.current st line.glyphs
  unfold settle
  dsimp only
  simp only [count, kind, List.isEmpty_map, LineKind.isContent_shift, LineKind.isUnderline_shift, interrupts_shift,
    mayFollow_shift, leave_shift s kept h, enter_shift, start_shift, proceed_shift s _ line h]
  split
  · rfl
  · split <;> rfl

theorem frames_filled_shift (p : Page) :
    (p.shift s).frames.map Frame.filled = (p.frames.map Frame.filled).map (.shift s) := by
  simp only [shift, List.map_map, Frame.filled, Frame.shift, Function.comp_def, Container.filled_shift]

theorem step_shift (d : Dialect) {p : Page} (line : Line) (h : p.current.Filled) :
    (p.shift s).step d (line.shift s) = (p.step d line).shift s := by
  have kinds : (p.shift s).frames.reverse.map (·.kind) = (p.frames.reverse.map (·.kind)).map (.shift s) := by
    simp only [shift, List.map_reverse, List.map_map]
    rfl
  have count : ((p.shift s).frames.map Frame.filled).length = (p.frames.map Frame.filled).length := by
    rw [List.length_map, List.length_map]
    exact List.length_map _
  have filled : { p.shift s with frames := (p.shift s).frames.map Frame.filled } =
      ({ p with frames := p.frames.map Frame.filled } : Page).shift s := by
    rw [frames_filled_shift]
    rfl
  unfold step
  rw [kinds, Line.glyphs_shift, goOn_shift]
  dsimp only
  rw [count, filled, opens_shift]
  exact settle_shift s d _ _ { line with glyphs := (Page.opens d _ _ _).2 }
    (p := { p with frames := p.frames.map Frame.filled }) h

theorem filled_foldl_step (d : Dialect) (ls : List Line) {p : Page} (h : p.current.Filled) :
    (ls.foldl (Page.step d) p).current.Filled := by
  induction ls generalizing p with
  | nil => exact h
  | cons l ls ih => exact ih (filled_step d l h)

theorem foldl_step_shift (d : Dialect) (ls : List Line) {p : Page} (h : p.current.Filled) :
    (ls.map (.shift s)).foldl (Page.step d) (p.shift s) = (ls.foldl (Page.step d) p).shift s := by
  induction ls generalizing p with
  | nil => rfl
  | cons l ls ih => rw [List.map_cons, List.foldl_cons, step_shift s d l h, ih (filled_step d l h), List.foldl_cons]

theorem done_shift {p : Page} (h : p.current.Filled) : (p.shift s).done = p.done.map (.shift s) := by
  unfold done
  rw [finish_shift s true h, closeTo_shift]
  generalize (p.finish true).closeTo 1 = q
  obtain ⟨_ | ⟨f, fs⟩, _⟩ := q
  · rfl
  · exact List.map_reverse.symm

end Page

/-- Blocks do not depend on where their lines stand. -/
theorem blocksOf_shift (d : Dialect) (ls : List Line) :
    blocksOf d (ls.map (.shift s)) = (blocksOf d ls).map (.shift s) := by
  cases ls with
  | nil => rfl
  | cons l ls =>
    have start : Page.startingAt (linesSpan ((l :: ls).map (.shift s)) none).start =
        (Page.startingAt (linesSpan (l :: ls) none).start).shift s := by
      rw [Page.lineSpan_shift s (l :: ls) (by simp)]
      rfl
    have filled : (Page.startingAt (linesSpan (l :: ls) none).start).current.Filled := trivial
    unfold blocksOf
    rw [start, Page.foldl_step_shift s d _ filled, Page.done_shift s (Page.filled_foldl_step d _ filled)]

end Folio.Markdown
