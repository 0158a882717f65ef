import Folio.Markdown.Phrase
import Folio.Proofs.Shift.Piece

/-!
# Running text under a shift

The nodes of a text that stands further down are the nodes of the text, shifted (`phrase_shift`).
-/

namespace Folio.Markdown

variable (s : Shift)

theorem takenOf_shift (gs rest : List Glyph) :
    takenOf (gs.map (.shift s)) (rest.map (.shift s)) = (takenOf gs rest).map (.shift s) := by
  simp [takenOf, List.map_take]

/-! ### Spans and markup -/

theorem splitAtRun_shift (mark : Char) (size n : Nat) (gs : List Glyph) :
    splitAtRun mark size n (gs.map (.shift s)) = (splitAtRun mark size n gs).map (Part.shift s) := by
  induction n generalizing gs with
  | zero => rfl
  | succ n ih =>
    cases gs with
    | nil => rfl
    | cons g gs =>
      have run := takeWhile_char_shift s (fun c => c = mark) gs
      have before (taken : List Glyph) (o : Option (List Glyph × List Glyph)) :
          (o.map (Part.shift s)).map (fun r => (taken.map (.shift s) ++ r.1, r.2)) =
            (o.map fun r => (taken ++ r.1, r.2)).map (Part.shift s) := by
        cases o <;> simp [Part.shift]
      simp only [List.map_cons, splitAtRun, Glyph.char_shift, run, List.length_cons, List.length_map, ← List.map_drop,
        ih, apply_ite (Option.map (Part.shift s))]
      split
      · split
        · rfl
        · exact before (g :: gs.takeWhile _) _
      · exact before [g] _

@[simp] theorem spanValue_shift (inTable : Bool) (gs : List Glyph) :
    spanValue inTable (gs.map (.shift s)) = spanValue inTable gs := by
  unfold spanValue
  rw [List.map_map]
  rfl

@[simp] theorem afterInfix?_shift (piece : List Char) (gs : List Glyph) :
    afterInfix? piece (gs.map (.shift s)) = (afterInfix? piece gs).map (.map (.shift s)) := by
  induction gs with
  | nil => rfl
  | cons g gs ih =>
    rw [List.map_cons, afterInfix?, afterInfix?, ih, apply_ite (Option.map _), ← List.map_cons, ← List.map_take,
      chars_shift, ← List.map_drop]
    rfl

@[simp] theorem markupRest?_shift (gs : List Glyph) :
    markupRest? (gs.map (.shift s)) = (markupRest? gs).map (.map (.shift s)) := by
  cases gs with
  | nil => rfl
  | cons g r =>
    have whole := tagName?_shift s (g :: r)
    have closing (o : Option Part) : (o.map (Part.shift s)).bind (fun x => closeTagRest? x.2) =
        (o.bind fun x => closeTagRest? x.2).map (.map (.shift s)) := by
      cases o <;> simp
    have opening (o : Option Part) : (o.map (Part.shift s)).bind (fun x => openTagRest? false x.2) =
        (o.bind fun x => openTagRest? false x.2).map (.map (.shift s)) := by
      cases o <;> simp
    rw [List.map_cons] at whole ⊢
    simp only [markupRest?, Glyph.char_shift, ← List.map_take, ← List.map_drop, chars_shift, afterInfix?_shift,
      List.head?_map, Option.any_map, tagName?_shift, whole, closing, opening, apply_ite (Option.map (List.map _))]
    rfl

@[simp] theorem markupText_shift (unindenting : Bool) (gs : List Glyph) :
    markupText unindenting (gs.map (.shift s)) = markupText unindenting gs := by
  fun_induction markupText unindenting gs <;> simp_all [markupText]

@[simp] theorem altText_shift (ns : List Node) : altText (ns.map (.shift s)) = altText ns := by
  fun_induction altText ns <;> simp_all [altText, Node.shift, shiftNodes_eq_map]

/-! ### Readings -/

def Bracket.shift (b : Bracket) : Bracket where
  kind := b.kind
  active := b.active
  glyphs := b.glyphs.map (.shift s)
  behind := b.behind.map (.shift s)
  before := b.before.map (.shift s)

namespace Bracket

variable (b : Bracket)

@[simp] theorem kind_shift : (b.shift s).kind = b.kind := (rfl)

@[simp] theorem active_shift : (b.shift s).active = b.active := (rfl)

@[simp] theorem glyphs_shift : (b.shift s).glyphs = b.glyphs.map (.shift s) := (rfl)

@[simp] theorem behind_shift : (b.shift s).behind = b.behind.map (.shift s) := (rfl)

@[simp] theorem before_shift : (b.shift s).before = b.before.map (.shift s) := (rfl)

end Bracket

namespace Reading

def shift (r : Reading) : Reading := ⟨r.brackets.map (.shift s), r.pieces.map (.shift s), r.previous⟩

/-- What is read with what follows it, shifted. -/
def shiftStep (r : Reading × List Glyph) : Reading × List Glyph := (r.1.shift s, r.2.map (.shift s))

theorem flattenBracket_shift (b : Bracket) (ps : List Piece) :
    flattenBracket (b.shift s) (ps.map (.shift s)) = (flattenBracket b ps).map (.shift s) := by
  simp [flattenBracket, Bracket.shift, Piece.shift]

theorem toPieces_shift (r : Reading) : (r.shift s).toPieces = r.toPieces.map (.shift s) := by
  obtain ⟨brackets, pieces, previous⟩ := r
  simp only [toPieces, shift, List.map_reverse]
  congr 1
  induction brackets generalizing pieces with
  | nil => rfl
  | cons b bs ih => rw [List.map_cons, List.foldl_cons, flattenBracket_shift, ih, List.foldl_cons]

def Linked.shift : Linked → Linked
  | .target t => .target t
  | .reference label kind => .reference (label.map (.shift s)) kind

theorem linked?_shift (env : Surroundings) (label rest : List Glyph) :
    linked? env (label.map (.shift s)) (rest.map (.shift s)) =
      (linked? env label rest).map fun l => (l.1.shift s, l.2.map (.shift s)) := by
  cases rest with
  | nil => simp only [linked?, List.map_nil, sourceChars_shift, apply_ite (Option.map _)]; rfl
  | cons g r =>
    have whole := readLabel_shift s (g :: r)
    rw [List.map_cons] at whole ⊢
    simp only [linked?, Glyph.char_shift, readResource_shift, whole, sourceChars_shift, ← List.map_drop, List.head?_map,
      Option.any_map, apply_ite (Option.map _)]
    rcases readResource r with _ | ⟨t, _, after⟩ <;> rcases readLabel (g :: r) with _ | ⟨l, after'⟩ <;>
      simp only [Option.map_some, Option.map_none, apply_ite (Option.map _), Part.shift, sourceChars_shift] <;> rfl

theorem linkNode_shift (env : Surroundings) (image : Bool) (ps : List Piece) (p : Option Position) (l : Linked) :
    linkNode env image (ps.map (.shift s)) (p.map (.shift s)) (l.shift s) = (linkNode env image ps p l).shift s := by
  unfold linkNode
  rw [Piece.nodes_shift]
  cases l <;> cases image <;> simp [Linked.shift]

theorem closeBracket_shift (env : Surroundings) (r : Reading) (g : Glyph) (gs : List Glyph) :
    (r.shift s).closeBracket env (g.shift s) (gs.map (.shift s)) = shiftStep s (r.closeBracket env g gs) := by
  obtain ⟨brackets, pieces, previous⟩ := r
  cases brackets with
  | nil => rfl
  | cons b outer =>
    have label : takenOf (b.behind.map (.shift s)) (g.shift s :: gs.map (.shift s)) =
        (takenOf b.behind (g :: gs)).map (.shift s) :=
      takenOf_shift s b.behind (g :: gs)
    have passive : (outer.map (Bracket.shift s)).map (fun o => if o.kind = .image then o else { o with active := false }) =
        (outer.map fun o => if o.kind = .image then o else { o with active := false }).map (Bracket.shift s) := by
      rw [List.map_map, List.map_map]
      congr 1
      funext o
      simp only [Function.comp_apply, apply_ite (Bracket.shift s)]
      rfl
    have node (image : Bool) (ps : List Piece) (rest : List Glyph) (l : Linked) :
        linkNode env image (ps.map (.shift s))
          (span (b.glyphs.map (.shift s) ++ takenOf (b.behind.map (.shift s)) (rest.map (.shift s)))) (l.shift s) =
        (linkNode env image ps (span (b.glyphs ++ takenOf b.behind rest)) l).shift s := by
      rw [takenOf_shift, ← List.map_append, span_shift, linkNode_shift]
    have noteLink := linked?_shift s env (b.glyphs.drop 1 ++ takenOf b.behind (g :: gs)) gs
    have textLink := linked?_shift s env (takenOf b.behind (g :: gs)) gs
    unfold closeBracket
    simp only [shift, List.map_cons]
    simp only [Bracket.kind_shift, Bracket.active_shift, Bracket.glyphs_shift, Bracket.behind_shift,
      Bracket.before_shift, label, sourceChars_shift, flattenBracket_shift, passive, ← List.map_drop,
      ← List.map_append, ← List.map_reverse, noteLink, textLink, apply_ite (shiftStep s)]
    split
    · rfl
    · split
      · rw [takenOf_shift, ← List.map_append, span_shift]
        rfl
      · split
        · rcases linked? env (b.glyphs.drop 1 ++ takenOf b.behind (g :: gs)) gs with _ | ⟨l, rest⟩
          · rfl
          · have node := node false (.plain (b.glyphs.drop 1) :: pieces.reverse) rest l
            simp only [Option.map_some, List.map_cons, Piece.shift] at node ⊢
            rw [node]
            rfl
        · rcases linked? env (takenOf b.behind (g :: gs)) gs with _ | ⟨l, rest⟩
          · rfl
          · simp only [Option.map_some, node, ← apply_ite (List.map (Bracket.shift s))]
            rfl

theorem openBracket_shift (kind : BracketKind) (size : Nat) (r : Reading) (gs : List Glyph) :
    (r.shift s).openBracket kind size (gs.map (.shift s)) = shiftStep s (r.openBracket kind size gs) := by
  simp [openBracket, shiftStep, shift, Bracket.shift, List.map_take, List.map_drop]

theorem leaf_shift (content : Leaf) (gs rest : List Glyph) (r : Reading) :
    (r.shift s).leaf content (gs.map (.shift s)) (rest.map (.shift s)) = shiftStep s (r.leaf content gs rest) := by
  unfold leaf
  rw [takenOf_shift, span_shift]
  rfl

theorem run_shift (g : Glyph) (gs : List Glyph) :
    g.shift s :: (gs.map (Glyph.shift s)).takeWhile (·.char = g.char) =
      (g :: gs.takeWhile (·.char = g.char)).map (.shift s) :=
  congrArg (g.shift s :: ·) (takeWhile_char_shift s (fun c => c = g.char) gs)

theorem readSpan_shift (env : Surroundings) (r : Reading) (g : Glyph) (gs : List Glyph) :
    (r.shift s).readSpan env (g.shift s) (gs.map (.shift s)) = shiftStep s (r.readSpan env g gs) := by
  unfold readSpan
  simp only [Glyph.char_shift, run_shift, List.length_map, ← List.map_drop, splitAtRun_shift]
  generalize g :: gs.takeWhile _ = run
  rcases splitAtRun g.char run.length _ _ with _ | ⟨inside, after⟩
  · rfl
  · simp only [Option.map_some, Part.shift, spanValue_shift, ← leaf_shift]
    rfl

theorem readEscape_shift (r : Reading) (g : Glyph) (gs : List Glyph) :
    (r.shift s).readEscape (g.shift s) (gs.map (.shift s)) = shiftStep s (r.readEscape g gs) := by
  cases gs with
  | nil => rfl
  | cons h rest =>
    simp only [List.map_cons, readEscape, Glyph.isEol_shift, Glyph.char_shift, dropSpaces_shift,
      apply_ite (shiftStep s)]
    rfl

theorem readAngle_shift (env : Surroundings) (r : Reading) (g : Glyph) (gs : List Glyph) :
    (r.shift s).readAngle env (g.shift s) (gs.map (.shift s)) = shiftStep s (r.readAngle env g gs) := by
  unfold readAngle
  rw [Address.enclosed?_shift]
  rcases Address.enclosed? gs with _ | ⟨before, inside, close, rest⟩
  · have markup : (if env.dialect.html then markupRest? (gs.map (.shift s)) else none) =
        (if env.dialect.html then markupRest? gs else none).map (.map (.shift s)) := by
      rw [markupRest?_shift, apply_ite (Option.map _)]
      rfl
    rw [Option.map_none, markup]
    cases (if env.dialect.html then markupRest? gs else none) with
    | none => rfl
    | some rest =>
      simp only [Option.map_some, ← List.map_cons, takenOf_shift, markupText_shift, leaf_shift]
  · simp only [Option.map_some, sourceText_shift, span_shift]
    rfl

theorem readBlanks_shift (r : Reading) (g : Glyph) (gs : List Glyph) :
    (r.shift s).readBlanks (g.shift s) (gs.map (.shift s)) = shiftStep s (r.readBlanks g gs) := by
  have blanks : g.shift s :: (gs.map (Glyph.shift s)).takeWhile Glyph.isSpace =
      (g :: gs.takeWhile Glyph.isSpace).map (.shift s) := by
    rw [List.takeWhile_map]
    rfl
  unfold readBlanks
  simp only [blanks, List.length_map, ← List.map_drop, List.all_map]
  generalize g :: gs.takeWhile _ = run
  cases gs.drop (run.length - 1) with
  | nil => rfl
  | cons h rest =>
    simp only [List.map_cons, Glyph.isEol_shift, dropSpaces_shift, apply_ite (shiftStep s)]
    rfl

theorem readReference_shift (r : Reading) (g : Glyph) (gs : List Glyph) :
    (r.shift s).readReference (g.shift s) (gs.map (.shift s)) = shiftStep s (r.readReference g gs) := by
  unfold readReference
  rw [chars_shift]
  rcases reference? (chars gs) with _ | ⟨value, n⟩
  · rfl
  · have stop : (((gs.map (Glyph.shift s))[n - 1]?).getD (g.shift s)).stop = ((gs[n - 1]?).getD g).stop.shift s := by
      rw [List.getElem?_map]
      cases gs[n - 1]? <;> rfl
    simp only [stop, ← List.map_drop]
    rfl

theorem readRun_shift (gfm : Bool) (r : Reading) (g : Glyph) (gs : List Glyph) :
    readRun gfm (r.shift s) (g.shift s) (gs.map (.shift s)) = shiftStep s (readRun gfm r g gs) := by
  unfold readRun
  simp only [Glyph.char_shift, run_shift, List.length_map, ← List.map_drop, Run.between_shift, List.head?_map,
    Option.map_map]
  rfl

theorem readAddress_shift (a : Option Address.Bare) (r : Reading) (g : Glyph) (gs : List Glyph) :
    readAddress (a.map (.shift s)) (r.shift s) (g.shift s) (gs.map (.shift s)) = shiftStep s (readAddress a r g gs) := by
  cases a <;> rfl

theorem next_shift (env : Surroundings) (r : Reading) (g : Glyph) (gs : List Glyph) :
    (r.shift s).next env (g.shift s) (gs.map (.shift s)) = shiftStep s (r.next env g gs) := by
  have second : (gs.map (Glyph.shift s)).head?.map (·.char) = gs.head?.map (·.char) := by
    rw [List.head?_map, Option.map_map]
    rfl
  have caret : (gs.map (Glyph.shift s))[1]?.any (·.char = '^') = gs[1]?.any (·.char = '^') := by
    rw [List.getElem?_map, Option.any_map]
    rfl
  have protocol : (if env.dialect.gfm then Address.withProtocol? r.previous ((g :: gs).map (.shift s)) else none) =
      (if env.dialect.gfm then Address.withProtocol? r.previous (g :: gs) else none).map (.shift s) := by
    rw [Address.withProtocol?_shift, apply_ite (Option.map _)]
    rfl
  have noProtocol :
      (if env.dialect.gfm then Address.withoutProtocol? r.previous ((g :: gs).map (.shift s)) else none) =
      (if env.dialect.gfm then Address.withoutProtocol? r.previous (g :: gs) else none).map (.shift s) := by
    rw [Address.withoutProtocol?_shift, apply_ite (Option.map _)]
    rfl
  have plain : (r.shift s).readPlain (g.shift s) (gs.map (.shift s)) = shiftStep s (r.readPlain g gs) := rfl
  have lineEnd : ((r.shift s).push (.replaced (g.shift s).text ⟨(g.shift s).start, (g.shift s).stop⟩),
        (dropSpaces gs).map (.shift s)) =
      shiftStep s (r.push (.replaced g.text ⟨g.start, g.stop⟩), dropSpaces gs) := by
    rw [Glyph.text_shift]
    rfl
  have previous : (r.shift s).previous = r.previous := rfl
  unfold next
  simp only [Glyph.char_shift, second, caret, dropSpaces_shift, readBlanks_shift, readEscape_shift, readReference_shift,
    readSpan_shift, readAngle_shift, closeBracket_shift, readRun_shift, plain, lineEnd, previous, ← List.map_cons,
    openBracket_shift, protocol, noProtocol, readAddress_shift, ← apply_ite (shiftStep s)]
  split <;> simp only

theorem readAll_shift (env : Surroundings) (n : Nat) (r : Reading) (gs : List Glyph) :
    readAll env n (r.shift s) (gs.map (.shift s)) = (readAll env n r gs).shift s := by
  induction n generalizing r gs with
  | zero => rfl
  | succ n ih =>
    cases gs with
    | nil => rfl
    | cons g gs =>
      have single : ((r.next env g gs).2.map (Glyph.shift s)).head?.map (·.start) =
          (gs.map (Glyph.shift s)).head?.map (·.start) ↔
            (r.next env g gs).2.head?.map (·.start) = gs.head?.map (·.start) := by
        cases (r.next env g gs).2 <;> cases gs <;> simp
      have taken := takenOf_shift s (g :: gs) (r.next env g gs).2
      have last (gs : List Glyph) : (gs.map (Glyph.shift s)).getLast?.getD (g.shift s) = (gs.getLast?.getD g).shift s := by
        rw [List.getLast?_map]
        cases gs.getLast? <;> rfl
      rw [List.map_cons] at taken ⊢
      rw [readAll, readAll, next_shift]
      simp only [shiftStep, single, taken, last, ← apply_ite (Glyph.shift s), Glyph.char_shift, ← ih]
      rfl

end Reading

theorem phrase_shift (env : Surroundings) (gs : List Glyph) :
    phrase env (gs.map (.shift s)) = (phrase env gs).map (.shift s) := by
  have read := Reading.readAll_shift s env gs.length {} gs
  unfold phrase
  rw [List.length_map, ← Piece.nodes_shift, ← Reading.toPieces_shift, ← read]
  rfl

end Folio.Markdown
