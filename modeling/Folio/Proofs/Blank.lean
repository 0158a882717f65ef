import Folio.Proofs.Flow

/-!
# Blank lines in front of a document

Empty lines in front leave nothing but blank blocks (`blocksOf_empty_append`), and these leave no node
(`blockNodes_blank_append`). The steps of reading a page do not look at the oldest blocks of the document, so they may
be put below a page before a step or after it.
-/

namespace Folio.Markdown

/-! ### Blocks below a page -/

/-- Puts blocks below those of the outermost container, and moves its start. -/
def framesAtop (bs : List Block) (a : Point) : List Frame → List Frame
  | [] => []
  | [f] => [⟨f.kind, a, f.blocks ++ bs⟩]
  | f :: g :: fs => f :: framesAtop bs a (g :: fs)

variable (bs : List Block) (a : Point)

theorem length_framesAtop (fs : List Frame) : (framesAtop bs a fs).length = fs.length := by
  fun_induction framesAtop bs a fs <;> simp_all

theorem map_kind_framesAtop (fs : List Frame) : (framesAtop bs a fs).map (·.kind) = fs.map (·.kind) := by
  fun_induction framesAtop bs a fs <;> simp_all

theorem map_filled_framesAtop (fs : List Frame) :
    (framesAtop bs a fs).map Frame.filled = framesAtop bs a (fs.map Frame.filled) := by
  fun_induction framesAtop bs a fs <;> simp_all [framesAtop, Frame.filled]

theorem framesAtop_append (fs : List Frame) {gs : List Frame} (h : gs ≠ []) :
    framesAtop bs a (fs ++ gs) = fs ++ framesAtop bs a gs := by
  obtain ⟨g, gs, rfl⟩ := List.exists_cons_of_ne_nil h
  induction fs with
  | nil => rfl
  | cons f fs ih =>
    rw [List.cons_append, List.cons_append, ← ih]
    cases fs <;> rfl

theorem closeFrames_framesAtop (stop : Point) (n : Nat) (fs : List Frame) :
    closeFrames stop n (framesAtop bs a fs) = framesAtop bs a (closeFrames stop n fs) := by
  induction n generalizing fs with
  | zero => rfl
  | succ n ih =>
    rcases fs with _ | ⟨f, _ | ⟨g, fs⟩⟩
    · rfl
    · rfl
    · rw [closeFrames, ← ih]
      cases fs <;> rfl

theorem length_closeFrames (stop : Point) (n : Nat) (fs : List Frame) (h : n < fs.length) :
    (closeFrames stop n fs).length = fs.length - n := by
  induction n generalizing fs with
  | zero => rfl
  | succ n ih =>
    rcases fs with _ | ⟨f, _ | ⟨g, fs⟩⟩
    · simp at h
    · simp at h
    · simp only [closeFrames, List.length_cons] at h ⊢
      rw [ih _ (by simpa using h)]
      simp only [List.length_cons]
      omega

namespace Page

def atop (p : Page) : Page := { p with frames := framesAtop bs a p.frames }

variable {p : Page}

theorem add_atop (bs' : List Block) (p : Page) : (p.atop bs a).add bs' = (p.add bs').atop bs a := by
  obtain ⟨_ | ⟨f, _ | ⟨g, fs⟩⟩, _⟩ := p <;> simp [atop, add, framesAtop]

theorem finish_atop (atEnd : Bool) (p : Page) : (p.atop bs a).finish atEnd = (p.finish atEnd).atop bs a := by
  unfold finish
  dsimp only
  rw [add_atop]
  rfl

theorem place_atop (p : Page) : (p.atop bs a).place = p.place.atop bs a := by
  unfold place
  rw [add_atop, show (p.atop bs a).blank = p.blank from rfl]
  cases p.blank <;> rfl

theorem keepBlank_atop (p : Page) : (p.atop bs a).keepBlank = p.keepBlank.atop bs a := by
  obtain ⟨frames, current, interrupts, mayFollow, blank, stop⟩ := p
  rcases frames with _ | ⟨⟨kind, start, blocks⟩, _ | ⟨g, fs⟩⟩
  · rfl
  · cases kind <;> cases blank <;> rfl
  · cases kind <;> cases blank <;> rfl

theorem closeTo_atop (n : Nat) (p : Page) : (p.atop bs a).closeTo n = (p.closeTo n).atop bs a := by
  simp [closeTo, atop, closeFrames_framesAtop, length_framesAtop]

theorem enter_atop (fs : List Frame) (h : p.IsFlow) : (p.atop bs a).enter fs = (p.enter fs).atop bs a := by
  simp [enter, atop, framesAtop_append bs a fs.reverse h.rooted]

theorem start_atop (kind : LineKind) (line : Line) (p : Page) :
    (p.atop bs a).start kind line = (p.start kind line).atop bs a := by
  cases kind with
  | heading depth content => exact add_atop bs a _ p
  | topicBreak => exact add_atop bs a _ p
  | html kind =>
    have finish := finish_atop bs a false { p with current := .html kind [line] }
    unfold start
    dsimp only
    split
    · exact finish
    · rfl
  | _ => rfl

theorem underline_atop (depth : Nat) (lines : List Line) (line : Line) (p : Page) :
    (p.atop bs a).underline depth lines line = (p.underline depth lines line).atop bs a := by
  unfold underline
  dsimp only
  rw [add_atop]
  cases span (splitParagraph lines.reverse).2 with
  | none => rfl
  | some position =>
    dsimp only
    rw [add_atop]
    rfl

theorem proceed_atop (kind : LineKind) (line : Line) (p : Page) :
    (p.atop bs a).proceed kind line = (p.proceed kind line).atop bs a := by
  have other : (((p.atop bs a).finish false).place).start kind line =
      (((p.finish false).place).start kind line).atop bs a := by
    rw [finish_atop, place_atop, start_atop]
  obtain ⟨frames, current, interrupts, mayFollow, blank, stop⟩ := p
  cases kind with
  | more =>
    cases current with
    | fenced f opening ls => rfl
    | html kind ls =>
      have finish := finish_atop bs a false ⟨frames, .html kind (line :: ls), interrupts, mayFollow, blank, stop⟩
      unfold proceed
      dsimp only [atop]
      split
      · exact finish
      · rfl
    | _ => exact other
  | closing =>
    cases current with
    | fenced f opening ls =>
      exact congrArg (fun q : Page => { q with current := .nothing })
        (add_atop bs a _ ⟨frames, .fenced f opening ls, interrupts, mayFollow, blank, stop⟩)
    | _ => exact other
  | underline depth =>
    cases current with
    | paragraph ls => exact underline_atop bs a depth ls line _
    | _ => exact other
  | tableStart align =>
    cases current with
    | paragraph ls =>
      cases ls with
      | nil => exact other
      | cons head ls =>
        exact congrArg (fun q : Page => { q with current := .table align line [head] })
          (finish_atop bs a false ⟨frames, .paragraph ls, interrupts, mayFollow, blank, stop⟩)
    | _ => exact other
  | _ => cases current <;> first | exact other | rfl

/-! ### Steps -/

theorem settle_atop (d : Dialect) (kept : Nat) (opened : List Frame) (line : Line) (h : p.IsFlow) :
    (p.atop bs a).settle d kept opened line = (p.settle d kept opened line).atop bs a := by
  have count : (p.atop bs a).frames.length = p.frames.length := length_framesAtop bs a p.frames
  have leave : (((p.atop bs a).finish false).keepBlank.closeTo kept).place =
      ((p.finish false).keepBlank.closeTo kept).place.atop bs a := by
    rw [finish_atop, keepBlank_atop, closeTo_atop, place_atop]
  have current : (p.atop bs a).current = p.current := rfl
  have interrupts : (p.atop bs a).interrupts = p.interrupts := rfl
  have mayFollow : (p.atop bs a).mayFollow = p.mayFollow := rfl
  unfold settle
  dsimp only
  simp only [count, current, interrupts, mayFollow, leave, enter_atop bs a opened (isFlow_leave kept h), start_atop,
    proceed_atop]
  split
  · rfl
  · split <;> rfl

theorem step_atop (d : Dialect) (line : Line) (h : p.IsFlow) :
    (p.atop bs a).step d line = (p.step d line).atop bs a := by
  have kinds : (p.atop bs a).frames.reverse.map (·.kind) = p.frames.reverse.map (·.kind) := by
    rw [List.map_reverse, List.map_reverse]
    exact congrArg _ (map_kind_framesAtop bs a p.frames)
  have count : ((p.atop bs a).frames.map Frame.filled).length = (p.frames.map Frame.filled).length := by
    rw [List.length_map, List.length_map]
    exact length_framesAtop bs a p.frames
  have filled : { p.atop bs a with frames := (p.atop bs a).frames.map Frame.filled } =
      ({ p with frames := p.frames.map Frame.filled } : Page).atop bs a :=
    congrArg (fun fs => { p with frames := fs }) (map_filled_framesAtop bs a p.frames)
  unfold step
  rw [kinds]
  dsimp only
  rw [count, filled]
  exact settle_atop bs a d _ _ _ (isFlow_filled h)

theorem foldl_step_atop (d : Dialect) (ls : List Line) (h : p.IsFlow) :
    ls.foldl (Page.step d) (p.atop bs a) = (ls.foldl (Page.step d) p).atop bs a := by
  induction ls generalizing p with
  | nil => rfl
  | cons l ls ih => rw [List.foldl_cons, step_atop bs a d l h, ih (isFlow_step d l h), List.foldl_cons]

theorem done_atop (h : p.IsFlow) : (p.atop bs a).done = bs.reverse ++ p.done := by
  unfold done
  rw [finish_atop, closeTo_atop]
  have finished := isFlow_finish true h
  have single : ((p.finish true).closeTo 1).frames.length = 1 := by
    have := List.length_pos_iff.2 finished.rooted
    unfold closeTo
    dsimp only
    rw [length_closeFrames _ _ _ (by omega)]
    omega
  generalize (p.finish true).closeTo 1 = q at single
  obtain ⟨_ | ⟨f, _ | ⟨g, fs⟩⟩, _⟩ := q
  · simp at single
  · simp [atop, framesAtop]
  · simp at single

/-! ### Empty lines -/

/-- A page that waits for its first line, with blocks below it. -/
def idle (blank : Bool) (stop : Point) : Page :=
  { frames := [⟨.document, a, bs⟩], blank, stop }

theorem add_stop (bs : List Block) (p : Page) (stop : Point) :
    ({ p with stop } : Page).add bs = { p.add bs with stop } := by
  obtain ⟨_ | ⟨f, fs⟩, _⟩ := p <;> rfl

theorem start_stop (kind : LineKind) (line : Line) (p : Page) (stop : Point) :
    ({ p with stop } : Page).start kind line = { p.start kind line with stop } := by
  cases kind with
  | heading depth content => exact add_stop _ p stop
  | topicBreak => exact add_stop _ p stop
  | html kind =>
    unfold start
    dsimp only
    split
    · exact congrArg (fun q : Page => { q with current := .nothing, blank := q.blank || false })
        (add_stop _ { p with current := .html kind [line] } stop)
    · rfl
  | _ => rfl

theorem settle_idle (d : Dialect) (opened : List Frame) (line : Line) (blank : Bool) (stop stop' : Point) :
    (idle bs a blank stop).settle d 1 opened line =
      ((startingAt stop').settle d 1 opened line).atop (if blank then .blank :: bs else bs) a := by
  have leave : (((idle bs a blank stop).finish false).keepBlank.closeTo 1).place =
      idle (if blank then .blank :: bs else bs) a false stop := by
    cases blank <;> rfl
  have proceed (kind : LineKind) : (idle bs a blank stop).proceed kind line =
      (idle (if blank then .blank :: bs else bs) a false stop).start kind line := by
    cases kind <;> cases blank <;> rfl
  have proceed' (kind : LineKind) : (startingAt stop').proceed kind line = (startingAt stop').start kind line := by
    cases kind <;> rfl
  generalize (if blank then Block.blank :: bs else bs) = below at leave proceed ⊢
  have entered : (idle below a false stop).enter opened = { ((startingAt stop').enter opened).atop below a with stop } := by
    have frames := framesAtop_append below a opened.reverse (List.cons_ne_nil ⟨.document, stop', []⟩ [])
    simp only [enter, idle, startingAt, atop, frames]
    rfl
  have start (kind : LineKind) (q : Page) : ({ q.atop below a with stop } : Page).start kind line =
      { (q.start kind line).atop below a with stop } := by
    rw [start_stop, start_atop]
  have leave' : (((startingAt stop').finish false).keepBlank.closeTo 1).place = startingAt stop' := rfl
  unfold settle
  rw [leave, entered, leave']
  cases opened with
  | nil =>
    have base : idle below a false stop = { (startingAt stop').atop below a with stop } := rfl
    have all : (1 = (idle bs a blank stop).frames.length) = True := eq_true rfl
    have all' : (1 = (startingAt stop').frames.length) = True := eq_true rfl
    simp only [proceed, proceed', base, start, all, all', List.isEmpty_nil, decide_true, Bool.not_true, Bool.false_and,
      Bool.false_eq_true, if_false]
    rfl
  | cons f fs =>
    simp only [start]
    rfl

theorem step_idle (d : Dialect) (line : Line) (blank : Bool) (stop stop' : Point) :
    (idle bs a blank stop).step d line =
      ((startingAt stop').step d line).atop (if blank then .blank :: bs else bs) a :=
  settle_idle bs a d _ _ blank stop stop'

/-- An empty line leaves the page waiting for its first line. -/
theorem step_idle_empty (d : Dialect) {line : Line} (h : line.glyphs = []) (blank : Bool) (stop : Point) :
    (idle bs a blank stop).step d line = idle (if blank then .blank :: bs else bs) a true line.stop := by
  obtain ⟨gs, ending, stop'⟩ := line
  obtain rfl : gs = [] := h
  cases blank <;> rfl

theorem done_foldl_idle (d : Dialect) (ls : List Line) (n : Nat) (blank : Bool) (stop : Point) :
    ∃ k, (ls.foldl (Page.step d) (idle (List.replicate n .blank) a blank stop)).done =
      List.replicate k .blank ++ blocksOf d ls := by
  cases ls with
  | nil =>
    refine ⟨n, ?_⟩
    change (List.replicate n Block.blank).reverse = List.replicate n Block.blank ++ []
    rw [List.reverse_replicate, List.append_nil]
  | cons l ls =>
    have first := isFlow_step d l (isFlow_startingAt (linesSpan (l :: ls) none).start)
    rw [List.foldl_cons, step_idle _ _ _ _ _ _ (linesSpan (l :: ls) none).start, foldl_step_atop _ _ d ls first,
      done_atop _ _ (isFlow_foldl_step d ls first)]
    cases blank with
    | false => exact ⟨n, congrArg (· ++ _) List.reverse_replicate⟩
    | true => exact ⟨n + 1, congrArg (· ++ _) (List.reverse_replicate (n := n + 1))⟩

theorem done_foldl_empty (d : Dialect) {es : List Line} (hes : ∀ l ∈ es, l.glyphs = []) (ls : List Line) (n : Nat)
    (blank : Bool) (stop : Point) :
    ∃ k, ((es ++ ls).foldl (Page.step d) (idle (List.replicate n .blank) a blank stop)).done =
      List.replicate k .blank ++ blocksOf d ls := by
  induction es generalizing n blank stop with
  | nil => exact done_foldl_idle a d ls n blank stop
  | cons e es ih =>
    obtain ⟨he, hes⟩ := List.forall_mem_cons.1 hes
    rw [List.cons_append, List.foldl_cons, step_idle_empty _ _ d he]
    cases blank with
    | false => exact ih hes n true e.stop
    | true => exact ih hes (n + 1) true e.stop

end Page

theorem blocksOf_empty_append (d : Dialect) {es : List Line} (hes : ∀ l ∈ es, l.glyphs = []) (ls : List Line) :
    ∃ k, blocksOf d (es ++ ls) = List.replicate k .blank ++ blocksOf d ls :=
  Page.done_foldl_empty _ d hes ls 0 false _

/-! ### Nodes -/

theorem blockNodes_blank_append (d : Dialect) (n : Nat) (bs : List Block) :
    blockNodes d (List.replicate n .blank ++ bs) = blockNodes d bs := by
  have one (bs : List Block) : blockNodes d (.blank :: bs) = blockNodes d bs := by
    unfold blockNodes
    cases d.gfm <;> rfl
  induction n with
  | zero => rfl
  | succ n ih => rw [List.replicate_succ, List.cons_append, one, ih]

end Folio.Markdown
