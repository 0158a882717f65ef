import Folio.Markdown.Piece
import Folio.Proofs.Shift.Line

/-!
# Addresses and pieces under a shift

The pieces of a text that stands further down are the pieces of the text, shifted, and so are the nodes that they are
matched into (`Piece.nodes_shift`).
-/

namespace Folio.Markdown

variable (s : Shift)

/-! ### Nodes -/

mutual

def Node.shift : Node → Node
  | .leaf content p => .leaf content (p.map (.shift s))
  | .branch kind p cs => .branch kind (p.map (.shift s)) (shiftNodes cs)

def shiftNodes : List Node → List Node
  | [] => []
  | n :: ns => n.shift :: shiftNodes ns

end

theorem shiftNodes_eq_map (ns : List Node) : shiftNodes s ns = ns.map (.shift s) := by
  induction ns with
  | nil => rfl
  | cons n ns ih => rw [shiftNodes, ih, List.map_cons]

@[simp] theorem Node.shift_leaf (content : Leaf) (p : Option Position) :
    (leaf content p).shift s = .leaf content (p.map (.shift s)) := rfl

@[simp] theorem Node.shift_branch (kind : Branch) (p : Option Position) (cs : List Node) :
    (branch kind p cs).shift s = .branch kind (p.map (.shift s)) (cs.map (.shift s)) := by
  rw [Node.shift, shiftNodes_eq_map]

@[simp] theorem Node.position_shift (n : Node) : (n.shift s).position = n.position.map (.shift s) := by
  cases n <;> rfl

/-! ### Addresses -/

namespace Address

@[simp] theorem isTrail_shift (inReference : Option Bool) (gs : List Glyph) :
    isTrail inReference (gs.map (.shift s)) = isTrail inReference gs := by
  fun_induction isTrail inReference gs <;> rw [isTrail.eq_def] <;> simp_all [Option.all_map]

theorem domain_shift (st : DomainState) (gs : List Glyph) :
    domain st (gs.map (.shift s)) = (domain st gs).map (Part.shift s) := by
  induction gs generalizing st with
  | nil => simp [domain, apply_ite (Option.map _)]
  | cons g gs ih =>
    have more (st : DomainState) :
        (domain st (gs.map (.shift s))).map (fun d => (g.shift s :: d.1, d.2)) =
          ((domain st gs).map fun d => (g :: d.1, d.2)).map (Part.shift s) := by
      rw [ih]
      cases domain st gs <;> rfl
    have trail := isTrail_shift s none (g :: gs)
    rw [List.map_cons] at trail ⊢
    unfold domain
    simp only [Glyph.char_shift, trail, more, apply_ite (Option.map _)]
    rfl

theorem path_shift (opened closed : Nat) (gs : List Glyph) :
    path opened closed (gs.map (.shift s)) = Part.shift s (path opened closed gs) := by
  induction gs generalizing opened closed with
  | nil => rfl
  | cons g gs ih =>
    have trail := isTrail_shift s none (g :: gs)
    rw [List.map_cons] at trail ⊢
    unfold path
    simp only [Glyph.char_shift, trail, ih, apply_ite (Part.shift s)]
    rfl

def Bare.shift (b : Bare) : Bare := ⟨b.before, b.glyphs.map (.shift s), b.rest.map (.shift s)⟩

@[simp] theorem host?_shift (before : String) (start gs : List Glyph) :
    host? before (start.map (.shift s)) (gs.map (.shift s)) = (host? before start gs).map (.shift s) := by
  unfold host?
  rw [domain_shift]
  cases domain {} gs <;> simp [Bare.shift, Part.shift, path_shift]

@[simp] theorem withProtocol?_shift (previous : Option Char) (gs : List Glyph) :
    withProtocol? previous (gs.map (.shift s)) = (withProtocol? previous gs).map (.shift s) := by
  unfold withProtocol?
  simp only [takeWhile_char_shift, List.length_map, ← List.map_drop, ← List.map_take, chars_shift, ← List.map_append,
    host?_shift, apply_ite (Option.map _), List.map_map]
  rfl

@[simp] theorem withoutProtocol?_shift (previous : Option Char) (gs : List Glyph) :
    withoutProtocol? previous (gs.map (.shift s)) = (withoutProtocol? previous gs).map (.shift s) := by
  have host := host?_shift s "http://" [] gs
  unfold withoutProtocol?
  rw [List.map_nil] at host
  simp only [← List.map_take, List.map_map, List.length_map, host, apply_ite (Option.map _)]
  rfl

@[simp] theorem mailDomain_shift (slashes : Bool) (gs : List Glyph) :
    mailDomain slashes (gs.map (.shift s)) = Part.shift s (mailDomain slashes gs) := by
  induction gs with
  | nil => rfl
  | cons g gs ih =>
    rw [List.map_cons]
    unfold mailDomain
    simp only [Glyph.char_shift, ih, List.head?_map, Option.any_map, apply_ite (Part.shift s)]
    rfl

@[simp] theorem isMailDomain_shift (d : List Glyph) : isMailDomain (d.map (.shift s)) = isMailDomain d := by
  simp [isMailDomain, List.any_map, Option.any_map, Function.comp_def]

def MailPart.shift : MailPart → MailPart
  | other gs => other (gs.map (.shift s))
  | mail before gs => mail before (gs.map (.shift s))

/-- What is found around an at sign, shifted. -/
def shiftAround (r : String × List Glyph × List Glyph × List Glyph) :
    String × List Glyph × List Glyph × List Glyph :=
  (r.1, r.2.1.map (.shift s), r.2.2.1.map (.shift s), r.2.2.2.map (.shift s))

theorem mailAround?_shift (seen : List Glyph) (sign : Glyph) (gs : List Glyph) :
    mailAround? (seen.map (.shift s)) (sign.shift s) (gs.map (.shift s)) =
      (mailAround? seen sign gs).map (shiftAround s) := by
  have first (p : Char → Bool) (gs : List Glyph) :
      (gs.map (Glyph.shift s)).head?.any (fun g => p g.char) = gs.head?.any fun g => p g.char := by
    rw [List.head?_map, Option.any_map]
    rfl
  have lower (gs : List Glyph) :
      (gs.map (Glyph.shift s)).reverse.map (fun g => g.char.toLower) = gs.reverse.map fun g => g.char.toLower := by
    rw [← List.map_reverse, List.map_map]
    rfl
  unfold mailAround?
  simp only [takeWhile_char_shift, List.length_map, ← List.map_drop, List.isEmpty_map, lower, first (· = '/'),
    first (· = ':'), mailDomain_shift, Part.fst_shift, Part.snd_shift, isMailDomain_shift]
  rw [apply_ite (Option.map (shiftAround s)), apply_ite (Option.map (shiftAround s))]
  generalize seen.takeWhile _ = name
  generalize seen.drop name.length = front
  generalize (front.drop 1).takeWhile _ = scheme
  generalize String.ofList _ = schemeName
  generalize (front.head?.any (fun g => g.char = ':') && _) = named
  cases named <;> simp [shiftAround, ← List.map_take, ← List.map_reverse]

theorem mailParts_shift (n : Nat) (seen gs : List Glyph) :
    mailParts n (seen.map (.shift s)) (gs.map (.shift s)) = (mailParts n seen gs).map (.shift s) := by
  induction n generalizing seen gs with
  | zero => simp [mailParts, MailPart.shift]
  | succ n ih =>
    cases gs with
    | nil => simp [mailParts, MailPart.shift]
    | cons g gs =>
      have around : (if (g.shift s).char = '@' then mailAround? (seen.map (.shift s)) (g.shift s) (gs.map (.shift s))
          else none) = (if g.char = '@' then mailAround? seen g gs else none).map (shiftAround s) := by
        rw [mailAround?_shift, apply_ite (Option.map (shiftAround s))]
        rfl
      rw [List.map_cons, mailParts, mailParts, around]
      cases (if g.char = '@' then mailAround? seen g gs else none) with
      | none => exact ih (g :: seen) gs
      | some r =>
        obtain ⟨before, glyphs, front, rest⟩ := r
        simp [shiftAround, MailPart.shift, ← List.map_take, ← List.map_tail, ih]

theorem enclosed?_shift (gs : List Glyph) :
    enclosed? (gs.map (.shift s)) =
      (enclosed? gs).map fun r => (r.1, r.2.1.map (.shift s), r.2.2.1.shift s, r.2.2.2.map (.shift s)) := by
  have inside : (gs.map (Glyph.shift s)).takeWhile (·.char ≠ '>') = (gs.takeWhile (·.char ≠ '>')).map (.shift s) :=
    takeWhile_char_shift s (fun c => c ≠ '>') gs
  unfold enclosed?
  rw [inside]
  simp only [List.length_map, ← List.map_drop, chars_shift]
  cases gs.drop (gs.takeWhile (·.char ≠ '>')).length with
  | nil => rfl
  | cons g rest => simp only [List.map_cons, apply_ite (Option.map _)]; rfl

end Address

/-! ### Runs and pieces -/

namespace Run

def shift (r : Run) : Run := { r with glyphs := r.glyphs.map (.shift s) }

@[simp] theorem char_shift (r : Run) : (r.shift s).char = r.char := by
  unfold char shift
  rw [List.head?_map, Option.map_map]
  rfl

@[simp] theorem matches?_shift (opening closing : Run) :
    (opening.shift s).matches? (closing.shift s) = opening.matches? closing := by
  unfold matches?
  rw [char_shift, char_shift]
  simp [shift]

theorem between_shift (gfm : Bool) (previous next : Option Char) (gs : List Glyph) :
    between gfm previous next (gs.map (.shift s)) = (between gfm previous next gs).shift s := by
  have mark : (gs.map (Glyph.shift s)).head?.map (·.char) = gs.head?.map (·.char) := by
    rw [List.head?_map, Option.map_map]
    rfl
  unfold between
  rw [mark]
  simp only [apply_ite (shift s)]
  rfl

end Run

namespace Piece

def shift : Piece → Piece
  | plain gs => plain (gs.map (.shift s))
  | replaced value p => replaced value (p.shift s)
  | run r => run (r.shift s)
  | address before gs => address before (gs.map (.shift s))
  | node n => node (n.shift s)

theorem opener?_shift (closing : Run) (inside ps : List Piece) :
    opener? (closing.shift s) (inside.map (.shift s)) (ps.map (.shift s)) =
      (opener? closing inside ps).map fun r => (r.1.map (.shift s), r.2.1.shift s, r.2.2.map (.shift s)) := by
  induction ps generalizing inside with
  | nil => rfl
  | cons p ps ih =>
    have more := ih (p :: inside)
    cases p with
    | run r =>
      simp only [List.map_cons, shift, opener?, Run.matches?_shift] at more ⊢
      rw [more, apply_ite (Option.map _)]
      rfl
    | _ => exact more

theorem prependText_shift (value : String) (p : Position) (ns : List Node) :
    prependText value (p.shift s) (ns.map (.shift s)) = (prependText value p ns).map (.shift s) := by
  fun_cases prependText value p ns with
  | case1 more q rest => simp [prependText, Position.shift]
  | case2 ns h =>
    rw [prependText.eq_2]
    · simp
    · rcases ns with _ | ⟨⟨content, _ | q⟩ | _, ns⟩
      · simp
      · simp
      · intro more q' rest e
        cases content <;> simp at e
        exact h _ _ _ (by rw [e.1.1])
      · simp

theorem prependGlyphs_shift (gs : List Glyph) (ns : List Node) :
    prependGlyphs (gs.map (.shift s)) (ns.map (.shift s)) = (prependGlyphs gs ns).map (.shift s) := by
  unfold prependGlyphs
  rw [span_shift]
  cases span gs with
  | none => rfl
  | some p => simp [prependText_shift]

theorem addressNode_shift (before : String) (gs : List Glyph) :
    addressNode before (gs.map (.shift s)) = (addressNode before gs).shift s := by
  simp [addressNode]

theorem prependPlain_shift (gs : List Glyph) (ps : List Piece) :
    prependPlain (gs.map (.shift s)) (ps.map (.shift s)) = (prependPlain gs ps).map (.shift s) := by
  rcases ps with _ | ⟨p, ps⟩
  · rfl
  · cases p <;> simp [prependPlain, shift]

theorem join_shift (wantsLinks : Bool) (ps : List Piece) :
    join wantsLinks (ps.map (.shift s)) = (join wantsLinks ps).map (.shift s) := by
  induction ps with
  | nil => rfl
  | cons p ps ih =>
    cases p with
    | address before gs =>
      simp only [List.map_cons, shift, join, ih, prependPlain_shift, apply_ite (List.map (shift s))]
    | plain gs => simp only [List.map_cons, shift, join, ih, prependPlain_shift]
    | run r => exact (congrArg _ ih).trans (prependPlain_shift s r.glyphs _)
    | _ => simp only [List.map_cons, shift, join, ih]

/-- The nodes of a part of a text in front of others. -/
def prependMail (part : Address.MailPart) (ns : List Node) : List Node :=
  match part with
  | .other gs => prependGlyphs gs ns
  | .mail before gs => addressNode before gs :: ns

theorem foldr_prependMail_shift (parts : List Address.MailPart) (ns : List Node) :
    (parts.map (.shift s)).foldr prependMail (ns.map (.shift s)) = (parts.foldr prependMail ns).map (.shift s) := by
  induction parts with
  | nil => rfl
  | cons part parts ih =>
    rw [List.map_cons, List.foldr_cons, List.foldr_cons, ih]
    cases part with
    | other gs => exact prependGlyphs_shift s gs _
    | mail before gs => exact congrArg (· :: _) (addressNode_shift s before gs)

theorem toNodes_plain (wantsMail : Bool) (gs : List Glyph) (ps : List Piece) :
    toNodes wantsMail (plain gs :: ps) =
      if wantsMail then (Address.mailParts (gs.length + 1) [] gs).foldr prependMail (toNodes wantsMail ps)
      else prependGlyphs gs (toNodes wantsMail ps) := by
  rw [toNodes]
  congr
  funext part ns
  cases part <;> rfl

theorem toNodes_shift (wantsMail : Bool) (ps : List Piece) :
    toNodes wantsMail (ps.map (.shift s)) = (toNodes wantsMail ps).map (.shift s) := by
  induction ps with
  | nil => rfl
  | cons p ps ih =>
    cases p with
    | plain gs =>
      have mail := foldr_prependMail_shift s (Address.mailParts (gs.length + 1) [] gs) (toNodes wantsMail ps)
      rw [← Address.mailParts_shift, ← ih] at mail
      rw [List.map_cons, shift, toNodes_plain, toNodes_plain, List.length_map, apply_ite (List.map (Node.shift s)),
        ← prependGlyphs_shift, ← ih, ← mail]
      rfl
    | replaced value p => simp only [List.map_cons, shift, toNodes, ih, prependText_shift]
    | run r => exact (congrArg _ ih).trans (prependGlyphs_shift s r.glyphs _)
    | address before gs => simp only [List.map_cons, shift, toNodes, ih, addressNode_shift]
    | node n => simp only [List.map_cons, shift, toNodes, ih]

theorem settle_shift (d : Dialect) (inLink : Bool) (ps : List Piece) :
    settle d inLink (ps.map (.shift s)) = (settle d inLink ps).map (.shift s) := by
  rw [settle, join_shift, toNodes_shift, settle]

theorem addRun_shift (d : Dialect) (inLink : Bool) (n : Nat) (r : Run) (ps : List Piece) :
    addRun d inLink n (r.shift s) (ps.map (.shift s)) = (addRun d inLink n r ps).map (.shift s) := by
  induction n generalizing r ps with
  | zero => rfl
  | succ n ih =>
    have opener : (if (r.shift s).closes then opener? (r.shift s) [] (ps.map (.shift s)) else none) =
        (if r.closes then opener? r [] ps else none).map
          fun r => (r.1.map (.shift s), r.2.1.shift s, r.2.2.map (.shift s)) := by
      rw [apply_ite (Option.map _), ← opener?_shift]
      rfl
    rw [addRun, addRun, opener]
    rcases (if r.closes then opener? r [] ps else none) with _ | ⟨inside, opening, older⟩
    · rfl
    · have mark : (r.shift s).char = r.char := Run.char_shift s r
      simp only [Option.map_some, mark]
      simp only [Run.shift, List.length_map, ← List.map_take, ← List.map_drop, ← List.map_append, span_shift,
        settle_shift, List.isEmpty_map]
      generalize (if 1 < opening.glyphs.length && 1 < r.glyphs.length then 2 else 1) = taken
      generalize opening.glyphs.take (opening.glyphs.length - taken) = kept
      generalize span _ = position
      have done : (node (.branch (emphasisKind r.char taken) (position.map (.shift s))
          ((settle d inLink inside).map (.shift s))) ::
            if kept.isEmpty then older.map (shift s)
            else run ⟨kept.map (.shift s), opening.opens, opening.closes⟩ :: older.map (shift s)) =
          (node (.branch (emphasisKind r.char taken) position (settle d inLink inside)) ::
            if kept.isEmpty then older else run { opening with glyphs := kept } :: older).map (shift s) := by
        rw [← Node.shift_branch, List.map_cons, apply_ite (List.map (shift s)), List.map_cons]
        rfl
      rw [done, apply_ite (List.map (shift s)), ← ih]
      rfl

/-- Adds a piece to pieces newest first. -/
def addPiece (d : Dialect) (inLink : Bool) (done : List Piece) : Piece → List Piece
  | run r => addRun d inLink r.glyphs.length r done
  | p => p :: done

theorem matchRuns_eq (d : Dialect) (inLink : Bool) (ps : List Piece) :
    matchRuns d inLink ps = (ps.foldl (addPiece d inLink) []).reverse := by
  unfold matchRuns
  congr

theorem matchRuns_shift (d : Dialect) (inLink : Bool) (ps : List Piece) :
    matchRuns d inLink (ps.map (.shift s)) = (matchRuns d inLink ps).map (.shift s) := by
  have step (done : List Piece) (p : Piece) : addPiece d inLink (done.map (.shift s)) (p.shift s) =
      (addPiece d inLink done p).map (.shift s) := by
    cases p with
    | run r =>
      change addRun d inLink (r.glyphs.map (Glyph.shift s)).length (r.shift s) (done.map (.shift s)) = _
      rw [List.length_map, addRun_shift]
      rfl
    | _ => rfl
  have fold (done : List Piece) : (ps.map (.shift s)).foldl (addPiece d inLink) (done.map (.shift s)) =
      (ps.foldl (addPiece d inLink) done).map (.shift s) := by
    induction ps generalizing done with
    | nil => rfl
    | cons p ps ih => rw [List.map_cons, List.foldl_cons, step, ih, List.foldl_cons]
  rw [matchRuns_eq, matchRuns_eq, List.map_reverse, ← fold]
  rfl

theorem nodes_shift (d : Dialect) (inLink : Bool) (ps : List Piece) :
    nodes d inLink (ps.map (.shift s)) = (nodes d inLink ps).map (.shift s) := by
  rw [nodes, matchRuns_shift, settle_shift, nodes]

end Piece

end Folio.Markdown
