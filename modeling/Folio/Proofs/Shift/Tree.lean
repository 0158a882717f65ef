import Folio.Markdown.Tree
import Folio.Proofs.Shift.Page
import Folio.Proofs.Shift.Phrase

/-!
# Trees under a shift

The nodes of blocks that stand further down are the nodes of the blocks, shifted (`blockNodes_shift`).
-/

namespace Folio.Markdown

variable (s : Shift)

/-! ### Lists -/

namespace Sibling

def shift : Sibling → Sibling
  | blank => blank
  | node n => node (n.shift s)
  | item mark bare n => item mark bare (n.shift s)

theorem takeItems_shift (mark : Char) (blanks : List Sibling) (afterBare : Bool) (xs : List Sibling) :
    takeItems mark (blanks.map (.shift s)) afterBare (xs.map (.shift s)) =
      ((takeItems mark blanks afterBare xs).1.map (.shift s), (takeItems mark blanks afterBare xs).2.1,
        (takeItems mark blanks afterBare xs).2.2.map (.shift s)) := by
  induction xs generalizing blanks afterBare with
  | nil => rfl
  | cons x xs ih =>
    cases x with
    | blank => exact ih (blank :: blanks) afterBare
    | node n => simp [takeItems, shift]
    | item m bare n =>
      have more := ih [] bare
      rw [List.map_nil] at more
      simp only [List.map_cons, shift, takeItems, more, List.length_map]
      split
      · rfl
      · simp [shift]

theorem group_shift (n : Nat) (xs : List Sibling) :
    group n (xs.map (.shift s)) = (group n xs).map (.map (.shift s)) := by
  induction n generalizing xs with
  | zero => rfl
  | succ n ih =>
    cases xs with
    | nil => rfl
    | cons x xs =>
      cases x with
      | blank => exact congrArg (none :: ·) (ih xs)
      | node m => exact congrArg (some (m.shift s) :: ·) (ih xs)
      | item mark bare m =>
        have items := takeItems_shift s mark.mark [] bare xs
        rw [List.map_nil] at items
        have stop (ms : List Node) : ((m.shift s :: ms.map (Node.shift s)).getLast?.bind Node.position) =
            ((m :: ms).getLast?.bind Node.position).map (.shift s) := by
          rw [← List.map_cons, List.getLast?_map]
          cases (m :: ms).getLast? <;> simp
        simp only [List.map_cons, shift, group, items, ih, stop, Node.position_shift]
        cases m.position <;> cases (m :: (takeItems mark.mark [] bare xs).1).getLast?.bind Node.position <;>
          simp [Position.shift]

end Sibling

/-! ### Tasks -/

theorem taskBox?_shift (gs : List Glyph) :
    taskBox? (gs.map (.shift s)) = (taskBox? gs).map fun r => (r.1, r.2.map (.shift s)) := by
  rcases gs with _ | ⟨a, _ | ⟨b, _ | ⟨c, _ | ⟨d, rest⟩⟩⟩⟩ <;> try rfl
  simp only [taskBox?, List.map_cons, Glyph.char_shift, Glyph.isEol_shift, Glyph.isSpace_shift, dropSpaces_shift,
    isBlankLine_shift, apply_ite (Option.map _)]
  rfl

theorem takeBox?_shift (bs : List Block) :
    takeBox? (bs.map (.shift s)) = (takeBox? bs).map fun r => (r.1, r.2.map (.shift s)) := by
  induction bs with
  | nil => rfl
  | cons b bs ih =>
    cases b with
    | blank =>
      simp only [List.map_cons, Block.shift, takeBox?, ih, Option.map_map]
      rfl
    | leaf content p =>
      cases content with
      | definition u t i l =>
        simp only [List.map_cons, Block.shift, takeBox?, ih, Option.map_map]
        rfl
      | _ => rfl
    | paragraph gs p =>
      have first : (gs.map (Glyph.shift s)).head?.any (fun g => g.start = (p.shift s).start) =
          gs.head?.any fun g => g.start = p.start := by
        cases gs <;> simp [Position.shift]
      have paragraph (rest : List Glyph) :
          (Block.paragraph rest ((span rest).getD p)).shift s =
            .paragraph (rest.map (.shift s)) ((span (rest.map (.shift s))).getD (p.shift s)) := by
        rw [span_shift]
        cases span rest <;> rfl
      simp only [List.map_cons, Block.shift, takeBox?, first, taskBox?_shift, apply_ite (Option.map _), Option.map_map,
        Function.comp_def, ← paragraph]
      rfl
    | _ => rfl

mutual

theorem Block.withTasks_shift (b : Block) : (b.shift s).withTasks = b.withTasks.shift s := by
  cases b with
  | container kind p bs =>
    have inside := withTasks_shift bs
    cases kind with
    | item mark =>
      simp only [Block.shift, Container.shift, Block.withTasks, inside]
      rw [shiftBlocks_eq_map, takeBox?_shift]
      rcases takeBox? (withTasks bs) with _ | ⟨checked, bs'⟩
      · simp [Block.shift, Container.shift, shiftBlocks_eq_map]
      · simp [Block.shift, Container.shift, shiftBlocks_eq_map]
    | _ => simp only [Block.shift, Container.shift, Block.withTasks, inside]
  | _ => simp only [Block.shift, Block.withTasks]

theorem withTasks_shift (bs : List Block) : withTasks (shiftBlocks s bs) = shiftBlocks s (withTasks bs) := by
  cases bs with
  | nil => rfl
  | cons b bs => rw [shiftBlocks, withTasks, Block.withTasks_shift b, withTasks_shift bs, withTasks, shiftBlocks]

end

theorem endsInEmptyQuoteLine_shift (bs : List Block) :
    endsInEmptyQuoteLine (shiftBlocks s bs) = endsInEmptyQuoteLine bs := by
  have last (bs : List Block) : (shiftBlocks s bs).getLast? = bs.getLast?.map (.shift s) := by
    rw [shiftBlocks_eq_map, List.getLast?_map]
  unfold endsInEmptyQuoteLine
  rw [last]
  rcases bs.getLast? with _ | b
  · rfl
  · cases b with
    | container kind p inside =>
      cases kind with
      | quote =>
        simp only [Option.map_some, Block.shift, Container.shift, last]
        rcases inside.getLast? with _ | b
        · rfl
        · cases b <;> rfl
      | _ => rfl
    | _ => rfl

/-! ### Nodes of blocks -/

theorem rowNode_shift (env : Surroundings) (gs : List Glyph) :
    rowNode env (gs.map (.shift s)) = (rowNode env gs).shift s := by
  simp [rowNode, phrase_shift]

mutual

theorem Block.identifiers_shift (b : Block) : (b.shift s).identifiers = b.identifiers := by
  cases b with
  | container kind p bs =>
    have inside := blockIdentifiers_shift bs
    cases kind <;> simp only [Block.shift, Container.shift, Block.identifiers, inside, sourceChars_shift]
  | leaf content p => cases content <;> rfl
  | _ => rfl

theorem blockIdentifiers_shift (bs : List Block) : blockIdentifiers (shiftBlocks s bs) = blockIdentifiers bs := by
  cases bs with
  | nil => rfl
  | cons b bs =>
    rw [shiftBlocks, blockIdentifiers, Block.identifiers_shift b, blockIdentifiers_shift bs, blockIdentifiers]

end

theorem filterMap_id_shift (ns : List (Option Node)) :
    (ns.map (Option.map (Node.shift s))).filterMap id = (ns.filterMap id).map (.shift s) := by
  rw [List.filterMap_map, List.map_filterMap]
  rfl

mutual

theorem Block.toSibling_shift (env : Surroundings) (b : Block) : (b.shift s).toSibling env = (b.toSibling env).shift s := by
  cases b with
  | container kind p bs =>
    have inside := siblings_shift env bs
    cases kind with
    | item mark =>
      simp only [Block.shift, Container.shift, Block.toSibling, inside, List.length_map, Sibling.group_shift,
        filterMap_id_shift, endsInEmptyQuoteLine_shift, List.isEmpty_map, Sibling.shift, Node.shift_branch]
      have spread (ns : List (Option Node)) :
          ((match ns.map (Option.map (Node.shift s)) with
            | none :: rest => rest
            | rest => rest).any Option.isNone) =
          ((match ns with
            | none :: rest => rest
            | rest => rest).any Option.isNone) := by
        rcases ns with _ | ⟨_ | n, ns⟩ <;> simp [Function.comp_def]
      exact congrArg (fun x => Sibling.item mark _ (.branch (.listItem x mark.checked) _ _)) (spread _)
    | _ =>
      simp only [Block.shift, Container.shift, Block.toSibling, inside, List.length_map, Sibling.group_shift,
        filterMap_id_shift, sourceChars_shift, Sibling.shift, Node.shift_branch]
      rfl
  | paragraph gs p => simp [Block.shift, Block.toSibling, Sibling.shift, phrase_shift]
  | heading depth gs p => simp [Block.shift, Block.toSibling, Sibling.shift, phrase_shift]
  | table align rows p => simp [Block.shift, Block.toSibling, Sibling.shift, rowNode_shift]
  | _ => rfl

theorem siblings_shift (env : Surroundings) (bs : List Block) :
    siblings env (shiftBlocks s bs) = (siblings env bs).map (.shift s) := by
  cases bs with
  | nil => rfl
  | cons b bs => rw [shiftBlocks, siblings, Block.toSibling_shift env b, siblings_shift env bs, siblings, List.map_cons]

end

theorem blockNodes_shift (d : Dialect) (bs : List Block) :
    blockNodes d (bs.map (.shift s)) = (blockNodes d bs).map (.shift s) := by
  have tasks : (if d.gfm then withTasks (shiftBlocks s bs) else shiftBlocks s bs) =
      shiftBlocks s (if d.gfm then withTasks bs else bs) := by
    rw [withTasks_shift, apply_ite (shiftBlocks s)]
  rw [← shiftBlocks_eq_map]
  unfold blockNodes
  simp only [tasks, blockIdentifiers_shift, siblings_shift, List.length_map, Sibling.group_shift, filterMap_id_shift]

end Folio.Markdown
