import Folio.Markdown.Tree

/-!
# The frontmatter of a dialect

Whether a dialect has blocks of data matters only for the first lines of a document: behind them, blocks and running
text are read as without (`blocksOf_frontmatter`, `blockNodes_frontmatter`).
-/

namespace Folio.Markdown

variable (d : Dialect) (b : Bool)

/-! ### Blocks -/

theorem containers_frontmatter (interrupts : Bool) (n : Nat) (gs : List Glyph) :
    containers { d with frontmatter := b } interrupts n gs = containers d interrupts n gs := by
  induction n generalizing gs with
  | zero => rfl
  | succ n ih =>
    unfold containers
    simp only [ih]
    rfl

theorem Page.step_frontmatter (p : Page) (line : Line) : p.step { d with frontmatter := b } line = p.step d line := by
  have opens (all : Bool) (gs : List Glyph) (p : Page) : p.opens { d with frontmatter := b } all gs = p.opens d all gs := by
    unfold opens
    rw [containers_frontmatter]
  unfold step
  simp only [opens]
  rfl

theorem blocksOf_frontmatter (ls : List Line) : blocksOf { d with frontmatter := b } ls = blocksOf d ls := by
  have step : Page.step { d with frontmatter := b } = Page.step d := by
    funext p line
    exact Page.step_frontmatter d b p line
  rw [blocksOf, step, blocksOf]

/-! ### Running text -/

theorem Piece.addRun_frontmatter (inLink : Bool) (n : Nat) (r : Run) (done : List Piece) :
    addRun { d with frontmatter := b } inLink n r done = addRun d inLink n r done := by
  induction n generalizing r done with
  | zero => rfl
  | succ n ih =>
    rw [addRun, addRun]
    simp only [ih]
    rfl

theorem Piece.nodes_frontmatter (inLink : Bool) (ps : List Piece) :
    nodes { d with frontmatter := b } inLink ps = nodes d inLink ps := by
  simp only [nodes, matchRuns, addRun_frontmatter]
  rfl

variable (env : Surroundings)

theorem Reading.next_frontmatter (r : Reading) (g : Glyph) (gs : List Glyph) :
    r.next { env with dialect := { env.dialect with frontmatter := b } } g gs = r.next env g gs := by
  have link (image : Bool) (ps : List Piece) (p : Option Position) (l : Linked) :
      linkNode { env with dialect := { env.dialect with frontmatter := b } } image ps p l = linkNode env image ps p l := by
    unfold linkNode
    rw [Piece.nodes_frontmatter]
  have close : r.closeBracket { env with dialect := { env.dialect with frontmatter := b } } g gs =
      r.closeBracket env g gs := by
    unfold closeBracket
    simp only [link]
    rfl
  unfold next
  rw [close]
  rfl

theorem phrase_frontmatter (gs : List Glyph) :
    phrase { env with dialect := { env.dialect with frontmatter := b } } gs = phrase env gs := by
  have all (n : Nat) (r : Reading) (gs : List Glyph) :
      Reading.readAll { env with dialect := { env.dialect with frontmatter := b } } n r gs = Reading.readAll env n r gs := by
    induction n generalizing r gs with
    | zero => rfl
    | succ n ih => cases gs <;> simp only [Reading.readAll, Reading.next_frontmatter, ih]
  unfold phrase
  rw [all, Piece.nodes_frontmatter]

/-! ### Trees -/

theorem rowNode_frontmatter (gs : List Glyph) :
    rowNode { env with dialect := { env.dialect with frontmatter := b } } gs = rowNode env gs := by
  have cell (gs : List Glyph) := phrase_frontmatter b { env with inTable := true } gs
  unfold rowNode
  simp only [cell]

mutual

theorem Block.toSibling_frontmatter (block : Block) :
    block.toSibling { env with dialect := { env.dialect with frontmatter := b } } = block.toSibling env := by
  cases block with
  | container kind p bs =>
    have inside := siblings_frontmatter bs
    cases kind <;> simp only [Block.toSibling, inside]
  | table align rows p =>
    have row : rowNode { env with dialect := { env.dialect with frontmatter := b } } = rowNode env :=
      funext (rowNode_frontmatter b env)
    rw [Block.toSibling, row, Block.toSibling]
  | _ => simp only [Block.toSibling, phrase_frontmatter]

theorem siblings_frontmatter (bs : List Block) :
    siblings { env with dialect := { env.dialect with frontmatter := b } } bs = siblings env bs := by
  cases bs with
  | nil => rfl
  | cons block bs => rw [siblings, Block.toSibling_frontmatter block, siblings_frontmatter bs, siblings]

end

theorem blockNodes_frontmatter (bs : List Block) : blockNodes { d with frontmatter := b } bs = blockNodes d bs := by
  have parts (bs : List Block) (definitions footnotes : List String) :=
    siblings_frontmatter b { dialect := d, definitions, footnotes } bs
  unfold blockNodes
  simp only [parts]

end Folio.Markdown
