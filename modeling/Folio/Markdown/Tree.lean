import Folio.Markdown.Page
import Folio.Markdown.Phrase

/-!
# The tree of a document

The blocks of a document become nodes, and their text is read. Items that follow each other and share a mark are a
list; blank lines between them make the list loose, blank lines within an item make the item loose.
-/

namespace Folio.Markdown

open Folio.Text

/-- What a block becomes before lists are formed. An item knows whether it is without content or ends in an empty
line of a quote. -/
inductive Sibling where
  | blank
  | node (node : Node)
  | item (mark : ItemMark) (bare : Bool) (node : Node)

namespace Sibling

/-- Splits off the items that go on with a list: the items, whether blank lines separate them, and what follows.
The blank line of a bare item is no separation. -/
def takeItems (mark : Char) (blanks : List Sibling) (afterBare : Bool) :
    List Sibling → List Node × Bool × List Sibling
  | [] => ([], false, blanks)
  | blank :: rest => takeItems mark (blank :: blanks) afterBare rest
  | item m bare x :: rest =>
    if m.mark = mark then
      let (items, loose, after) := takeItems mark [] bare rest
      (x :: items, (if afterBare then 1 else 0) < blanks.length || loose, after)
    else ([], false, blanks ++ item m bare x :: rest)
  | node x :: rest => ([], false, blanks ++ node x :: rest)

/-- The nodes of siblings, lists formed; a blank line that is in no list is kept as `none`. -/
def group : Nat → List Sibling → List (Option Node)
  | 0, _ => []
  | _ + 1, [] => []
  | n + 1, blank :: rest => none :: group n rest
  | n + 1, node x :: rest => some x :: group n rest
  | n + 1, item m bare x :: rest =>
    let (items, loose, after) := takeItems m.mark [] bare rest
    let items := x :: items
    let position := match x.position, (items.getLast?.bind Node.position) with
      | some a, some b => some ⟨a.start, b.stop⟩
      | _, _ => none
    some (.branch (.list m.number.isSome m.number loose) position items) :: group n after

end Sibling

/-- The box at the start of a task: whether it is checked, and what follows the box and one blank. -/
def taskBox? (gs : List Glyph) : Option (Bool × List Glyph) :=
  match gs with
  | a :: b :: c :: d :: rest =>
    let isBox := a.char = '[' && c.char = ']' && (isBlankOrEol b.char || b.char = 'x' || b.char = 'X')
    if !isBox then none
    else if d.isEol then some (!isBlankOrEol b.char, dropSpaces rest)
    else if d.isSpace && !isBlankLine rest then some (!isBlankOrEol b.char, rest)
    else none
  | _ => none

/-- Takes the box off the first paragraph of a task; a blank line and definitions may come before it. -/
def takeBox? : List Block → Option (Bool × List Block)
  | .blank :: bs => (takeBox? bs).map fun (checked, bs) => (checked, .blank :: bs)
  | .leaf (.definition u t i l) p :: bs =>
    (takeBox? bs).map fun (checked, bs) => (checked, .leaf (.definition u t i l) p :: bs)
  | .paragraph gs p :: bs =>
    if gs.head?.any (fun g => g.start = p.start) then
      (taskBox? gs).map fun (checked, rest) => (checked, .paragraph rest ((span rest).getD p) :: bs)
    else none
  | _ => none

mutual

/-- Finds the tasks among the items of a block. -/
def Block.withTasks : Block → Block
  | .container (.item mark) p bs =>
    let bs := withTasks bs
    match takeBox? bs with
    | some (checked, bs) => .container (.item { mark with checked := some checked }) p bs
    | none => .container (.item mark) p bs
  | .container kind p bs => .container kind p (withTasks bs)
  | b => b

/-- Finds the tasks among the items of blocks. -/
def withTasks : List Block → List Block
  | [] => []
  | b :: bs => b.withTasks :: withTasks bs

end

/-- Is the last block a quote whose last line is empty? -/
def endsInEmptyQuoteLine (bs : List Block) : Bool :=
  match bs.getLast? with
  | some (.container .quote _ inside) =>
    match inside.getLast? with
    | some .blank => true
    | _ => false
  | _ => false

/-- The cells of a row as nodes. -/
def rowNode (env : Surroundings) (gs : List Glyph) : Node :=
  let cellNode (c : Cell) : Node := .branch .tableCell (span c.glyphs) (phrase { env with inTable := true } c.content)
  .branch .tableRow (span gs) ((cells gs).map cellNode)

mutual

/-- The identifiers of the definitions and the footnotes of a block. -/
def Block.identifiers : Block → List String × List String
  | .leaf (.definition _ _ identifier _) _ => ([identifier], [])
  | .container (.footnote label) _ bs =>
    let (ds, fs) := blockIdentifiers bs
    (ds, identifierOf (sourceChars label) :: fs)
  | .container _ _ bs => blockIdentifiers bs
  | _ => ([], [])

/-- The identifiers of the definitions and the footnotes of blocks. -/
def blockIdentifiers : List Block → List String × List String
  | [] => ([], [])
  | b :: bs =>
    let (ds, fs) := b.identifiers
    let (ds', fs') := blockIdentifiers bs
    (ds ++ ds', fs ++ fs')

end

mutual

/-- What a block becomes. -/
def Block.toSibling (env : Surroundings) : Block → Sibling
  | .blank => .blank
  | .paragraph gs p => .node (.branch .paragraph p (phrase env gs))
  | .heading depth gs p => .node (.branch (.heading depth) p (phrase env gs))
  | .leaf content p => .node (.leaf content p)
  | .table align rows p => .node (.branch (.table align) p (rows.map (rowNode env)))
  | .container (.item mark) p bs =>
    let parts := siblings env bs
    let children := Sibling.group (parts.length + 1) parts
    let inside := match children with
      | none :: rest => rest
      | rest => rest
    let nodes := children.filterMap id
    let spread := inside.any Option.isNone
    .item mark (nodes.isEmpty || endsInEmptyQuoteLine bs) (.branch (.listItem spread mark.checked) p nodes)
  | .container kind p bs =>
    let parts := siblings env bs
    let nodes := (Sibling.group (parts.length + 1) parts).filterMap id
    match kind with
    | .footnote label =>
      .node (.branch (.footnoteDefinition (identifierOf (sourceChars label))
        (some (stringText (sourceChars label)))) p nodes)
    | .quote => .node (.branch .blockquote p nodes)
    | _ => .node (.branch .root p nodes)

/-- What blocks become. -/
def siblings (env : Surroundings) : List Block → List Sibling
  | [] => []
  | b :: bs => b.toSibling env :: siblings env bs

end

/-- The nodes of the blocks of a document. -/
def blockNodes (d : Dialect) (blocks : List Block) : List Node :=
  let blocks := if d.gfm then withTasks blocks else blocks
  let (definitions, footnotes) := blockIdentifiers blocks
  let parts := siblings { dialect := d, definitions, footnotes } blocks
  (Sibling.group (parts.length + 1) parts).filterMap id

/-- The tree of a document. -/
def parse (d : Dialect) (source : String) : Node :=
  let ls := lines source.toList
  .branch .root (some ⟨⟨1, 1, 0⟩, endOf ls⟩) (blockNodes d (documentBlocks d ls))

end Folio.Markdown
