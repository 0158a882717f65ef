/-!
# Trees of Markdown

The syntax tree of a Markdown document. A node is a leaf with its content or a branch with children; both may know
where they stand in the source. There are the nodes that some dialect reads; those of MDX, which none does, are left
out.
-/

namespace Folio.Markdown

/-- A point of the source: line and column count from 1, the offset counts bytes from 0. -/
structure Point where
  line : Nat
  column : Nat
  offset : Nat
deriving DecidableEq, Repr, Inhabited

/-- A stretch of the source. -/
structure Position where
  start : Point
  stop : Point
deriving DecidableEq, Repr, Inhabited

/-- The alignment of a table column. -/
inductive Align where
  | left
  | right
  | center
deriving DecidableEq, Repr

/-- How a reference names its definition: by its own text, by its own text and empty brackets, or by a label. -/
inductive ReferenceKind where
  | shortcut
  | collapsed
  | full
deriving DecidableEq, Repr

/-- What a leaf holds. -/
inductive Leaf where
  | text (value : String)
  | inlineCode (value : String)
  | inlineMath (value : String)
  | code (value : String) (lang info : Option String)
  | math (value : String) (info : Option String)
  | html (value : String)
  | hardBreak
  | thematicBreak
  | image (url alt : String) (title : Option String)
  | imageReference (alt identifier : String) (label : Option String) (kind : ReferenceKind)
  | definition (url : String) (title : Option String) (identifier : String) (label : Option String)
  | footnoteReference (identifier : String) (label : Option String)
  | yaml (value : String)
  | toml (value : String)
deriving DecidableEq, Repr, Inhabited

/-- What a branch is. -/
inductive Branch where
  | root
  | paragraph
  | heading (depth : Nat)
  | emphasis
  | strong
  | delete
  | link (url : String) (title : Option String)
  | linkReference (identifier : String) (label : Option String) (kind : ReferenceKind)
  | blockquote
  | list (ordered : Bool) (start : Option Nat) (spread : Bool)
  | listItem (spread : Bool) (checked : Option Bool)
  | table (align : List (Option Align))
  | tableRow
  | tableCell
  | footnoteDefinition (identifier : String) (label : Option String)
deriving DecidableEq, Repr, Inhabited

/-- A node of the tree. -/
inductive Node where
  | leaf (content : Leaf) (position : Option Position)
  | branch (kind : Branch) (position : Option Position) (children : List Node)
deriving Repr, Inhabited

namespace Node

def position : Node → Option Position
  | .leaf _ p => p
  | .branch _ p _ => p

def children : Node → List Node
  | .leaf .. => []
  | .branch _ _ cs => cs

end Node

end Folio.Markdown
