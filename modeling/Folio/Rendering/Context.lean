import Folio.Log
import Folio.Markdown.Node
import Folio.Text.Case

/-!
# The state of a rendering

What the rendering of a document knows: the options, the constructs that it is inside of, the definitions of links,
and the footnotes with the references to them so far. Identifiers are compared without regard to case, and the first
definition of an identifier counts.
-/

namespace Folio.Rendering

open Folio.Text

/-- How a document is rendered. -/
structure Options where
  allowRawHtml : Bool := true
  lazyImages : Bool := false
deriving DecidableEq, Repr, Inhabited

/-- A construct that changes how its content is rendered. -/
inductive Scope where
  | root
  | list (spread : Bool)
  | tableHead
  | tableBody
deriving DecidableEq, Repr

/-- The target of a link. -/
structure Definition where
  url : String
  title : Option String
deriving DecidableEq, Repr

/-- Adds an entry unless its name is taken. -/
def insertNew {α : Type} (name : String) (a : α) (es : List (String × α)) : List (String × α) :=
  if (es.lookup name).isSome then es else es ++ [(name, a)]

/-- The state of a rendering. The innermost scope comes first; below all of them is the root. Footnotes are numbered
in the order in which they are first referenced. -/
structure Context where
  options : Options
  scopes : List Scope := []
  definitions : List (String × Definition) := []
  footnotes : List (String × List Markdown.Node) := []
  order : List String := []
  references : List (String × Nat) := []

/-- The form in which identifiers are compared. -/
def foldCase (identifier : String) : String := lowerString identifier

mutual

/-- Collects the definitions of a tree. Nothing within a footnote is collected. -/
def collect (c : Context) : Markdown.Node → Context
  | .leaf (.definition url title identifier _) _ =>
    { c with definitions := insertNew (foldCase identifier) ⟨url, title⟩ c.definitions }
  | .leaf .. => c
  | .branch (.footnoteDefinition identifier _) _ children =>
    { c with footnotes := insertNew (foldCase identifier) children c.footnotes }
  | .branch _ _ children => collectAll c children

/-- Collects the definitions of trees. -/
def collectAll (c : Context) : List Markdown.Node → Context
  | [] => c
  | n :: ns => collectAll (collect c n) ns

end

namespace Context

/-- The state before a tree is rendered. -/
def ofTree (options : Options) (tree : Markdown.Node) : Context := collect { options } tree

def enter (s : Scope) (c : Context) : Context := { c with scopes := s :: c.scopes }

/-- Leaves the innermost scope; the root cannot be left. -/
def exit (c : Context) : Option Scope × Context :=
  match c.scopes with
  | s :: ss => (some s, { c with scopes := ss })
  | [] => (none, c)

def scope (c : Context) : Scope := c.scopes.head?.getD .root

/-- Is the next block one of a list whose items are not set apart? -/
def isTight (c : Context) : Bool := c.scope = .list false

def definition? (c : Context) (identifier : String) : Option Definition :=
  c.definitions.lookup (foldCase identifier)

/-- Counts one more reference to an identifier: its number, and which of the references to it this one is. -/
def reference (identifier : String) (c : Context) : (Nat × Nat) × Context :=
  let key := foldCase identifier
  let order := if c.order.contains key then c.order else c.order ++ [key]
  let occurrence := (c.references.lookup key).getD 0 + 1
  ((order.idxOf key + 1, occurrence),
    { c with order, references := (key, occurrence) :: c.references.filter fun e => e.1 ≠ key })

/-- A footnote that was referenced: its identifier, the number of references, and its content. -/
structure Footnote where
  identifier : String
  references : Nat
  children : List Markdown.Node

/-- Takes the referenced footnotes in the order of their numbers. -/
def takeFootnotes (c : Context) : List Footnote × Context :=
  let found := c.order.filterMap fun id =>
    (c.footnotes.lookup id).map fun children => ⟨id, (c.references.lookup id).getD 1, children⟩
  (found, { c with order := [], footnotes := c.footnotes.filter fun e => !c.order.contains e.1 })

end Context

end Folio.Rendering
