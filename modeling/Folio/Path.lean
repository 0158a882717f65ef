import Folio.Text.Trim

/-!
# Paths

A path is a list of components. `Path.normalize` drops the `.` components and lets a `..` take away the name before
it, without looking at any file system; `Path.walk` says where a path leads from a directory.
-/

namespace Folio

open Folio.Text

/-- A component of a path. -/
inductive Component where
  | root
  | here
  | up
  | name (s : List Char)
deriving DecidableEq, Repr

/-- A path. -/
structure Path where
  parts : List Component
deriving DecidableEq, Repr

namespace Path

def empty : Path := ⟨[]⟩

/-- The component that a piece between slashes stands for; an empty piece and a `.` stand for none. -/
def component? (piece : List Char) : Option Component :=
  if piece.isEmpty || piece = ['.'] then none
  else if piece = ['.', '.'] then some .up
  else some (.name piece)

/-- Reads a path. Of the `.` components only one at the start of a relative path is kept. -/
def ofChars (s : List Char) : Path :=
  let pieces := splitOn '/' s
  let front : List Component :=
    match s, pieces with
    | '/' :: _, _ => [.root]
    | _, ['.'] :: _ => [.here]
    | _, _ => []
  ⟨front ++ pieces.filterMap component?⟩

def ofString (s : String) : Path := ofChars s.toList

def Component.text : Component → List Char
  | .root => []
  | .here => ['.']
  | .up => ['.', '.']
  | .name s => s

/-- The components with slashes between them. -/
def joinParts : List Component → List Char
  | [] => []
  | [c] => Component.text c
  | c :: cs => Component.text c ++ '/' :: joinParts cs

/-- A path as text. -/
def text (p : Path) : String :=
  match p.parts with
  | [.root] => "/"
  | cs => String.ofList (joinParts cs)

def isAbsolute (p : Path) : Bool := p.parts.head? = some .root

/-- The path without its last component, unless it is empty or the root. -/
def parent? (p : Path) : Option Path :=
  match p.parts.getLast? with
  | none | some .root => none
  | some _ => some ⟨p.parts.dropLast⟩

/-- A path behind another one; an absolute path stands alone. -/
def join (p q : Path) : Path :=
  if q.isAbsolute then q else ⟨p.parts ++ q.parts.filter (· ≠ .here)⟩

/-- Adds a component to a normal form that is given in reverse. -/
def push (done : List Component) : Component → List Component
  | .here => done
  | .root => [.root]
  | .name s => .name s :: done
  | .up =>
    match done with
    | .name _ :: rest => rest
    | .root :: _ => done
    | _ => .up :: done

/-- The normal form: no `.`, and a `..` only in front of a relative path. -/
def normalize (p : Path) : Path := ⟨(p.parts.foldl push []).reverse⟩

/-- Is one path an initial part of another, component by component? -/
def startsWith (p root : Path) : Bool := root.parts.isPrefixOf p.parts

/-- One step from a directory, which is given by the names that lead to it. -/
def step (dir : List (List Char)) : Component → List (List Char)
  | .root => []
  | .here => dir
  | .up => dir.dropLast
  | .name s => dir ++ [s]

/-- The place where a path leads from a directory. -/
def walk (p : Path) (dir : List (List Char)) : List (List Char) := p.parts.foldl step dir

end Path

end Folio
