import Folio.Failure
import Folio.Html.Node

/-!
# Outline

The content below each heading of the top level goes into a section that the heading starts; a section lies within the
section of the nearest heading of a higher rank above it. The title of a document is a heading in front of all.
-/

namespace Folio.Outline

open Folio.Html

/-- A section that still grows: the level of its heading, its properties, and its content, newest first. -/
structure Section where
  level : Nat
  properties : Properties
  content : List Node

/-- The section that a heading starts. -/
def Section.start (level : Nat) (heading : Node) : Section :=
  let id := (heading.element?.bind Element.id?).map fun id => ("data-heading-id", PropertyValue.text id)
  ⟨level, .ofList id.toList, [heading]⟩

def Section.toNode (s : Section) : Node := .element "section" s.properties s.content.reverse

/-- What has been read of a top level: the sections that grow, innermost first, and what is in none, newest
first. -/
structure Growing where
  sections : List Section
  done : List Node

/-- Ends the sections for which a level leaves no room, the innermost first. -/
def closeFrom (level : Nat) (done : List Node) : List Section → Growing
  | [] => ⟨[], done⟩
  | s :: ss =>
    if level ≤ s.level then
      match ss with
      | [] => ⟨[], s.toNode :: done⟩
      | outer :: rest => closeFrom level done ({ outer with content := s.toNode :: outer.content } :: rest)
    else ⟨s :: ss, done⟩
termination_by ss => ss.length

/-- Adds a node that is no heading to the innermost section. -/
def Growing.add (n : Node) (g : Growing) : Growing :=
  match g.sections with
  | [] => { g with done := n :: g.done }
  | s :: ss => { g with sections := { s with content := n :: s.content } :: ss }

/-- The level of a heading. -/
def level? (n : Node) : Option Nat := n.element?.bind Element.headingLevel?

/-- Reads the next node of a top level. -/
def Growing.next (g : Growing) (n : Node) : Growing :=
  match level? n with
  | some level =>
    let g := closeFrom level g.done g.sections
    { g with sections := .start level n :: g.sections }
  | none => g.add n

/-- The top level with its sections. -/
def nestAll (ns : List Node) : List Node :=
  let g := ns.foldl Growing.next ⟨[], []⟩
  (closeFrom 0 g.done g.sections).done.reverse

/-- Nests the children of a node into sections. -/
def nest : Node → Node
  | .root cs => .root (nestAll cs)
  | .element t p cs => .element t p (nestAll cs)
  | .text s => .text s

/-- The heading of a title. -/
def titleHeading (title : String) : Node := .element "h1" .empty [.text title]

/-- Puts the title of a document in front of a tree. -/
def injectTitle (document : String) (frontmatter : Option Frontmatter) (tree : Node) : Except PipelineError Node :=
  match frontmatter, tree with
  | none, _ => .error (.missingFrontmatter document)
  | some f, .root cs => .ok (.root (titleHeading f.title :: cs))
  | some f, .element t p cs => .ok (.element t p (titleHeading f.title :: cs))
  | some _, .text _ => .error (.internal "title target is a text node")

end Folio.Outline
