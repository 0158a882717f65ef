import Folio.Html.Properties
import Folio.Text.Trim

/-!
# Trees of HTML

A tree of elements and texts. A root holds the top level of a document; it may occur inside a tree as well, and
then the walks over elements pass it by.
-/

namespace Folio.Html

/-- A node of a tree. -/
inductive Node where
  | root (children : List Node)
  | element (tag : String) (properties : Properties) (children : List Node)
  | text (value : String)
deriving Repr, Inhabited

/-- An element taken out of its tree. -/
structure Element where
  tag : String
  properties : Properties
  children : List Node
deriving Repr, Inhabited

namespace Node

def element? : Node → Option Element
  | .element t p cs => some ⟨t, p, cs⟩
  | _ => none

def children : Node → List Node
  | .root cs => cs
  | .element _ _ cs => cs
  | .text _ => []

mutual

/-- The texts below a node in document order, also those below roots. -/
def texts : Node → List String
  | .root cs => textsAll cs
  | .element _ _ cs => textsAll cs
  | .text s => [s]

/-- The texts of a forest. -/
def textsAll : List Node → List String
  | [] => []
  | n :: ns => texts n ++ textsAll ns

end

mutual

/-- The elements that are reached through elements, in document order. -/
def elements : Node → List Element
  | .element t p cs => ⟨t, p, cs⟩ :: elementsAll cs
  | _ => []

/-- The elements of a forest that are reached through elements. -/
def elementsAll : List Node → List Element
  | [] => []
  | n :: ns => elements n ++ elementsAll ns

end

mutual

/-- The number of nodes of a tree. -/
def size : Node → Nat
  | .root cs => sizeAll cs + 1
  | .element _ _ cs => sizeAll cs + 1
  | .text _ => 1

def sizeAll : List Node → Nat
  | [] => 0
  | n :: ns => size n + sizeAll ns

end

/-- Texts put together. -/
def joined (ss : List String) : String := ss.foldl (· ++ ·) ""

/-- The texts below a node, put together. -/
def textContent (n : Node) : String := joined n.texts

end Node

namespace Element

open Folio.Text

def toNode (e : Element) : Node := .element e.tag e.properties e.children

/-- The texts below the element, put together. -/
def textContent (e : Element) : String := Node.joined (Node.textsAll e.children)

/-- A property that is a text. -/
def text? (e : Element) (name : String) : Option String := (e.properties.get? name).bind PropertyValue.text?

/-- The id, unless it is empty or no text. -/
def id? (e : Element) : Option String := (e.text? "id").filter fun s => !s.isEmpty

/-- The classes, given as a list or as a text with white space between them. -/
def classes (e : Element) : List String :=
  match e.properties.get? "class" with
  | some (.tokens ts) => ts
  | some (.text s) => (words s.toList).map String.ofList
  | _ => []

def hasClass (e : Element) (c : String) : Bool := e.classes.contains c

/-- The level of a heading, from 1 to 6. -/
def headingLevel? (e : Element) : Option Nat :=
  if e.tag = "h1" then some 1
  else if e.tag = "h2" then some 2
  else if e.tag = "h3" then some 3
  else if e.tag = "h4" then some 4
  else if e.tag = "h5" then some 5
  else if e.tag = "h6" then some 6
  else none

end Element

end Folio.Html
