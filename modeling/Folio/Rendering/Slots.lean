import Folio.Fragment

/-!
# Markup around rendered text

Raw markup may open an element in one place of a text and close it in another. The text between is rendered first and
stands in the markup as an empty element; when the markup has been read, the rendered nodes take its place.
-/

namespace Folio.Rendering

open Folio.Html

/-- A part of a text: markup as it stands, or nodes. -/
inductive Slot where
  | markup (html : String)
  | rendered (nodes : List Html.Node)

/-- The element that stands for rendered nodes. -/
def slotTag : String := "neohome-slot"

/-- The property with the number of the rendered nodes. -/
def slotIndex : String := "data-slot"

/-- The markup that stands for the nodes of a number. -/
def placeholder (i : Nat) : String :=
  "<" ++ slotTag ++ " " ++ slotIndex ++ "=\"" ++ toString i ++ "\"></" ++ slotTag ++ ">"

/-- The markup of parts, numbered from a first number. -/
def markupOf (first : Nat) : List Slot → String
  | [] => ""
  | .markup html :: ss => html ++ markupOf first ss
  | .rendered _ :: ss => placeholder first ++ markupOf (first + 1) ss

/-- The rendered nodes of parts. -/
def renderedOf : List Slot → List (Option (List Html.Node))
  | [] => []
  | .markup _ :: ss => renderedOf ss
  | .rendered ns :: ss => some ns :: renderedOf ss

/-- The number that a text names: digits, with a plus sign in front or not. -/
def number? (s : String) : Option Nat :=
  let digits := match s.toList with
    | '+' :: ds => ds
    | ds => ds
  if digits.isEmpty || !digits.all Char.isDigit then none else some (Entity.number 10 digits)

/-- Takes the nodes of a slot; they are taken once. -/
def takeSlot (p : Properties) (slots : List (Option (List Html.Node))) :
    List Html.Node × List (Option (List Html.Node)) :=
  match ((p.get? slotIndex).bind PropertyValue.text?).bind number? with
  | some i => (((slots[i]?).getD none).getD [], slots.set i none)
  | none => ([], slots)

mutual

/-- Fills the slots of a tree. -/
def fill (slots : List (Option (List Html.Node))) : Html.Node → List Html.Node × List (Option (List Html.Node))
  | .element tag p children =>
    if tag = slotTag then takeSlot p slots
    else
      let (children, slots) := fillAll slots children
      ([.element tag p children], slots)
  | n => ([n], slots)

/-- Fills the slots of trees from left to right. -/
def fillAll (slots : List (Option (List Html.Node))) :
    List Html.Node → List Html.Node × List (Option (List Html.Node))
  | [] => ([], slots)
  | n :: ns =>
    let (first, slots) := fill slots n
    let (rest, slots) := fillAll slots ns
    (first ++ rest, slots)

end

/-- The nodes of a text that has markup in it. -/
def assemble (ss : List Slot) : List Html.Node := (fillAll (renderedOf ss) (Fragment.parse (markupOf 0 ss))).1

end Folio.Rendering
