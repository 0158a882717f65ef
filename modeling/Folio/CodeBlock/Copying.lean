import Folio.Html.Node

/-!
# Copying

Every block of code gets a container with a button that copies it. A block that stands in a container is left alone.
-/

namespace Folio.CodeBlock

open Folio.Html

/-- The class of a container. -/
def containerClass : String := "code-block"

/-- The class of a button. -/
def buttonClass : String := "code-copy"

/-- A drawing: its size and its line. -/
structure Icon where
  width : Nat
  height : Nat
  line : String

def copyIcon : Icon :=
  ⟨448, 512,
    "M384 336H192c-8.8 0-16-7.2-16-16V64c0-8.8 7.2-16 16-16l140.1 0L400 115.9V320c0 8.8-7.2 16-16 16zM192 384H384c35.3 0 64-28.7 64-64V115.9c0-12.7-5.1-24.9-14.1-33.9L366.1 14.1c-9-9-21.2-14.1-33.9-14.1H192c-35.3 0-64 28.7-64 64V320c0 35.3 28.7 64 64 64zM64 128c-35.3 0-64 28.7-64 64V448c0 35.3 28.7 64 64 64H256c35.3 0 64-28.7 64-64V416H272v32c0 8.8-7.2 16-16 16H64c-8.8 0-16-7.2-16-16V192c0-8.8 7.2-16 16-16H96V128H64z"⟩

def checkIcon : Icon :=
  ⟨448, 512,
    "M438.6 105.4c12.5 12.5 12.5 32.8 0 45.3l-256 256c-12.5 12.5-32.8 12.5-45.3 0l-128-128c-12.5-12.5-12.5-32.8 0-45.3s32.8-12.5 45.3 0L160 338.7 393.4 105.4c12.5-12.5 32.8-12.5 45.3 0z"⟩

/-- An icon as an element of a class. -/
def Icon.toNode (i : Icon) (name : String) : Node :=
  .element "svg"
    (.ofList [("xmlns", .text "http://www.w3.org/2000/svg"),
      ("viewBox", .text ("0 0 " ++ toString i.width ++ " " ++ toString i.height)), ("aria-hidden", .text "true"),
      ("focusable", .text "false"), ("role", .text "img"), ("class", .tokens [name])])
    [.element "path" (.ofList [("fill", .text "currentColor"), ("d", .text i.line)]) []]

/-- The button that copies a block. -/
def copyButton : Node :=
  .element "button"
    (.ofList [("type", .text "button"), ("aria-label", .text "Copy code"), ("class", .tokens [buttonClass])])
    [copyIcon.toNode "copy-icon-idle", checkIcon.toNode "copy-icon-done"]

/-- The container of a block. -/
def container (block : Node) : Node :=
  .element "div" (.ofList [("class", .tokens [containerClass])]) [block, copyButton]

def isContainer (e : Element) : Bool := e.tag = "div" && e.hasClass containerClass

mutual

/-- Puts the blocks of a node into containers, and counts them. -/
def wrap (inside : Bool) : Node → Node × Nat
  | .element t p cs =>
    if t = "pre" then if inside then (.element t p cs, 0) else (container (.element t p cs), 1)
    else
      let (cs', n) := wrapAll (isContainer ⟨t, p, cs⟩) cs
      (.element t p cs', n)
  | n => (n, 0)

/-- Puts the blocks of a forest into containers, unless it is the content of a container. -/
def wrapAll (inside : Bool) : List Node → List Node × Nat
  | [] => ([], 0)
  | n :: ns => ((wrap inside n).1 :: (wrapAll inside ns).1, (wrap inside n).2 + (wrapAll inside ns).2)

end

/-- Puts the blocks below a node into containers, and counts them. -/
def addCopyButtons : Node → Node × Nat
  | .root cs => (.root (wrapAll false cs).1, (wrapAll false cs).2)
  | .element t p cs => (.element t p (wrapAll false cs).1, (wrapAll false cs).2)
  | .text s => (.text s, 0)

end Folio.CodeBlock
