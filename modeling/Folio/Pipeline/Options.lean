import Folio.Highlighter
import Folio.Rendering.Context
import Folio.Value

/-!
# Options of a transformation
-/

namespace Folio.Pipeline

/-- How long an answer of the highlighter is waited for, in milliseconds, how far includes may reach, and how a
document is rendered. -/
structure Options where
  highlightTimeout : Nat := Adapter.defaultTimeout
  includeRoot : Option String := none
  rendering : Rendering.Options := {}
deriving DecidableEq, Repr, Inhabited

namespace Options

/-- The greatest timeout. -/
def maxTimeout : Nat := UInt64.size - 1

def readTimeout : Value → Option Nat
  | .int n => if 0 ≤ n && n.toNat ≤ maxTimeout then some n.toNat else none
  | _ => none

def readRoot : Value → Option (Option String)
  | .null => some none
  | .text s => some (some s)
  | _ => none

def readFlag : Value → Option Bool
  | .bool b => some b
  | _ => none

/-- Reads an entry that may be missing. -/
def readEntry {α : Type} (es : List (String × Value)) (name : String) (read : Value → Option α) (missing : α) :
    Option α :=
  match Value.get? name es with
  | some v => read v
  | none => some missing

def readRendering : Value → Option Rendering.Options
  | .map es => do
    let allowRawHtml ← readEntry es "allowRawHtml" readFlag true
    let lazyImages ← readEntry es "lazyImages" readFlag false
    some { allowRawHtml, lazyImages }
  | _ => none

/-- Reads options. An entry that is missing has its default, and one of a wrong type makes them unreadable. -/
def ofValue? : Value → Option Options
  | .map es => do
    let highlightTimeout ← readEntry es "highlightTimeoutMs" readTimeout Adapter.defaultTimeout
    let includeRoot ← readEntry es "includeRoot" readRoot none
    let rendering ← readEntry es "render" readRendering {}
    some { highlightTimeout, includeRoot, rendering }
  | _ => none

end Options

/-- A configuration: options that may be left out. -/
structure Config where
  highlightTimeout : Option Nat := none
  includeRoot : Option String := none
  allowRawHtml : Option Bool := none
  lazyImages : Option Bool := none
deriving DecidableEq, Repr, Inhabited

/-- The options of a configuration. What is left out has its default. -/
def Config.toOptions (c : Config) : Options where
  highlightTimeout := c.highlightTimeout.getD ({} : Options).highlightTimeout
  includeRoot := c.includeRoot
  rendering :=
    { allowRawHtml := c.allowRawHtml.getD ({} : Rendering.Options).allowRawHtml
      lazyImages := c.lazyImages.getD ({} : Rendering.Options).lazyImages }

end Folio.Pipeline
