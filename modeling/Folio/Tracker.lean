import Folio.Decimal.Written
import Folio.Log
import Folio.Text.Quoted
import Folio.Text.Trim
import Folio.Value

/-!
# The active section

Sections become visible and hidden as a reader moves over a page. The active section is the first one that is visible;
its entry in the table of contents carries a marker, which stays where it is when nothing is visible.
-/

namespace Folio.Tracker

open Folio.Text

/-- Which part of a section must be visible, and the class of the marker. -/
structure Config where
  threshold : Float := 0.9
  activeClass : String := "active"

/-- Why a configuration is refused. -/
inductive ConfigError where
  | threshold (value : Float)
  | activeClass (name : String)

def ConfigError.message : ConfigError → String
  | threshold value => "threshold must be between 0 and 1, got " ++ Decimal.plain value
  | activeClass name => "activeClass must be a non-empty class name, got " ++ quoteString name

namespace Config

/-- Accepts a threshold from 0 to 1 and a class without blanks. -/
def validate (c : Config) : Except ConfigError Unit :=
  if !(0 ≤ c.threshold && c.threshold ≤ 1) then .error (.threshold c.threshold)
  else if c.activeClass.isEmpty || c.activeClass.toList.any isBlank then .error (.activeClass c.activeClass)
  else .ok ()

def readNumber : Value → Option Float
  | .int n => some (Float.ofInt n)
  | .float x => some x
  | _ => none

def readText : Value → Option String
  | .text s => some s
  | _ => none

/-- Reads a configuration. An entry that is missing has its default, and one of a wrong type makes it unreadable. -/
def ofValue? : Value → Option Config
  | .map es => do
    let threshold ← match Value.get? "threshold" es with
      | some v => readNumber v
      | none => some 0.9
    let activeClass ← match Value.get? "activeClass" es with
      | some v => readText v
      | none => some "active"
    some { threshold, activeClass }
  | _ => none

end Config

/-- A section and whether it is visible. -/
structure Section where
  id : String
  visible : Bool
deriving DecidableEq, Repr

/-- A move of the marker. -/
structure Move where
  previous : Option String
  next : String
deriving DecidableEq, Repr

end Tracker

/-- The sections of a page in order, and the place of the active one. -/
structure Tracker where
  sections : List Tracker.Section
  active : Option Nat
deriving DecidableEq, Repr

namespace Tracker

/-- Registers ids in order. One that is repeated keeps its first place. -/
def register (sections : List Section) : List String → List Section
  | [] => sections
  | id :: ids => register (if sections.any (·.id = id) then sections else sections ++ [⟨id, false⟩]) ids

/-- A tracker of sections none of which is visible. -/
def ofIds (ids : List String) : Tracker := ⟨register [] ids, none⟩

/-- Notes whether a section is visible. -/
def mark (id : String) (visible : Bool) : List Section → List Section
  | [] => []
  | s :: ss => if s.id = id then ⟨id, visible⟩ :: ss else s :: mark id visible ss

def idAt? (ss : List Section) (i : Nat) : Option String := (ss[i]?).map (·.id)

def activeId? (t : Tracker) : Option String := t.active.bind (idAt? t.sections)

def ids (t : Tracker) : List String := t.sections.map (·.id)

def isEmpty (t : Tracker) : Bool := t.sections.isEmpty

/-- What comes of an event: the tracker, the moves of the marker that the view is told of, and whether there has been
one. -/
structure Observation where
  tracker : Tracker
  moves : List Move
  moved : Bool
deriving DecidableEq, Repr

/-- A section has become visible or hidden. If that changes the active section, the view is told to move the marker. An
id that is not registered is passed by. -/
def observe (id : String) (visible : Bool) (t : Tracker) : Logged Observation :=
  if !t.sections.any (·.id = id) then do
    Logged.debug ("ignoring visibility change for unregistered section " ++ id)
    pure ⟨t, [], false⟩
  else
    let sections := mark id visible t.sections
    match sections.findIdx? (·.visible) with
    | none => pure ⟨{ t with sections }, [], false⟩
    | some next =>
      if t.active = some next then pure ⟨{ t with sections }, [], false⟩
      else
        let move : Move := ⟨t.active.bind (idAt? sections), (idAt? sections next).getD id⟩
        pure ⟨⟨sections, some next⟩, [move], true⟩

/-- Forgets all sections. -/
def clear (_ : Tracker) : Tracker := ⟨[], none⟩

end Tracker

end Folio
