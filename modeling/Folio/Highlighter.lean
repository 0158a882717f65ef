import Folio.Failure

/-!
# Highlighters

A highlighter turns source code into markup. It is asked through an adapter that waits for its answer no longer than
a given time. A highlighter may remember what it was asked for: its answer to a call depends on the calls before.
-/

namespace Folio

/-- What a highlighter does when it is asked. -/
inductive Answer where
  | markup (html : String)
  | unsupported
  | failed (reason : String)
  | panicked
  | silent
deriving DecidableEq, Repr

/-- A call of a highlighter: the source text and its language. -/
structure HighlightCall where
  source : String
  language : String
deriving DecidableEq, Repr

/-- The answer to a call behind the calls that were made before. -/
abbrev Highlighter := List HighlightCall → HighlightCall → Answer

/-- The highlighter that remembers nothing. -/
def Highlighter.ofFunction (answer : String → String → Answer) : Highlighter := fun _ c => answer c.source c.language

/-- A highlighter, and for how many milliseconds its answer is waited for. -/
structure Adapter where
  highlighter : Highlighter
  timeout : Nat

/-- What an answer highlights. -/
inductive Highlight where
  | markup (html : String)
  | unsupported
deriving DecidableEq, Repr

/-- Why a call gave no answer. -/
inductive CallError where
  | failed (reason : String)
  | timedOut (milliseconds : Nat)
deriving DecidableEq, Repr

namespace CallError

def message : CallError → String
  | failed reason => reason
  | timedOut ms => toString ms

/-- The end of a transformation because of a call. -/
def toPipelineError (language document : String) : CallError → PipelineError
  | failed reason => .highlight language document reason
  | timedOut ms => .highlightTimeout language document ms

end CallError

namespace Adapter

/-- The time that is waited for an answer if none is given, in milliseconds. -/
def defaultTimeout : Nat := 10000

/-- Asks the highlighter behind the calls that were made before. -/
def call (a : Adapter) (before : List HighlightCall) (c : HighlightCall) : Except CallError Highlight :=
  match a.highlighter before c with
  | .markup html => .ok (.markup html)
  | .unsupported => .ok .unsupported
  | .failed reason => .error (.failed reason)
  | .panicked => .error (.failed "highlighter panicked")
  | .silent => .error (.timedOut a.timeout)

/-- The adapter once calls have been made. -/
def after (a : Adapter) (before : List HighlightCall) : Adapter :=
  { a with highlighter := fun later => a.highlighter (before ++ later) }

/-- Three digits of a number below a thousand, without the zeros at the end. -/
def fraction (n : Nat) : List Char :=
  Text.dropEndWhile (· = '0') [Nat.digitChar (n / 100 % 10), Nat.digitChar (n / 10 % 10), Nat.digitChar (n % 10)]

/-- A time in the largest unit that it fills. -/
def durationText (ms : Nat) : String :=
  if ms = 0 then "0ns"
  else if ms < 1000 then toString ms ++ "ms"
  else if ms % 1000 = 0 then toString (ms / 1000) ++ "s"
  else toString (ms / 1000) ++ "." ++ String.ofList (fraction (ms % 1000)) ++ "s"

/-- The adapter as a text; of the highlighter nothing is shown. -/
def describe (a : Adapter) : String := "HighlightAdapter \x7b timeout: " ++ durationText a.timeout ++ ", .. \x7d"

end Adapter

end Folio
