/-!
# Log

What a step reports about its work beside its result. A `Logged` value carries the lines that were written while
it was computed, in order. A `Course` need not come to an end; if it does, it has a value.
-/

namespace Folio

inductive LogLevel where
  | debug
  | warn
deriving DecidableEq, Repr

def LogLevel.name : LogLevel → String
  | .debug => "debug"
  | .warn => "warn"

/-- A line of the log. -/
structure LogLine where
  level : LogLevel
  message : String
deriving DecidableEq, Repr

/-- A value with the lines written while it was computed. -/
structure Logged (α : Type) where
  value : α
  log : List LogLine

namespace Logged

variable {α β : Type}

/-- A value without any line. -/
protected def pure (a : α) : Logged α := ⟨a, []⟩

/-- One computation after another: the lines of the first come first. -/
protected def bind (x : Logged α) (f : α → Logged β) : Logged β :=
  ⟨(f x.value).value, x.log ++ (f x.value).log⟩

instance : Monad Logged where
  pure := Logged.pure
  bind := Logged.bind

/-- Writes one line. -/
def write (level : LogLevel) (message : String) : Logged Unit := ⟨(), [⟨level, message⟩]⟩

def debug (message : String) : Logged Unit := write .debug message

def warn (message : String) : Logged Unit := write .warn message

@[simp] theorem value_pure (a : α) : (pure a : Logged α).value = a := rfl

@[simp] theorem log_pure (a : α) : (pure a : Logged α).log = [] := rfl

@[simp] theorem value_bind (x : Logged α) (f : α → Logged β) : (x >>= f).value = (f x.value).value := rfl

@[simp] theorem log_bind (x : Logged α) (f : α → Logged β) : (x >>= f).log = x.log ++ (f x.value).log := rfl

end Logged

/-- A computation that need not come to an end. -/
abbrev Course : Type → Type := OptionT Logged

namespace Course

variable {α β : Type}

/-- The value that is computed, if there is an end. -/
def value? (x : Course α) : Option α := (OptionT.run x).value

/-- The lines that are written on the way. -/
def log (x : Course α) : List LogLine := (OptionT.run x).log

/-- A computation that comes to an end if there is a value, and writes nothing. -/
def ofOption (a : Option α) : Course α := OptionT.mk (pure a)

@[simp] theorem value?_pure (a : α) : value? (pure a) = some a := rfl

@[simp] theorem value?_ofOption (a : Option α) : value? (ofOption a) = a := rfl

@[simp] theorem value?_lift (x : Logged α) : value? (liftM x) = some x.value := rfl

@[simp] theorem value?_bind (x : Course α) (f : α → Course β) :
    value? (x >>= f) = (value? x).bind fun a => value? (f a) := by
  change Logged.value (OptionT.run x >>= fun r => match r with
    | some a => OptionT.run (f a)
    | none => pure none) = _
  rw [Logged.value_bind, value?]
  cases (OptionT.run x).value <;> rfl

end Course

end Folio
