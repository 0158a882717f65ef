import Folio.Value

/-!
# Properties of elements

The properties of an element are a map from names to values that keeps the order in which the names were first
set.
-/

namespace Folio.Html

/-- The value of a property: a text, a list of tokens, or a flag. -/
inductive PropertyValue where
  | text (s : String)
  | tokens (ts : List String)
  | flag (b : Bool)
deriving DecidableEq, Repr, Inhabited

namespace PropertyValue

/-- The text of a property that is a text. -/
def text? : PropertyValue → Option String
  | .text s => some s
  | _ => none

/-- The value as it is written out. -/
def toValue : PropertyValue → Value
  | .text s => .text s
  | .tokens ts => .list (ts.map .text)
  | .flag b => .bool b

end PropertyValue

/-- A map from names to values in the order of insertion. -/
structure Properties where
  entries : List (String × PropertyValue)
deriving DecidableEq, Repr, Inhabited

namespace Properties

def empty : Properties := ⟨[]⟩

/-- Replaces the value of a name in place, or appends the name. -/
def setIn (name : String) (v : PropertyValue) : List (String × PropertyValue) → List (String × PropertyValue)
  | [] => [(name, v)]
  | (n, w) :: es => if n = name then (n, v) :: es else (n, w) :: setIn name v es

def get? (p : Properties) (name : String) : Option PropertyValue := p.entries.lookup name

/-- Sets a property; one that is present keeps its place. -/
def set (p : Properties) (name : String) (v : PropertyValue) : Properties := ⟨setIn name v p.entries⟩

/-- Takes out the first entry of a name: its value, and the properties without it. -/
def take (p : Properties) (name : String) : Option PropertyValue × Properties :=
  match p.entries.findIdx? (·.1 = name) with
  | some i => (p.entries[i]?.map (·.2), ⟨p.entries.eraseIdx i⟩)
  | none => (none, p)

/-- Removes a property; the others keep their order. -/
def remove (p : Properties) (name : String) : Properties := (p.take name).2

def size (p : Properties) : Nat := p.entries.length

def isEmpty (p : Properties) : Bool := p.entries.isEmpty

/-- The names in order. -/
def names (p : Properties) : List String := p.entries.map (·.1)

/-- The properties as a map of values. They are written one after the other; a name that is written again would take
the later value. -/
def toValue (p : Properties) : Value :=
  .map (p.entries.foldl (fun es e => Value.insert e.1 e.2.toValue es) [])

theorem names_set (p : Properties) (name : String) (v : PropertyValue) :
    (p.set name v).names = if name ∈ p.names then p.names else p.names ++ [name] := by
  obtain ⟨es⟩ := p
  change (setIn name v es).map (·.1) = if name ∈ es.map (·.1) then es.map (·.1) else es.map (·.1) ++ [name]
  induction es with
  | nil => rfl
  | cons e es ih =>
    obtain ⟨m, w⟩ := e
    rw [setIn]
    by_cases h : m = name
    · simp [h]
    · rw [if_neg h, List.map_cons, ih, List.map_cons]
      by_cases h' : name ∈ es.map (·.1)
      · rw [if_pos h', if_pos (List.mem_cons_of_mem _ h')]
      · rw [if_neg h', if_neg (List.not_mem_cons_of_ne_of_not_mem (Ne.symm h) h'), List.cons_append]

theorem get?_set (p : Properties) (name : String) (v : PropertyValue) (n : String) :
    (p.set name v).get? n = if n = name then some v else p.get? n := by
  obtain ⟨es⟩ := p
  change (setIn name v es).lookup n = if n = name then some v else es.lookup n
  induction es with
  | nil => by_cases h : n = name <;> simp [setIn, h]
  | cons e es ih =>
    obtain ⟨m, w⟩ := e
    rw [setIn]
    by_cases hm : m = name
    · rw [if_pos hm, List.lookup_cons, List.lookup_cons, hm]
      by_cases h : n = name
      · rw [if_pos h, h, beq_self_eq_true]
      · rw [if_neg h, beq_false_of_ne h]
    · rw [if_neg hm, List.lookup_cons, List.lookup_cons, ih]
      by_cases h : n = name
      · rw [if_pos h, h, beq_false_of_ne (Ne.symm hm), if_pos rfl]
      · rw [if_neg h, if_neg h]

/-- The properties set one after the other. -/
def ofList (es : List (String × PropertyValue)) : Properties :=
  es.foldl (fun p e => p.set e.1 e.2) empty

end Properties

end Folio.Html
