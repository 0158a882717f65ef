/-!
# Values of a metadata block

The values that a metadata block holds: scalars, lists, and maps from names to values.
-/

namespace Folio

/-- A value of a metadata block. The entries of a map keep the order in which they were written. -/
inductive Value where
  | null
  | bool (b : Bool)
  | int (n : Int)
  | float (x : Float)
  | text (s : String)
  | list (items : List Value)
  | map (entries : List (String × Value))
deriving Inhabited, Repr

namespace Value

/-- Writes an entry of a map: a name that is present keeps its place and takes the new value. -/
def insert (name : String) (v : Value) : List (String × Value) → List (String × Value)
  | [] => [(name, v)]
  | (n, w) :: es => if n = name then (n, v) :: es else (n, w) :: insert name v es

/-- The value of an entry. -/
def get? (name : String) (es : List (String × Value)) : Option Value := es.lookup name

end Value

end Folio
