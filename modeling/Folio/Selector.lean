/-!
# Selectors

A selector of the elements that have an attribute with a given value. The value is a string in quotes; quotes and
backslashes in it are escaped.
-/

namespace Folio.Selector

/-- A value as the inside of a string in quotes. -/
def escape : List Char → List Char
  | [] => []
  | c :: s => if c = '"' || c = '\\' then '\\' :: c :: escape s else c :: escape s

/-- The selector of an attribute with a value. -/
def ofAttribute (name value : String) : String :=
  "[" ++ name ++ "=\"" ++ String.ofList (escape value.toList) ++ "\"]"

end Folio.Selector
