import Folio.Fragment.Token
import Folio.Entity
import Folio.Html.Node
import Folio.Text.Case

/-!
# HTML fragments

`Fragment.parse` builds the forest of a fragment from its tokens. An end tag closes the innermost open element if
the names agree to the letter and is ignored otherwise; elements that are open at the end simply end. Positions are
counted in numbers of 32 bits: a fragment of 4 GiB or more has no forest, and such fragments are left out here.
-/

namespace Folio.Fragment

open Folio.Text Folio.Html

/-- Elements without content. -/
def voidNames : List String :=
  ["area", "base", "br", "col", "embed", "hr", "img", "input", "keygen", "link", "meta", "param", "source",
    "track", "wbr"]

/-- Sets an attribute: the last value of a name counts, at the place of the first. -/
def setAttribute (a : Attribute) : List Attribute → List Attribute
  | [] => [a]
  | b :: bs => if b.1 = a.1 then a :: bs else b :: setAttribute a bs

def idName : List Char := ['i', 'd']

def className : List Char := ['c', 'l', 'a', 's', 's']

/-- The attributes in their final order: the id and the class come last, and only if they have a value. -/
def arrange (as : List Attribute) : List Attribute :=
  let last (name : List Char) : List Attribute :=
    match as.reverse.find? (·.1 = name) with
    | some (_, some v) => [(name, some v)]
    | _ => []
  (as.filter fun a => a.1 ≠ idName && a.1 ≠ className).foldl (fun done a => setAttribute a done) []
    ++ last idName ++ last className

/-- The property of an attribute: entities are decoded, and the classes are cut apart. -/
def property (a : Attribute) : String × PropertyValue :=
  let key := lower a.1
  let value := Entity.decode (a.2.getD [])
  (String.ofList key,
    if key = className then .tokens ((words value).map String.ofList) else .text (String.ofList value))

def properties (as : List Attribute) : Properties := Properties.ofList ((arrange as).map property)

/-- An open element: its name as written, its properties, and what stands before it, in reverse. -/
structure Frame where
  name : List Char
  properties : Properties
  before : List Node

/-- The element of a name. -/
def element (name : List Char) (p : Properties) (children : List Node) : Node :=
  .element (String.ofList (lower name)) p children

/-- Ends the elements that are still open. `done` has the nodes of the innermost one in reverse. -/
def closeAll (done : List Node) : List Frame → List Node
  | [] => done.reverse
  | f :: stack => closeAll (element f.name f.properties done.reverse :: f.before) stack

/-- Builds a forest. `done` has the nodes of the innermost open element in reverse. -/
def build (stack : List Frame) (done : List Node) : List Token → List Node
  | [] => closeAll done stack
  | .text s :: ts => build stack (.text (String.ofList (Entity.decode s)) :: done) ts
  | .start name as selfClosing :: ts =>
    if selfClosing || voidNames.contains (String.ofList name) then
      build stack (element name (properties as) [] :: done) ts
    else build (⟨name, properties as, done⟩ :: stack) [] ts
  | .close name :: ts =>
    match stack with
    | [] => build [] done ts
    | f :: rest =>
      if f.name = name then build rest (element f.name f.properties done.reverse :: f.before) ts
      else build (f :: rest) done ts

/-- The forest of a fragment. -/
def parse (html : String) : List Node := build [] [] (tokens html.toList)

end Folio.Fragment
