import Folio.Html.Node

/-!
# Walks over elements

The elements that are reached through elements are visited in document order, each one before those within it. A visitor
keeps something in mind from visit to visit. In `inspectAll` it only looks at the elements; in `changeAll` it changes
their properties, and the walk stops at once where it fails.
-/

namespace Folio.Html

/-- What comes of a visit to an element: its properties, what the visitor keeps in mind, and why it fails if it does. -/
structure Visit (σ ε : Type) where
  properties : Properties
  memory : σ
  failure : Option ε

/-- What comes of a walk: the nodes, what the visitor keeps in mind, and why the walk was stopped if it was. -/
structure Walked (α σ ε : Type) where
  result : α
  memory : σ
  failure : Option ε

namespace Node

variable {σ ε : Type}

mutual

/-- Shows a visitor the elements of a tree. -/
def inspect (look : σ → Element → σ) (s : σ) : Node → σ
  | .element t p cs => inspectAll look (look s ⟨t, p, cs⟩) cs
  | _ => s

/-- Shows a visitor the elements of a forest from left to right. -/
def inspectAll (look : σ → Element → σ) (s : σ) : List Node → σ
  | [] => s
  | n :: ns => inspectAll look (inspect look s n) ns

end

mutual

/-- Lets a visitor change the elements of a tree. -/
def change (visit : σ → Element → Visit σ ε) (s : σ) : Node → Walked Node σ ε
  | .element t p cs =>
    let v := visit s ⟨t, p, cs⟩
    match v.failure with
    | some e => ⟨.element t v.properties cs, v.memory, some e⟩
    | none =>
      let below := changeAll visit v.memory cs
      ⟨.element t v.properties below.result, below.memory, below.failure⟩
  | n => ⟨n, s, none⟩

/-- Lets a visitor change the elements of a forest from left to right. -/
def changeAll (visit : σ → Element → Visit σ ε) (s : σ) : List Node → Walked (List Node) σ ε
  | [] => ⟨[], s, none⟩
  | n :: ns =>
    let first := change visit s n
    match first.failure with
    | some e => ⟨first.result :: ns, first.memory, some e⟩
    | none =>
      let rest := changeAll visit first.memory ns
      ⟨first.result :: rest.result, rest.memory, rest.failure⟩

end

/-- A walk with a visitor that keeps nothing in mind. -/
def markAll (visit : Element → Properties × Option ε) (forest : List Node) : List Node × Option ε :=
  let w := changeAll (fun (_ : Unit) e => ⟨(visit e).1, (), (visit e).2⟩) () forest
  (w.result, w.failure)

end Node

end Folio.Html
