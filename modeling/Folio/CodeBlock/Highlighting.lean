import Folio.Fragment
import Folio.Highlighter

/-!
# Highlighting

Every block of code that names its language is handed to the highlighter once, and its content is replaced by the
markup of the answer. Markup may contain blocks of code itself, which are handed over in turn: for a highlighter that
answers with a block of its own to every block, this does not come to an end.
-/

namespace Folio.CodeBlock

open Folio.Html

/-- The mark of the class that names the language of a block. -/
def languagePrefix : String := "language-"

/-- The language of a block: the rest of the first class that names one, unless it is empty. -/
def language? (code : Element) : Option String :=
  let rests := code.classes.filterMap fun c => Text.stripFront? languagePrefix.toList c.toList
  (rests.head?.filter fun r => !r.isEmpty).map String.ofList

/-- The first element of code among nodes. -/
def firstCode? (ns : List Node) : Option Element := (ns.filterMap Node.element?).find? fun e => e.tag = "code"

/-- The call for a block with the given children, if it names a language. -/
def call? (children : List Node) : Option HighlightCall := do
  let code ← firstCode? children
  let language ← language? code
  some ⟨code.textContent, language⟩

/-- What has been done so far: the calls, the number of answers with markup, and the warnings. -/
structure Progress where
  calls : List HighlightCall := []
  count : Nat := 0
  warnings : List Warning := []

/-- A forest after a walk, what has been done, and what ended the walk early. -/
structure Walk where
  nodes : List Node
  progress : Progress
  stop : Option PipelineError

/-- Asks for a block: what has been done then, the markup of the answer, and the failure. -/
def ask (a : Adapter) (document : String) (c : HighlightCall) (s : Progress) :
    Progress × Option (List Node) × Option PipelineError :=
  let answer := a.call s.calls c
  let s := { s with calls := s.calls ++ [c] }
  match answer with
  | .ok (.markup html) => ({ s with count := s.count + 1 }, some (Fragment.parse html), none)
  | .ok .unsupported => ({ s with warnings := s.warnings ++ [.unsupportedLanguage c.language] }, none, none)
  | .error e => (s, none, some (e.toPipelineError c.language document))

/-- Asks for an element if it is a block of code. -/
def askFor (a : Adapter) (document tag : String) (children : List Node) (s : Progress) :
    Progress × Option (List Node) × Option PipelineError :=
  match if tag = "pre" then call? children else none with
  | some c => ask a document c s
  | none => (s, none, none)

/-- A walk over a forest that need not come to an end. -/
abbrev Walker := List Node → Progress → Option Walk

mutual

/-- Walks over a forest. `swap` is the content that the first element of code in it gets, and `deeper` walks over
such content. -/
def walkAll (a : Adapter) (document : String) (deeper : Walker) (swap : Option (List Node)) (s : Progress) :
    List Node → Option Walk
  | [] => some ⟨[], s, none⟩
  | n :: ns => do
    let isCode := (n.element?.any fun e => e.tag = "code") && swap.isSome
    let first ← walkNode a document deeper swap s n
    if first.stop.isSome then some ⟨first.nodes ++ ns, first.progress, first.stop⟩
    else
      let rest ← walkAll a document deeper (if isCode then none else swap) first.progress ns
      some ⟨first.nodes ++ rest.nodes, rest.progress, rest.stop⟩

/-- Walks over a node. -/
def walkNode (a : Adapter) (document : String) (deeper : Walker) (swap : Option (List Node)) (s : Progress) :
    Node → Option Walk
  | .element t p cs =>
    match if t = "code" then swap else none with
    | some content => do
      let inner ← deeper content s
      some ⟨[.element t p inner.nodes], inner.progress, inner.stop⟩
    | none =>
      match askFor a document t cs s with
      | (s, _, some e) => some ⟨[.element t p cs], s, some e⟩
      | (s, content, none) => do
        let inner ← walkAll a document deeper content s cs
        some ⟨[.element t p inner.nodes], inner.progress, inner.stop⟩
  | n => some ⟨[n], s, none⟩

end

/-- Where one walker comes to an end, the other one comes to the same. -/
def Extends (f g : Walker) : Prop := ∀ ns s, f ns s = none ∨ f ns s = g ns s

theorem bind_eq_none_or_eq {α β : Type} {x y : Option α} {f g : α → Option β} (h : x = none ∨ x = y)
    (h' : ∀ a, f a = none ∨ f a = g a) : x.bind f = none ∨ x.bind f = y.bind g := by
  rcases h with rfl | rfl
  · exact .inl rfl
  · cases x with
    | none => exact .inl rfl
    | some a => exact h' a

section

variable {a : Adapter} {document : String} {f g : Walker}

mutual

theorem walkNode_extends (h : Extends f g) (swap : Option (List Node)) (s : Progress) : (n : Node) →
    walkNode a document f swap s n = none ∨ walkNode a document f swap s n = walkNode a document g swap s n
  | .text _ => .inr rfl
  | .root _ => .inr rfl
  | .element t p cs => by
    rw [walkNode, walkNode]
    cases if t = "code" then swap else none with
    | some content => exact bind_eq_none_or_eq (h content s) fun _ => .inr rfl
    | none =>
      dsimp only
      rcases askFor a document t cs s with ⟨s, content, _ | e⟩
      · exact bind_eq_none_or_eq (walkAll_extends h content s cs) fun _ => .inr rfl
      · exact .inr rfl

/-- What the walk over markup adds, it adds to the walk over a forest. -/
theorem walkAll_extends (h : Extends f g) (swap : Option (List Node)) (s : Progress) : (ns : List Node) →
    walkAll a document f swap s ns = none ∨ walkAll a document f swap s ns = walkAll a document g swap s ns
  | [] => .inr rfl
  | n :: ns => by
    rw [walkAll, walkAll]
    refine bind_eq_none_or_eq (walkNode_extends h swap s n) fun first => ?_
    cases first.stop.isSome with
    | true => exact .inr rfl
    | false => exact bind_eq_none_or_eq (walkAll_extends h _ _ ns) fun _ => .inr rfl

end

end

/-- The walk over a forest is monotone in any order `R` that says the same as `Extends`, as the order of fixpoints
does. -/
theorem walkAll_monotone (a : Adapter) (document : String) {R : Walker → Walker → Prop}
    (extends_iff : ∀ f g, R f g ↔ Extends f g) (f g : Walker) (h : R f g) :
    R (fun ns s => walkAll a document f none s ns) (fun ns s => walkAll a document g none s ns) := by
  rw [extends_iff] at h ⊢
  exact fun ns s => walkAll_extends h none s ns

/-- Walks over a forest, over the markup that is put into it, over the markup that is put into this, and so on. There
is no end if there is always more. -/
def walk (a : Adapter) (document : String) (forest : List Node) (s : Progress) : Option Walk :=
  walkAll a document (walk a document) none s forest
partial_fixpoint monotonicity walkAll_monotone a document (by
  intro f g
  constructor
  · intro h ns s
    have le := h ns s
    generalize f ns s = x at le
    generalize g ns s = y at le
    cases le with
    | bot => exact .inl rfl
    | refl => exact .inr rfl
  · intro h ns s
    rcases h ns s with h | h
    · rw [h]
      exact .bot
    · rw [h]
      exact .refl)

/-- A highlighted tree, what has been done, and the number of blocks that were highlighted or the failure. What was
changed before a failure stays. -/
structure Highlighted where
  tree : Node
  progress : Progress
  outcome : Except PipelineError Nat

/-- Hands the blocks of code below a node to the highlighter. -/
def highlight (a : Adapter) (document : String) (tree : Node) : Course Highlighted := do
  match tree with
  | .text s => pure ⟨.text s, {}, .ok 0⟩
  | tree =>
    let w ← Course.ofOption (walk a document tree.children {})
    let after := match tree with
      | .element t p _ => Node.element t p w.nodes
      | _ => .root w.nodes
    liftM (w.progress.warnings.forM Warning.report)
    match w.stop with
    | some e => pure ⟨after, w.progress, .error e⟩
    | none => do
      Logged.debug ("highlighted " ++ toString w.progress.count ++ " code blocks in " ++ document)
      pure ⟨after, w.progress, .ok w.progress.count⟩

end Folio.CodeBlock
