import Folio.Html.Node
import Folio.Slug

/-!
# Headings

Every heading gets an id: the one it has, the one that its text ends in, or a slug of its text. A heading with an id
can be made a link to itself.
-/

namespace Folio.Heading

open Folio.Html

/-- A heading as the table of contents lists it. -/
structure Entry where
  depth : Nat
  slug : String
  text : String
deriving DecidableEq, Repr

mutual

/-- The last text of a node that is reached through elements. -/
def lastText? : Node → Option String
  | .text s => some s
  | .element _ _ cs => lastTextAll? cs
  | .root _ => none

/-- The last text of a forest. -/
def lastTextAll? : List Node → Option String
  | [] => none
  | n :: ns => (lastTextAll? ns).or (lastText? n)

end

mutual

/-- Replaces the last text of a node that is reached through elements. -/
def setLastText (s : String) : Node → Node
  | .text _ => .text s
  | .element t p cs => .element t p (setLastTextAll s cs)
  | .root cs => .root cs

/-- Replaces the last text of a forest. -/
def setLastTextAll (s : String) : List Node → List Node
  | [] => []
  | n :: ns => if (lastTextAll? ns).isSome then n :: setLastTextAll s ns else setLastText s n :: ns

end

mutual

/-- Replacing a text keeps the size of a tree. -/
theorem size_setLastText (s : String) : (n : Node) → (setLastText s n).size = n.size
  | .text _ => rfl
  | .element _ _ cs => by simp only [setLastText, Node.size, sizeAll_setLastTextAll s cs]
  | .root _ => rfl

theorem sizeAll_setLastTextAll (s : String) : (ns : List Node) → Node.sizeAll (setLastTextAll s ns) = Node.sizeAll ns
  | [] => rfl
  | n :: ns => by
    simp only [setLastTextAll]
    split
    · simp only [Node.sizeAll, sizeAll_setLastTextAll s ns]
    · simp only [Node.sizeAll, size_setLastText s n]

end

/-- The id at the end of the text of a heading, and the content without it. -/
def customId? (content : List Node) : Option (String × List Node) :=
  match lastTextAll? content with
  | none => none
  | some s =>
    match Slug.extractCustomId s with
    | (rest, some id) => some (id, setLastTextAll rest content)
    | (_, none) => none

/-- The id of a heading, its content, and the ids that are taken now. -/
def identify (s : Slugger) (e : Element) : String × List Node × Slugger :=
  match e.id? with
  | some id => (id, e.children, s)
  | none =>
    match customId? e.children with
    | some (id, content) => (id, content, s.reserve id)
    | none => ((s.slug e.textContent).1, e.children, (s.slug e.textContent).2)

theorem sizeAll_of_customId? {content rest : List Node} {id : String} (h : customId? content = some (id, rest)) :
    Node.sizeAll rest = Node.sizeAll content := by
  unfold customId? at h
  split at h
  · exact absurd h (by simp)
  · split at h
    · obtain ⟨-, rfl⟩ := Prod.mk.inj (Option.some.inj h)
      exact sizeAll_setLastTextAll _ _
    · exact absurd h (by simp)

/-- Finding the id of a heading keeps the size of its content. -/
theorem sizeAll_identify (s : Slugger) (e : Element) :
    Node.sizeAll (identify s e).2.1 = Node.sizeAll e.children := by
  unfold identify
  split
  · rfl
  · split
    · rename_i h
      exact sizeAll_of_customId? h
    · rfl

/-- What has been found in a forest: the forest with ids, the headings in order, and the ids that are taken now. -/
structure Assigned where
  nodes : List Node
  entries : List Entry
  slugger : Slugger

/-- Gives ids to the headings of a forest, each heading before those within it. -/
def assignAll (s : Slugger) (forest : List Node) : Assigned :=
  match forest with
  | [] => ⟨[], [], s⟩
  | .element t p cs :: ns =>
    match Element.headingLevel? ⟨t, p, cs⟩ with
    | none =>
      let below := assignAll s cs
      let after := assignAll below.slugger ns
      ⟨.element t p below.nodes :: after.nodes, below.entries ++ after.entries, after.slugger⟩
    | some depth =>
      let found := identify s ⟨t, p, cs⟩
      let q := if (Element.id? ⟨t, p, cs⟩).isSome then p else p.set "id" (.text found.1)
      let text := String.ofList (Text.trim (Node.joined (Node.textsAll found.2.1)).toList)
      let below := assignAll found.2.2 found.2.1
      let after := assignAll below.slugger ns
      ⟨.element t q below.nodes :: after.nodes, ⟨depth, found.1, text⟩ :: below.entries ++ after.entries,
        after.slugger⟩
  | n :: ns =>
    let after := assignAll s ns
    ⟨n :: after.nodes, after.entries, after.slugger⟩
termination_by Node.sizeAll forest
decreasing_by
  all_goals simp only [Node.sizeAll, Node.size]
  · omega
  · omega
  · have h := sizeAll_identify s ⟨t, p, cs⟩
    simp only at h
    omega
  · omega
  · cases n <;> simp only [Node.size] <;> omega

/-- The ids that headings have. -/
def presentIds (forest : List Node) : List String :=
  (Node.elementsAll forest).filterMap fun e => if e.headingLevel?.isSome then e.id? else none

/-- Replaces the children of a node; a text has none. -/
def withChildren (f : List Node → List Node) : Node → Node
  | .root cs => .root (f cs)
  | .element t p cs => .element t p (f cs)
  | .text s => .text s

/-- Gives ids to the headings below a node. The ids that headings have are taken from the start. -/
def assign (tree : Node) : Node × List Entry :=
  let found := assignAll ((presentIds tree.children).foldl Slugger.reserve .empty) tree.children
  (withChildren (fun _ => found.nodes) tree, found.entries)

/-- The id of a heading that links to itself: one of level 1 to 5. -/
def anchorId? (e : Element) : Option String := if e.headingLevel?.any (· ≤ 5) then e.id? else none

mutual

/-- Makes the headings of a node links to themselves, and counts them. -/
def anchor : Node → Node × Nat
  | .element t p cs =>
    let (inner, n) := anchorAll cs
    match anchorId? ⟨t, p, cs⟩ with
    | some id => (.element t p [.element "a" (.ofList [("href", .text ("#" ++ id))]) inner], n + 1)
    | none => (.element t p inner, n)
  | n => (n, 0)

/-- Makes the headings of a forest links to themselves. -/
def anchorAll : List Node → List Node × Nat
  | [] => ([], 0)
  | n :: ns => ((anchor n).1 :: (anchorAll ns).1, (anchor n).2 + (anchorAll ns).2)

end

/-- Makes the headings below a node links to themselves, and counts them. -/
def injectAnchors (tree : Node) : Node × Nat :=
  (withChildren (fun cs => (anchorAll cs).1) tree, (anchorAll tree.children).2)

end Folio.Heading
