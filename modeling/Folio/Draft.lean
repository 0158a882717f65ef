import Folio.Include
import Folio.Markdown.Node

/-!
# Drafts

What is done to a document before it is rendered: files are included into blocks of code, headings of level one are
reported, and the time that it takes to read is estimated.
-/

namespace Folio.Draft

open Folio.Markdown

/-- Is a node one whose text begins a line of its own? -/
def isBlock : Markdown.Node → Bool
  | .leaf (.code ..) _ => true
  | .branch .paragraph _ _ | .branch (.heading _) _ _ | .branch (.list ..) _ _ | .branch (.listItem ..) _ _
  | .branch .blockquote _ _ | .branch (.table _) _ _ => true
  | _ => false

/-- The text of a leaf. -/
def leafText : Leaf → String
  | .text v => v
  | .inlineCode v => v
  | .code v _ _ => v
  | .image _ alt _ => alt
  | _ => ""

/-- Begins a line in front of a block, unless there is nothing yet or a line has just begun. The text is held in
reverse. -/
def breakBefore (n : Markdown.Node) (done : List Char) : List Char :=
  if isBlock n && done.head?.any (· ≠ '\n') then '\n' :: done else done

mutual

/-- Adds the text of a node to a text in reverse. -/
def collectText (done : List Char) : Markdown.Node → List Char
  | .leaf l _ => (leafText l).toList.reverse ++ done
  | .branch _ _ cs => collectTextAll done cs

/-- Adds the texts of nodes to a text in reverse. -/
def collectTextAll (done : List Char) : List Markdown.Node → List Char
  | [] => done
  | n :: ns => collectTextAll (collectText (breakBefore n done) n) ns

end

/-- The text of a node, blocks on lines of their own. -/
def plainText (n : Markdown.Node) : String := String.ofList (collectText [] n).reverse

/-- The place of a node in its document. -/
def locate (document : String) (p : Position) : Location := ⟨some document, p.start.line, p.start.column⟩

/-- The warnings about headings of level one at the top level. -/
def levelOneWarnings (document : String) (tree : Markdown.Node) : List Warning :=
  tree.children.filterMap fun n =>
    match n with
    | .branch (.heading 1) p _ => some (.levelOneHeading (plainText n) (p.map (locate document)))
    | _ => none

/-- Fills in the reading time unless it is given. -/
def estimate (tree : Markdown.Node) (f : Frontmatter) : Logged Frontmatter :=
  match f.estimation with
  | some _ => pure f
  | none => do
    let t := ReadingTime.estimate (plainText tree)
    Logged.debug ("estimated " ++ t.text ++ " (" ++ toString t.words ++ " words)")
    pure { f with estimation := some t }

/-- A document after files were included: its nodes, the number of files, and the failure that came first. What was
included before a failure stays. -/
structure Included (α : Type) where
  value : α
  count : Nat
  stop : Option PipelineError

mutual

/-- Includes files into the blocks of code of a node. -/
def includeFiles (files : Storage) (ctx : IncludeContext) : Markdown.Node → Logged (Included Markdown.Node)
  | .leaf (.code value lang (some metaText)) p => do
    match ← Include.read files metaText ctx (p.map (locate ctx.document)) with
    | .error e => pure ⟨.leaf (.code value lang (some metaText)) p, 0, some e⟩
    | .ok none => pure ⟨.leaf (.code value lang (some metaText)) p, 0, none⟩
    | .ok (some text) => pure ⟨.leaf (.code (Include.append value text) lang (some metaText)) p, 1, none⟩
  | .leaf l p => pure ⟨.leaf l p, 0, none⟩
  | .branch kind p cs => do
    let r ← includeAll files ctx cs
    pure ⟨.branch kind p r.value, r.count, r.stop⟩

/-- Includes files into the blocks of code of nodes, from left to right. -/
def includeAll (files : Storage) (ctx : IncludeContext) : List Markdown.Node → Logged (Included (List Markdown.Node))
  | [] => pure ⟨[], 0, none⟩
  | n :: ns => do
    let first ← includeFiles files ctx n
    match first.stop with
    | some e => pure ⟨first.value :: ns, first.count, some e⟩
    | none => do
      let rest ← includeAll files ctx ns
      pure ⟨first.value :: rest.value, first.count + rest.count, rest.stop⟩

end

end Folio.Draft
