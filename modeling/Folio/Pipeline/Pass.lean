import Folio.Failure

/-!
# Passes

The steps that a document goes through, before it is rendered and after. Some steps after it depend on others, and a
list of steps is accepted only if it keeps their order.
-/

namespace Folio.Pipeline

/-- The steps before a document is rendered. -/
inductive MarkdownPass where
  | includeFiles
  | warnLevelOneHeadings
  | estimateReadingTime
deriving DecidableEq, Repr

namespace MarkdownPass

def name : MarkdownPass → String
  | includeFiles => "include-files"
  | warnLevelOneHeadings => "warn-level-one-headings"
  | estimateReadingTime => "estimate-reading-time"

/-- All steps in their usual order. -/
def all : List MarkdownPass := [includeFiles, warnLevelOneHeadings, estimateReadingTime]

def ofName? (s : String) : Option MarkdownPass := all.find? fun p => p.name = s

end MarkdownPass

/-- The steps after a document is rendered. -/
inductive HtmlPass where
  | headingIds
  | headingAnchors
  | highlight
  | codeCopy
  | sections
  | title
deriving DecidableEq, Repr

namespace HtmlPass

def name : HtmlPass → String
  | headingIds => "heading-ids"
  | headingAnchors => "heading-anchors"
  | highlight => "highlight"
  | codeCopy => "code-copy"
  | sections => "sections"
  | title => "title"

/-- All steps in their usual order. -/
def all : List HtmlPass := [headingIds, headingAnchors, highlight, codeCopy, sections, title]

def ofName? (s : String) : Option HtmlPass := all.find? fun p => p.name = s

/-- The step that must have come before. -/
def requires? : HtmlPass → Option HtmlPass
  | headingAnchors => some headingIds
  | _ => none

/-- The step that must not come later. -/
def after? : HtmlPass → Option HtmlPass
  | codeCopy => some highlight
  | title => some sections
  | _ => none

/-- The step that a step lacks, between the steps before it and those behind it. -/
def lacks? (before behind : List HtmlPass) (p : HtmlPass) : Option HtmlPass :=
  match p.requires?.filter fun r => !before.contains r with
  | some r => some r
  | none => p.after?.filter fun a => behind.contains a

end HtmlPass

/-- The first step of a list that lacks another one, behind the steps before it. -/
def misplaced? (before : List HtmlPass) : List HtmlPass → Option (HtmlPass × HtmlPass)
  | [] => none
  | p :: ps =>
    match p.lacks? before ps with
    | some q => some (p, q)
    | none => misplaced? (before ++ [p]) ps

/-- Accepts a list of steps that keeps their order. -/
def validateOrder (ps : List HtmlPass) : Except PipelineError Unit :=
  match misplaced? [] ps with
  | some (p, q) => .error (.passOrder p.name q.name)
  | none => .ok ()

end Folio.Pipeline
