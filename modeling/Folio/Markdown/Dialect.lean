/-!
# Dialects of Markdown
-/

namespace Folio.Markdown

/-- What a document may use beyond plain Markdown: tables, footnotes, task lists, strikethrough and bare links
(`gfm`), a block of data at its start (`frontmatter`), markup (`html`), and formulas (`math`). -/
structure Dialect where
  gfm : Bool := true
  frontmatter : Bool := true
  html : Bool := true
  math : Bool := false
deriving DecidableEq, Repr, Inhabited

end Folio.Markdown
