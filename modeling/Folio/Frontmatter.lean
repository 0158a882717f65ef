import Folio.Frontmatter.Block
import Folio.Frontmatter.ReadingTime
import Folio.Calendar.Reader
import Folio.Text.Quoted
import Folio.Yaml.Resolve

/-!
# Metadata of posts

`Frontmatter.extract` reads the metadata block of a post as a map of values, `Frontmatter.ofValue` reads the
fields that a post has to have out of such a map, and `Frontmatter.toValue` writes them back.
-/

namespace Folio

open Folio.Text

/-- Why the metadata of a post cannot be read. -/
inductive FrontmatterError where
  | unterminated
  | malformed
  | notMap
  | schema (detail : String)
deriving DecidableEq, Repr

def FrontmatterError.message : FrontmatterError → String
  | .unterminated => "Unterminated YAML frontmatter block: expected closing '---'"
  | .malformed => "Frontmatter parse error"
  | .notMap => "Frontmatter must be a YAML mapping at the top level"
  | .schema detail => "Frontmatter does not match the post schema: " ++ detail

/-- The metadata of a post. -/
structure Frontmatter where
  title : String
  pubDate : Date
  summary : String
  draft : Option Bool
  estimation : Option ReadingTime

namespace Frontmatter

/-- What the front of a document holds: whether there is a metadata block, its entries, and the number of bytes
in front of the body. -/
structure Extraction where
  present : Bool
  entries : List (String × Value)
  bodyStart : Nat

/-- The entries of a metadata block. A block without content has none. -/
def entriesOf (text : List Char) : Except FrontmatterError (List (String × Value)) :=
  if text.all isBlank then .ok []
  else
    match Yaml.read? (String.ofList text) with
    | none => .error .malformed
    | some .null => .ok []
    | some (.map entries) => .ok entries
    | some _ => .error .notMap

/-- Reads the metadata block of a document. -/
def extract (input : String) : Except FrontmatterError Extraction :=
  match Block.find input.toList with
  | .absent => .ok ⟨false, [], 0⟩
  | .unterminated => .error .unterminated
  | .found b => do
    let entries ← entriesOf b.text
    .ok ⟨true, entries, byteSize input.toList - byteSize b.body⟩

/-! ### The fields of a post -/

/-- How a message names the kind of a value. -/
def describe : Value → String
  | .null => "null"
  | .bool b => "boolean `" ++ (if b then "true" else "false") ++ "`"
  | .int n => "integer `" ++ toString n ++ "`"
  | .float x => "floating point `" ++ Decimal.withPoint x ++ "`"
  | .text s => "string " ++ quoteString s
  | .list _ => "sequence"
  | .map _ => "map"

/-- Why a value does not fit a field. -/
inductive SchemaError where
  | wrongType (v : Value) (expected : String)
  | wrongValue (v : Value) (expected : String)
  | missing (field : String)
  | wrongLength (n : Nat) (expected : String)
  | badDate (text : String) (reason : Date.ReadError)

def SchemaError.message : SchemaError → String
  | .wrongType v expected => "invalid type: " ++ describe v ++ ", expected " ++ expected
  | .wrongValue v expected => "invalid value: " ++ describe v ++ ", expected " ++ expected
  | .missing field => "missing field `" ++ field ++ "`"
  | .wrongLength n expected => "invalid length " ++ toString n ++ ", expected " ++ expected
  | .badDate text reason => "invalid pubDate `" ++ text ++ "`: " ++ reason.message

def textField : Value → Except SchemaError String
  | .text s => .ok s
  | v => .error (.wrongType v "a string")

def boolField : Value → Except SchemaError Bool
  | .bool b => .ok b
  | v => .error (.wrongType v "a boolean")

def floatField : Value → Except SchemaError Float
  | .float x => .ok x
  | .int n => .ok (Float.ofInt n)
  | v => .error (.wrongType v "f64")

def countField : Value → Except SchemaError Nat
  | .int n => if 0 ≤ n then .ok n.toNat else .error (.wrongValue (.int n) "usize")
  | v => .error (.wrongType v "usize")

def dateField (v : Value) : Except SchemaError Date := do
  let s ← textField v
  let s := trim s.toList
  match Date.read s with
  | .ok d => .ok d
  | .error e => .error (.badDate (String.ofList s) e)

/-- A field that may be absent; null counts as absent. -/
def optionally {α : Type} (read : Value → Except SchemaError α) : Value → Except SchemaError (Option α)
  | .null => .ok none
  | v => (read v).map some

/-- Reads an entry of a map if it is there. -/
def entry {α : Type} (es : List (String × Value)) (name : String) (read : Value → Except SchemaError α) :
    Except SchemaError (Option α) :=
  match Value.get? name es with
  | some v => (read v).map some
  | none => .ok none

/-- Insists on an entry. -/
def required {α : Type} (name : String) : Option α → Except SchemaError α
  | some a => .ok a
  | none => .error (.missing name)

/-- Insists on an element of a list that stands for a record. -/
def element {α : Type} (vs : List Value) (n : Nat) (expected : String) (read : Value → Except SchemaError α) :
    Except SchemaError α :=
  match vs[n]? with
  | some v => read v
  | none => .error (.wrongLength n expected)

/-- Refuses further elements. -/
def noMore (vs : List Value) (n : Nat) : Except SchemaError Unit :=
  if n < vs.length then .error (.wrongLength vs.length "fewer elements in array") else .ok ()

/-- A reading time is a map with its fields or a list of them. All entries are looked at, in the order of their
names, before one is found missing. -/
def readingTimeField : Value → Except SchemaError ReadingTime
  | .map es => do
    let minutes ← entry es "minutes" floatField
    let text ← entry es "text" textField
    let time ← entry es "time" floatField
    let words ← entry es "words" countField
    let text ← required "text" text
    let minutes ← required "minutes" minutes
    let time ← required "time" time
    let words ← required "words" words
    .ok { text, minutes, time, words }
  | .list vs => do
    let expected := "struct ReadingTime with 4 elements"
    let text ← element vs 0 expected textField
    let minutes ← element vs 1 expected floatField
    let time ← element vs 2 expected floatField
    let words ← element vs 3 expected countField
    noMore vs 4
    .ok { text, minutes, time, words }
  | v => .error (.wrongType v "struct ReadingTime")

/-- Reads the fields of a post out of a map or a list of them. -/
def readFields : Value → Except SchemaError Frontmatter
  | .map es => do
    let draft ← entry es "draft" (optionally boolField)
    let estimation ← entry es "estimation" (optionally readingTimeField)
    let pubDate ← entry es "pubDate" dateField
    let summary ← entry es "summary" textField
    let title ← entry es "title" textField
    let title ← required "title" title
    let pubDate ← required "pubDate" pubDate
    let summary ← required "summary" summary
    .ok { title, pubDate, summary, draft := draft.join, estimation := estimation.join }
  | .list vs => do
    let expected := "struct Frontmatter with 5 elements"
    let title ← element vs 0 expected textField
    let pubDate ← element vs 1 expected dateField
    let summary ← element vs 2 expected textField
    let draft ← match vs[3]? with
      | some v => optionally boolField v
      | none => .ok none
    let estimation ← match vs[4]? with
      | some v => optionally readingTimeField v
      | none => .ok none
    noMore vs 5
    .ok { title, pubDate, summary, draft, estimation }
  | v => .error (.wrongType v "struct Frontmatter")

/-- Reads the metadata of a post. -/
def ofValue (v : Value) : Except FrontmatterError Frontmatter :=
  match readFields v with
  | .ok f => .ok f
  | .error e => .error (.schema e.message)

def isDraft (f : Frontmatter) : Bool := f.draft.getD false

/-- A number as a value; what is not a finite number has no written form and becomes null. -/
def floatValue (x : Float) : Value := if x.isFinite then .float x else .null

def readingTimeValue (t : ReadingTime) : Value :=
  .map [("text", .text t.text), ("minutes", floatValue t.minutes), ("time", floatValue t.time),
    ("words", .int t.words)]

/-- The metadata as a map; fields that are not set are left out. -/
def toValue (f : Frontmatter) : Value :=
  .map ([("title", .text f.title), ("pubDate", .text f.pubDate.text), ("summary", .text f.summary)] ++
    (f.draft.map fun b => ("draft", .bool b)).toList ++
    (f.estimation.map fun t => ("estimation", readingTimeValue t)).toList)

end Frontmatter

end Folio
