import Folio.Text.Trim
import Folio.Text.Case

/-!
# Ids of headings

A heading may end in an id of its own, `{#id}`. Other headings get a slug of their text; a `Slugger` keeps the ids
that are taken, and puts a number behind a slug that is.
-/

namespace Folio

open Folio.Text

namespace Slug

/-- Combining marks that a slug keeps. -/
def markRanges : Ranges :=
  [(0x0300, 0x036F), (0x0483, 0x0489), (0x0591, 0x05C7), (0x0610, 0x061A), (0x064B, 0x065F), (0x0900, 0x0903),
    (0x093A, 0x094F), (0x0951, 0x0957), (0x0962, 0x0963), (0x0E31, 0x0E3A), (0x0E47, 0x0E4E), (0x1AB0, 0x1AFF),
    (0x1DC0, 0x1DFF), (0x20D0, 0x20FF), (0x3099, 0x309A), (0xFE20, 0xFE2F)]

/-- The characters of ids: ASCII letters and digits, hyphen and underscore. -/
def isIdChar (c : Char) : Bool := c.isAlphanum || c = '-' || c = '_'

/-- What a character of a heading leaves in its slug: letters, digits, marks, hyphen and underscore in lower case,
a hyphen for a space, and nothing for any other character. -/
def slugChar (c : Char) : List Char :=
  if isIdChar c then [c.toLower]
  else if c = ' ' then ['-']
  else if 128 ≤ c.toNat && (isLetter c || markRanges.contains c.toNat) then lowerChar c
  else []

/-- The slug of a text before numbers are added. -/
def base (text : String) : String :=
  match text.toList.flatMap slugChar with
  | [] => "heading"
  | cs => String.ofList cs

/-- Splits at the last `{#`. -/
def splitOpening? : List Char → Option (List Char × List Char)
  | [] => none
  | c :: s =>
    match splitOpening? s with
    | some (before, id) => some (c :: before, id)
    | none =>
      match c, s with
      | '\x7b', '#' :: id => some ([], id)
      | _, _ => none

/-- Splits the id `{#id}` off the end of a text: the text without it and the id. -/
def customId? (text : List Char) : Option (List Char × List Char) :=
  match (trimEnd text).reverse with
  | '\x7d' :: inner =>
    match splitOpening? inner.reverse with
    | some (before, id) => if !id.isEmpty && id.all isIdChar then some (trimEnd before, id) else none
    | none => none
  | _ => none

/-- The text without its id, and the id if there is one. -/
def extractCustomId (text : String) : String × Option String :=
  match customId? text.toList with
  | some (before, id) => (String.ofList before, some (String.ofList id))
  | none => (text, none)

end Slug

/-- The ids that are taken, each with the number that was last put behind it. -/
structure Slugger where
  counts : List (String × Nat)
deriving Repr

namespace Slugger

def empty : Slugger := ⟨[]⟩

def isTaken (s : Slugger) (id : String) : Bool := (s.counts.lookup id).isSome

/-- A slug with a number behind it. -/
def numbered (base : String) (n : Nat) : String := base ++ "-" ++ toString n

/-- The first number above `n` that makes a free slug, looking at no more than `fuel` of them. -/
def freeNumber (s : Slugger) (base : String) (n : Nat) : Nat → Nat
  | 0 => n + 1
  | fuel + 1 => if s.isTaken (numbered base (n + 1)) then s.freeNumber base (n + 1) fuel else n + 1

/-- Sets the number of an id. -/
def put (id : String) (n : Nat) : List (String × Nat) → List (String × Nat)
  | [] => [(id, n)]
  | (i, k) :: cs => if i = id then (i, n) :: cs else (i, k) :: put id n cs

/-- A free slug of a text, which is taken from then on. -/
def slug (s : Slugger) (text : String) : String × Slugger :=
  let base := Slug.base text
  match s.counts.lookup base with
  | none => (base, ⟨put base 0 s.counts⟩)
  | some n =>
    let k := s.freeNumber base n s.counts.length
    let id := numbered base k
    (id, ⟨put id 0 (put base k s.counts)⟩)

/-- Takes an id. -/
def reserve (s : Slugger) (id : String) : Slugger :=
  if s.isTaken id then s else ⟨put id 0 s.counts⟩

end Slugger

end Folio
