import Folio.Markdown.Glyph
import Folio.Text.Trim

/-!
# Addresses in running text

Addresses that stand between angle brackets, and addresses that stand bare: those with a protocol, those that start
with `www.`, and those of mailboxes. Punctuation at the end of a bare address is no part of it.
-/

namespace Folio.Markdown.Address

open Folio.Text

/-- Is a character one that ends an address? -/
def isEnd (c : Char) : Bool := c = '\n' || c = '\r' || isBlank c

/-- The marks that are no part of an address if nothing else follows them. -/
def isTrailing (c : Char) : Bool := "!\"')*,.:;?_~".toList.contains c

/-- Do glyphs have nothing but trailing marks before the end of the address? A character reference is such a mark;
in one, at least one letter comes before the semicolon. -/
def isTrail (inReference : Option Bool) : List Glyph → Bool
  | [] => inReference.isNone
  | g :: gs =>
    match inReference with
    | some named =>
      if g.char.isAlpha then isTrail (some true) gs else named && g.char = ';' && isTrail none gs
    | none =>
      if isTrailing g.char then isTrail none gs
      else if g.char = '&' then isTrail (some false) gs
      else if g.char = ']' then
        gs.head?.all (fun h => h.char = '(' || h.char = '[' || isEnd h.char) || isTrail none gs
      else g.char = '<' || isEnd g.char

/-- What has been seen of a domain: underscores in its last two parts, and whether there is a letter or a digit. -/
structure DomainState where
  beforeLast : Bool := false
  last : Bool := false
  named : Bool := false

/-- No underscore is allowed in the last two parts of a domain. -/
def DomainState.isValid (s : DomainState) : Bool := s.named && !s.beforeLast && !s.last

/-- Splits off a domain. -/
def domain (s : DomainState) : List Glyph → Option (List Glyph × List Glyph)
  | [] => if s.isValid then some ([], []) else none
  | g :: gs =>
    let more (s : DomainState) := (domain s gs).map fun (d, rest) => (g :: d, rest)
    if g.char = '.' || g.char = '_' then
      if isTrail none (g :: gs) then if s.isValid then some ([], g :: gs) else none
      else if g.char = '_' then more { s with last := true }
      else more { s with beforeLast := s.last, last := false }
    else if g.char = '-' then more s
    else if isEnd g.char || isPunctuation g.char then if s.isValid then some ([], g :: gs) else none
    else more { s with named := true }

/-- Splits off what belongs to an address behind its domain; parentheses are balanced. -/
def path (opened closed : Nat) : List Glyph → List Glyph × List Glyph
  | [] => ([], [])
  | g :: gs =>
    let more (opened closed : Nat) := let (p, rest) := path opened closed gs; (g :: p, rest)
    if g.char = '(' then more (opened + 1) closed
    else if g.char = ')' && closed < opened then more opened (closed + 1)
    else if isTrailing g.char || g.char = '&' || g.char = '<' || g.char = ']' then
      if isTrail none (g :: gs) then ([], g :: gs)
      else more opened (if g.char = ')' then closed + 1 else closed)
    else if isEnd g.char then ([], g :: gs)
    else more opened closed

/-- A bare address: the text in front of it in its target, its glyphs, and those behind it. -/
structure Bare where
  before : String
  glyphs : List Glyph
  rest : List Glyph

/-- Reads the domain and the path of an address behind what has been read. -/
def host? (before : String) (start gs : List Glyph) : Option Bare :=
  (domain {} gs).map fun (d, rest) =>
    let (p, rest) := path 0 0 rest
    ⟨before, start ++ d ++ p, rest⟩

/-- Reads an address with a protocol. It does not follow a letter. -/
def withProtocol? (previous : Option Char) (gs : List Glyph) : Option Bare :=
  let name := gs.takeWhile fun g => g.char.isAlpha
  let rest := gs.drop name.length
  if previous.any Char.isAlpha then none
  else if !(["http", "https"].contains (String.ofList (name.map fun g => g.char.toLower))) then none
  else if chars (rest.take 3) ≠ [':', '/', '/'] then none
  else host? "" (name ++ rest.take 3) (rest.drop 3)

/-- Reads an address that starts with `www.`. -/
def withoutProtocol? (previous : Option Char) (gs : List Glyph) : Option Bare :=
  let mayStart := previous.all fun c => "\t\n\r (*_[]~".toList.contains c
  if mayStart && (gs.take 4).map (fun g => g.char.toLower) = ['w', 'w', 'w', '.'] && 4 < gs.length then
    host? "http://" [] gs
  else none

/-- Is a character one of the name of a bare mailbox? -/
def isMailboxChar (c : Char) : Bool := c.isAlphanum || c = '+' || c = '-' || c = '.' || c = '_'

/-- Splits off the domain of a bare mailbox. -/
def mailDomain (slashes : Bool) : List Glyph → List Glyph × List Glyph
  | [] => ([], [])
  | g :: gs =>
    let dotted := g.char = '.' && gs.head?.any fun h => h.char.isAlphanum
    if g.char.isAlphanum || g.char = '-' || g.char = '_' || (slashes && g.char = '/') || dotted then
      let (d, rest) := mailDomain slashes gs
      (g :: d, rest)
    else ([], g :: gs)

/-- A bare mailbox must have a dot in its domain, and a letter at its end. -/
def isMailDomain (d : List Glyph) : Bool :=
  d.any (·.char = '.') && d.getLast?.any fun g => g.char.isAlpha

/-- A part of a text: an address of a mailbox, with what its target has in front, or other glyphs. -/
inductive MailPart where
  | other (glyphs : List Glyph)
  | mail (before : String) (glyphs : List Glyph)

/-- The mailbox around an at sign: what its target has in front, its glyphs, what comes before it in reverse, and
what comes behind it. -/
def mailAround? (seen : List Glyph) (sign : Glyph) (gs : List Glyph) :
    Option (String × List Glyph × List Glyph × List Glyph) :=
  let name := seen.takeWhile fun g => isMailboxChar g.char
  let front := seen.drop name.length
  if name.isEmpty || front.head?.any (·.char = '/') then none
  else
    let scheme := (front.drop 1).takeWhile fun g => g.char.isAlphanum
    let schemeName := String.ofList (scheme.reverse.map fun g => g.char.toLower)
    let named := front.head?.any (·.char = ':') && (schemeName = "mailto" || schemeName = "xmpp")
    let before := if named then front.take (1 + scheme.length) else []
    let (d, rest) := mailDomain (named && schemeName = "xmpp") gs
    if isMailDomain d then
      some (if named then "" else "mailto:", before.reverse ++ name.reverse ++ sign :: d,
        front.drop before.length, rest)
    else none

/-- Finds the bare mailboxes of a text. -/
def mailParts : Nat → List Glyph → List Glyph → List MailPart
  | 0, seen, gs => [.other (seen.reverse ++ gs)]
  | _ + 1, seen, [] => [.other seen.reverse]
  | n + 1, seen, g :: gs =>
    match if g.char = '@' then mailAround? seen g gs else none with
    | some (before, glyphs, front, rest) =>
      .other front.reverse :: .mail before glyphs :: mailParts n (rest.take 1) (rest.drop 1)
    | none => mailParts n (g :: seen) gs

/-- The scheme at the start of an address has from 2 to 32 characters. -/
def isScheme (s : List Char) : Bool :=
  s.head?.any Char.isAlpha && 2 ≤ s.length && s.length ≤ 32 &&
    s.all fun c => c.isAlphanum || c = '+' || c = '-' || c = '.'

/-- Is a part of the domain of a mailbox well formed? It has from 1 to 63 characters. -/
def isDomainLabel (s : List Char) : Bool :=
  s.head?.any Char.isAlphanum && s.getLast?.any Char.isAlphanum && s.length ≤ 63 &&
    s.all fun c => c.isAlphanum || c = '-'

/-- Is a text the address of a mailbox? -/
def isMailbox (s : List Char) : Bool :=
  let name := s.takeWhile (· ≠ '@')
  !name.isEmpty && name.all (fun c => c.isAlphanum || "#$%&'*+-/=?^_\x60\x7b|\x7d~.!".toList.contains c) &&
    name.length < s.length && (splitOn '.' (s.drop (name.length + 1))).all isDomainLabel

/-- Is a text an address with a scheme? -/
def isUri (s : List Char) : Bool :=
  let scheme := s.takeWhile (· ≠ ':')
  isScheme scheme && scheme.length < s.length && s.all fun c => !(isAsciiControl c || c = ' ' || c = '<')

/-- Reads an address in angle brackets behind the opening one: what its target has in front, its glyphs, the closing
bracket and the glyphs behind it. -/
def enclosed? (gs : List Glyph) : Option (String × List Glyph × Glyph × List Glyph) :=
  let inside := gs.takeWhile (·.char ≠ '>')
  match gs.drop inside.length with
  | g :: rest =>
    if isUri (chars inside) then some ("", inside, g, rest)
    else if isMailbox (chars inside) then some ("mailto:", inside, g, rest)
    else none
  | [] => none

end Folio.Markdown.Address
