import Folio.Text.LetterRanges
import Folio.Text.PunctuationRanges
import Folio.Text.PrintRanges

/-!
# Character classes

Letters and numbers, punctuation, white space and unprintable characters in the sense of Unicode. ASCII is
answered without a table.
-/

namespace Folio.Text

/-- Letters and numbers of every script. -/
def isLetter (c : Char) : Bool :=
  if c.toNat < 128 then c.isAlphanum else letterRanges.contains c.toNat

/-- Punctuation and symbols of every script. -/
def isPunctuation (c : Char) : Bool :=
  if c.toNat < 128 then 33 ≤ c.toNat && c.toNat ≤ 126 && !c.isAlphanum else punctuationRanges.contains c.toNat

/-- The code points with the property `White_Space`. -/
def blankRanges : Ranges :=
  [(9, 13), (32, 32), (133, 133), (160, 160), (5760, 5760), (8192, 8202), (8232, 8233), (8239, 8239),
    (8287, 8287), (12288, 12288)]

/-- White space in the sense of Unicode. -/
def isBlank (c : Char) : Bool := blankRanges.contains c.toNat

/-- ASCII punctuation, the characters that a backslash escapes. -/
def isAsciiPunctuation (c : Char) : Bool := c.toNat < 128 && isPunctuation c

/-- ASCII control characters. -/
def isAsciiControl (c : Char) : Bool := c.toNat < 32 || c.toNat == 127

/-- ASCII hexadecimal digits. -/
def isHexDigit (c : Char) : Bool :=
  c.isDigit || ('a' ≤ c && c ≤ 'f') || ('A' ≤ c && c ≤ 'F')

/-- The value of a hexadecimal digit. -/
def hexValue (c : Char) : Nat :=
  if c.isDigit then c.toNat - 48 else if 'a' ≤ c then c.toNat - 87 else c.toNat - 55

/-- Characters that a quotation shows by their code point: hidden ones and those that extend the one before. -/
def isHidden (c : Char) : Bool :=
  if c.toNat < 128 then isAsciiControl c
  else hiddenRanges.contains c.toNat || extendingRanges.contains c.toNat

/-- A letter of the ASCII alphabet is a letter. -/
theorem isLetter_of_isAlphanum {c : Char} (h : c.isAlphanum = true) (hc : c.toNat < 128) : isLetter c = true := by
  simp [isLetter, hc, h]

end Folio.Text
