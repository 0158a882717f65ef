import Folio.Text.Trim

/-!
# Reading time

How long a text takes to read at 200 words a minute.
-/

namespace Folio

/-- The reading time of a post: a phrase for readers, minutes, milliseconds, and the words counted. -/
structure ReadingTime where
  text : String
  minutes : Float
  time : Float
  words : Nat

namespace ReadingTime

def wordsPerMinute : Nat := 200

/-- The words of a text: its pieces between white space. -/
def countWords (s : String) : Nat := (Text.words s.toList).length

/-- The reading time of so many words. The phrase rounds up to whole minutes and says at least one. -/
def ofWords (words : Nat) : ReadingTime :=
  let minutes := words.toFloat / wordsPerMinute.toFloat
  let rounded := max ((words + wordsPerMinute - 1) / wordsPerMinute) 1
  { text := toString rounded ++ " min read", minutes, time := (minutes * 60000.0).round, words }

def estimate (s : String) : ReadingTime := ofWords (countWords s)

end ReadingTime

end Folio
