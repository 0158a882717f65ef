import Folio.Path

/-!
# Files

A file system as far as it is read: what stands at each place, and the directory from which relative paths lead.
-/

namespace Folio

/-- Why what stands at a place cannot be read as text. -/
inductive ReadFailure where
  | directory
  | notText
deriving DecidableEq, Repr

def ReadFailure.message : ReadFailure → String
  | .directory => "Is a directory (os error 21)"
  | .notText => "stream did not contain valid UTF-8"

/-- What stands at a place. -/
inductive StorageEntry where
  | missing
  | unreadable (why : ReadFailure)
  | file (text : String)
deriving DecidableEq, Repr

/-- A file system: the names of the working directory from the top, and the entry at each place. -/
structure Storage where
  workingDirectory : List (List Char)
  entry : List (List Char) → StorageEntry

namespace Storage

/-- A file system without any entry. -/
def nothing : Storage := ⟨[], fun _ => .missing⟩

/-- The entry that a path leads to. The empty path leads nowhere. -/
def look (s : Storage) (p : Path) : StorageEntry :=
  if p.parts.isEmpty then .missing else s.entry (p.walk s.workingDirectory)

end Storage

end Folio
