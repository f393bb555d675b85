import ProofPanel.Position
import ProofPanel.Text.Path

/-!
# The editor's cursor

The active cursor, and which documents are followed.
-/
namespace ProofPanel

structure Cursor where
  fileName : String
  language : String
  position : Position
deriving DecidableEq

/-- The languages and file extensions that are followed; without any, every document is. -/
structure Selector where
  languages : List String := []
  extensions : List String := []
deriving DecidableEq

namespace Selector

def follows (s : Selector) (c : Cursor) : Bool :=
  (s.languages.isEmpty && s.extensions.isEmpty) || s.languages.contains c.language ||
    match Path.extension? c.fileName with
    | none => false
    | some extension => s.extensions.contains (.ofList extension)

end Selector

end ProofPanel
