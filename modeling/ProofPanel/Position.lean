import ProofPanel.Json.Decode

/-!
# Positions and locations

Editors count lines from zero, the backend and the panel count them from one; columns start at
zero for all. A `Position` is the editor's, a `Location` the backend's, with the file it is in.
-/
namespace ProofPanel

structure Position where
  line : Nat
  column : Nat
deriving DecidableEq

structure Location where
  fileName : String
  line : Nat
  column : Nat
deriving DecidableEq

namespace Position

def compare (a b : Position) : Ordering :=
  (Ord.compare a.line b.line).then (Ord.compare a.column b.column)

def toJson (p : Position) : Json := .object [("line", .ofNat p.line), ("column", .ofNat p.column)]

def ofJson? : Json → Option Position := Json.record do
  let line ← Json.field "line" Json.nat?
  let column ← Json.field "column" Json.nat?
  return ⟨line, column⟩

end Position

namespace Location

def ofPosition (fileName : String) (p : Position) : Location := ⟨fileName, p.line + 1, p.column⟩

/-- The editor's position; line zero is taken for the first line. -/
def toPosition (l : Location) : Position := ⟨l.line - 1, l.column⟩

def members (l : Location) : List (String × Json) :=
  [("fileName", .str l.fileName), ("line", .ofNat l.line), ("column", .ofNat l.column)]

def toJson (l : Location) : Json := .object l.members

def fields : Json.Take Location := do
  let fileName ← Json.field "fileName" Json.asString?
  let line ← Json.field "line" Json.nat?
  let column ← Json.field "column" Json.nat?
  return ⟨fileName, line, column⟩

def ofJson? : Json → Option Location := Json.record fields

end Location

end ProofPanel
