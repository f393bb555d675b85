/-!
# Paths

The last part of a slash-separated path, and the extension of that part.
-/
namespace ProofPanel.Path

def parts (path : String) : List (List Char) :=
  (path.toList.splitOn '/').filter fun part => !part.isEmpty && part != ['.']

/-- The last part of a path, unless it goes up to a parent. -/
def fileName? (path : String) : Option (List Char) :=
  (parts path).getLast?.filter (· != ['.', '.'])

/-- What follows the last dot of the file name, if anything stands before that dot. -/
def extension? (path : String) : Option (List Char) := do
  let name ← fileName? path
  let after := name.reverse.takeWhile (· != '.')
  -- The name as far as its last dot, without the dot.
  let before := name.take (name.length - after.length - 1)
  if before.isEmpty then none else some after.reverse

def baseName (path : String) : String :=
  match fileName? path with
  | some name => .ofList name
  | none => path

end ProofPanel.Path
