import ProofPanel.Snapshot

/-!
# The diagnostics at the cursor

The backend reports on the whole workspace. Of that the panel shows either all diagnostics of the
cursor's file, in the order of their positions, or those on the cursor's line, in the order of
their columns and from the nearest one at or left of the cursor on.
-/
namespace ProofPanel.Diagnostic

/-- The nearest of the diagnostics that are not right of the column, its column and its index: the
first of those in the same column. One that stands right at the column is taken at once, and the
first one right of it ends the search. `nearest` is the one so far, `index` that of the next. -/
def nearestLeft (column : Nat) (nearest : Option (Nat × Nat)) (index : Nat) :
    List Diagnostic → Option (Nat × Nat)
  | [] => nearest
  | d :: rest =>
    if column < d.column then nearest
    else if column = d.column then some (d.column, index)
    else
      let nearer := if nearest.all (·.1 < d.column) then some (d.column, index) else nearest
      nearestLeft column nearer (index + 1) rest

/-- Where the diagnostics start that stay for a cursor at the column. There is nothing to cut if
none is at or left of the cursor, or if the nearest one already comes first. -/
def nearestLeftStart (ds : List Diagnostic) (column : Nat) : Option Nat :=
  ((nearestLeft column none 0 ds).map fun (_, index) => index).filter (0 < ·)

def inFile (fileName : String) (d : Diagnostic) : Bool := d.fileName == fileName

def onLine (l : Location) (d : Diagnostic) : Bool := d.fileName == l.fileName && d.line == l.line

def positionLE (a b : Diagnostic) : Bool :=
  a.line < b.line || (a.line == b.line && a.column ≤ b.column)

def columnLE (a b : Diagnostic) : Bool := a.column ≤ b.column

/-- The diagnostics to show for a cursor. `whole` keeps also those left of the nearest one. -/
def relevant (ds : List Diagnostic) (cursor : Location) (mode : Mode) (whole : Bool) :
    List Diagnostic :=
  match mode with
  | .allMessages => (ds.filter (inFile cursor.fileName)).mergeSort positionLE
  | .onlyState =>
    let line := (ds.filter (onLine cursor)).mergeSort columnLE
    if whole then line else line.drop ((nearestLeftStart line cursor.column).getD 0)

end ProofPanel.Diagnostic
