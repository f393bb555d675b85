import ProofPanel.Snapshot
import ProofPanel.Text.Path

/-!
# A snapshot as plain text
-/
namespace ProofPanel.PlainText

def message (d : Diagnostic) : String :=
  Path.baseName d.fileName ++ ":" ++ toString d.line ++ ":" ++ toString d.column ++ ": " ++
    d.severity.name ++ " " ++ d.caption ++ "\n" ++ d.text

/-- The goal, whatever the mode, and the diagnostics below it. -/
def render (s : Snapshot) : String :=
  (match s.goal with
    | none | some "" => ""
    | some goal => "Tactic State:\n" ++ goal ++ "\n") ++
  "\n".intercalate (s.messages.map message)

end ProofPanel.PlainText
