import ProofPanel.Json.Decode

/-!
# Diagnostics

What the backend says about a file: errors, warnings and information, each at a position and with
a text. The end of the range is carried along but does not take part in comparisons.
-/
namespace ProofPanel

inductive Severity
  | error
  | warning
  | information
deriving DecidableEq

namespace Severity

def name : Severity → String
  | .error => "error"
  | .warning => "warning"
  | .information => "information"

def named? : String → Option Severity
  | "error" => some .error
  | "warning" => some .warning
  | "information" => some .information
  | _ => none

def toJson (s : Severity) : Json := .str s.name

def ofJson? (setting : Json.Setting) : Json → Option Severity := Json.constant? setting named?

end Severity

/-- A diagnostic, at a line counted from one and a column counted from zero. -/
structure Diagnostic where
  fileName : String
  line : Nat
  column : Nat
  severity : Severity
  caption : String
  text : String
  endLine : Option Nat := none
  endColumn : Option Nat := none
deriving DecidableEq

namespace Diagnostic

/-- The fields by which diagnostics are compared. -/
def identity (d : Diagnostic) : String × Nat × Nat × Severity × String × String :=
  (d.fileName, d.line, d.column, d.severity, d.caption, d.text)

def sameList (a b : List Diagnostic) : Bool := a.map identity == b.map identity

def toJson (d : Diagnostic) : Json := .objectOf
  [some ("file_name", .str d.fileName), some ("pos_line", .ofNat d.line),
   some ("pos_col", .ofNat d.column), some ("severity", d.severity.toJson),
   some ("caption", .str d.caption), some ("text", .str d.text),
   Json.optional "end_pos_line" (d.endLine.map .ofNat),
   Json.optional "end_pos_col" (d.endColumn.map .ofNat)]

def ofJson? (setting : Json.Setting) : Json → Option Diagnostic := Json.record do
  let fileName ← Json.field "file_name" Json.asString?
  let line ← Json.field "pos_line" Json.nat?
  let column ← Json.field "pos_col" Json.nat?
  let severity ← Json.field "severity" (Severity.ofJson? setting)
  let caption ← Json.fieldOr "caption" "" Json.asString?
  let text ← Json.fieldOr "text" "" Json.asString?
  let endLine ← Json.field? "end_pos_line" Json.nat?
  let endColumn ← Json.field? "end_pos_col" Json.nat?
  return { fileName, line, column, severity, caption, text, endLine, endColumn }

def listToJson (ds : List Diagnostic) : Json := .arr (ds.map toJson)

end Diagnostic

end ProofPanel
