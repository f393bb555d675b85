import ProofPanel.Diagnostic
import ProofPanel.Position

/-!
# Snapshots

Everything the panel shows, copied out of the engine at one moment.
-/
namespace ProofPanel

/-- What the panel shows: the goal at the cursor with the diagnostics next to it, or every
diagnostic of the file and no goal. -/
inductive Mode
  | onlyState
  | allMessages
deriving DecidableEq

namespace Mode

def name : Mode → String
  | .onlyState => "only_state"
  | .allMessages => "all_messages"

def named? : String → Option Mode
  | "only_state" => some .onlyState
  | "all_messages" => some .allMessages
  | _ => none

def toJson (m : Mode) : Json := .str m.name

def ofJson? : Json → Option Mode := Json.constant? .alone named?

end Mode

structure Snapshot where
  stopped : Bool := false
  mode : Mode := .allMessages
  location : Option Location := none
  goal : Option String := none
  messages : List Diagnostic := []
deriving DecidableEq

namespace Snapshot

def fileName? (s : Snapshot) : Option String := s.location.map (·.fileName)

def shownGoal? (s : Snapshot) : Option String :=
  s.goal.filter fun goal => s.mode = .onlyState && goal != ""

def showsGoal (s : Snapshot) : Bool := s.shownGoal?.isSome

def toJson (s : Snapshot) : Json := .object
  [("stopped", .bool s.stopped), ("displayMode", s.mode.toJson),
   ("location", (s.location.map Location.toJson).getD .null),
   ("goalState", (s.goal.map Json.str).getD .null),
   ("messages", Diagnostic.listToJson s.messages)]

def ofJson? : Json → Option Snapshot := Json.record do
  let stopped ← Json.field "stopped" Json.asBool?
  let mode ← Json.field "displayMode" Mode.ofJson?
  let location ← Json.nullable "location" Location.ofJson?
  let goal ← Json.nullable "goalState" Json.asString?
  let messages ← Json.field "messages" (Json.listOf? (Diagnostic.ofJson? .alone))
  return { stopped, mode, location, goal, messages }

end Snapshot

end ProofPanel
