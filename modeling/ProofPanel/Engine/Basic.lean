import ProofPanel.Backend
import ProofPanel.Config
import ProofPanel.Cursor
import ProofPanel.Diagnostic.Relevant
import ProofPanel.Message

/-!
# The engine's state

What the engine has accepted from the editor and the backend, and the one goal fetch whose answer
it still awaits.
-/
namespace ProofPanel

/-- What is shown, as far as it has been accepted. -/
structure View where
  stopped : Bool := false
  fileName : Option String := none
  position : Option Position := none
  goal : Option String := none
  /-- The diagnostics at the cursor; there are none before the first location. -/
  messages : Option (List Diagnostic) := none
  mode : Mode := .allMessages
deriving DecidableEq

def View.location? (v : View) : Option Location := do
  return .ofPosition (← v.fileName) (← v.position)

def View.snapshot (v : View) : Snapshot where
  stopped := v.stopped
  mode := v.mode
  location := v.location?
  goal := v.goal
  messages := v.messages.getD []

structure Reasons where
  moved : Bool := false
  messagesChanged : Bool := false
  /-- Something has to be drawn or said even if nothing changed. -/
  forced : Bool := false
deriving DecidableEq

def Reasons.merge (a b : Reasons) : Reasons where
  moved := a.moved || b.moved
  messagesChanged := a.messagesChanged || b.messagesChanged
  forced := a.forced || b.forced

structure Fetch where
  ticket : Ticket
  reasons : Reasons
deriving DecidableEq

structure Engine where
  selector : Selector := {}
  view : View := {}
  /-- The backend's last report on the whole workspace. -/
  diagnostics : List Diagnostic := []
  config : Config := {}
  nextTicket : Ticket := 0
  pending : Option Fetch := none
  /-- Whether anyone hears the engine; disposing it ends that. -/
  publishing : Bool := true

namespace Engine

def location? (e : Engine) : Option Location := e.view.location?

def snapshot (e : Engine) : Snapshot := e.view.snapshot

def pendingTicket? (e : Engine) : Option Ticket := e.pending.map (·.ticket)

def relevantAt (e : Engine) (l : Location) : List Diagnostic :=
  Diagnostic.relevant e.diagnostics l e.view.mode e.config.allErrorsOnLine

def follow (e : Engine) : Option Cursor → Engine × Bool
  | none => (e, false)
  | some c =>
    if e.selector.follows c then
      ({ e with view := { e.view with fileName := some c.fileName, position := some c.position } },
       e.view.fileName != some c.fileName || e.view.position != some c.position)
    else (e, false)

/-- Accepts the diagnostics at the cursor if they differ from those accepted last, and tells
whether they do. Nothing is accepted while the engine is stopped or knows no location. -/
def acceptMessages (e : Engine) : Engine × Bool :=
  if e.view.stopped then (e, false)
  else
    match e.location? with
    | none => (e, false)
    | some l =>
      let messages := e.relevantAt l
      if e.view.messages.any (Diagnostic.sameList · messages) then (e, false)
      else ({ e with view := { e.view with messages := some messages } }, true)

def acceptGoal (e : Engine) (goal : Option String) : Engine × Bool :=
  ({ e with view := { e.view with goal } }, e.view.goal != goal)

end Engine

end ProofPanel
