import ProofPanel.Diagnostic
import ProofPanel.Position

/-!
# The backend's side of a goal fetch
-/
namespace ProofPanel

/-- The number of a goal fetch; later fetches have greater ones. -/
abbrev Ticket := Nat

/-- What the backend knows about a place in a file. -/
structure Record where
  state : Option String := none
  fullId : Option String := none
  type : Option String := none
  doc : Option String := none
deriving DecidableEq

namespace Record

def toJson (r : Record) : Json := .objectOf
  [Json.optional "state" (r.state.map .str), Json.optional "full-id" (r.fullId.map .str),
   Json.optional "type" (r.type.map .str), Json.optional "doc" (r.doc.map .str)]

def ofJson? : Json → Option Record := Json.record do
  let state ← Json.field? "state" Json.asString?
  let fullId ← Json.field? "full-id" Json.asString?
  let type ← Json.field? "type" Json.asString?
  let doc ← Json.field? "doc" Json.asString?
  return { state, fullId, type, doc }

def goal? (r : Record) : Option String := r.state.filter (· != "")

end Record

inductive BackendError
  | request (message : String)
  | disconnected
  | timeout
deriving DecidableEq

def BackendError.message : BackendError → String
  | .request message => "backend request failed: " ++ message
  | .disconnected => "backend connection is closed"
  | .timeout => "backend request timed out"

/-- The backend's answer to a goal fetch; it may know nothing about the place. -/
abbrev Answer := Except BackendError (Option Record)

/-- Whether the backend takes a request. -/
abbrev Verdict := Except BackendError Unit

end ProofPanel
