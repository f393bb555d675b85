import ProofPanel.Json.Reader
import ProofPanel.Link
import ProofPanel.Message

/-!
# Relaying a link to the panel

The panel cannot reach the backend. The host relays what arrives on its link to the panel, and
sends what the panel asks for; at the panel's end the two look like a link again.
-/
namespace ProofPanel.Relay

def ofFailure (err : LinkError) : HostMessage := .backendFailure err.toJson.print

def ofArrival : Arrival → HostMessage
  | .message value => .backendMessage value.print
  | .failure err => ofFailure err

def arrival? : HostMessage → Option Arrival
  | .backendMessage payload =>
    some (match Json.parse payload with
      | .ok value => .message value
      | .error fault => .failure (.malformed ("server_event payload: " ++ fault.message)))
  | .backendFailure payload =>
    some (.failure (match Json.parse payload with
      | .ok value => .remote value
      | .error fault => .malformed ("server_error payload: " ++ fault.message)))
  | _ => none

structure Handled where
  /-- The value that the link is given, be it sent or refused. -/
  given : Option Json := none
  sent : Option Json := none
  /-- The messages to the panel, in order. -/
  posted : List HostMessage := []
  outcome : Except LinkError Unit := .ok ()

/-- Sends on what the panel asks for. `relaying` says whether arrivals are relayed. A failure is
told to the panel as well. -/
def handle (relaying : Bool) (link : Json → Delivery) : PanelMessage → Handled
  | .backendRequest payload =>
    match Json.parse payload with
    | .error fault =>
      let err := .malformed ("server_request payload: " ++ fault.message)
      { posted := [ofFailure err], outcome := .error err }
    | .ok value =>
      let delivery := link value
      let relayed := if relaying then delivery.arrivals.map ofArrival else []
      match delivery.outcome with
      | .ok () => { given := some value, sent := some value, posted := relayed }
      | .error err =>
        { given := some value, posted := relayed ++ [ofFailure err], outcome := .error err }

/-- The panel's end of a relayed link. -/
structure PanelEnd where
  alive : Bool := true
deriving DecidableEq

def PanelEnd.send (e : PanelEnd) (value : Json) : Except LinkError PanelMessage :=
  if e.alive then .ok (.backendRequest value.print) else .error .disposed

def PanelEnd.receive? (e : PanelEnd) (m : HostMessage) : Option Arrival :=
  if e.alive then arrival? m else none

end ProofPanel.Relay
