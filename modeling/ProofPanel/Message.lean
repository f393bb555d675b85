import ProofPanel.Config
import ProofPanel.Position

/-!
# Messages between host and panel

Host and panel share no memory and talk in JSON objects that name their kind under `command`.
-/
namespace ProofPanel

/-- A message from the host to the panel. Those of the backend travel as JSON text. -/
inductive HostMessage
  | position (location : Location)
  | configChanged (patch : Patch)
  | syncPins (pins : List Location)
  | pause
  | continue
  | toggleUpdating
  | copyToComment
  | togglePin
  | restart
  | backendMessage (payload : String)
  | backendFailure (payload : String)
deriving DecidableEq

namespace HostMessage

def toJson (m : HostMessage) : Json :=
  let tagged (name : String) (members : List (String × Json)) :=
    Json.object (("command", .str name) :: members)
  match m with
  | .position l => tagged "position" l.members
  | .configChanged p => tagged "on_config_change" [("config", p.toJson)]
  | .syncPins pins => tagged "sync_pin" [("pins", .arr (pins.map Location.toJson))]
  | .pause => tagged "pause" []
  | .continue => tagged "continue" []
  | .toggleUpdating => tagged "toggle_updating" []
  | .copyToComment => tagged "copy_to_comment" []
  | .togglePin => tagged "toggle_pin" []
  | .restart => tagged "restart" []
  | .backendMessage payload => tagged "server_event" [("payload", .str payload)]
  | .backendFailure payload => tagged "server_error" [("payload", .str payload)]

def variant? : String → Option (Json.Take HostMessage)
  | "position" => some do return .position (← Location.fields)
  | "on_config_change" => some do return .configChanged (← Json.field "config" Patch.ofJson?)
  | "sync_pin" => some do
    return .syncPins (← Json.field "pins" (Json.listOf? Location.ofJson?))
  | "pause" => some (pure .pause)
  | "continue" => some (pure .continue)
  | "toggle_updating" => some (pure .toggleUpdating)
  | "copy_to_comment" => some (pure .copyToComment)
  | "toggle_pin" => some (pure .togglePin)
  | "restart" => some (pure .restart)
  | "server_event" => some do return .backendMessage (← Json.field "payload" Json.asString?)
  | "server_error" => some do return .backendFailure (← Json.field "payload" Json.asString?)
  | _ => none

def ofJson? : Json → Option HostMessage := Json.tagged "command" variant?

end HostMessage

inductive PanelMessage
  | backendRequest (payload : String)
deriving DecidableEq

namespace PanelMessage

def toJson : PanelMessage → Json
  | .backendRequest payload =>
    .object [("command", .str "server_request"), ("payload", .str payload)]

def variant? : String → Option (Json.Take PanelMessage)
  | "server_request" => some do return .backendRequest (← Json.field "payload" Json.asString?)
  | _ => none

def ofJson? : Json → Option PanelMessage := Json.tagged "command" variant?

end PanelMessage

end ProofPanel
