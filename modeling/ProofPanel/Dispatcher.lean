import ProofPanel.Message

/-!
# The panel's dispatcher

Sorts the host's messages by kind and keeps the panel's own copy of the configuration. Messages of
the backend are not for it.
-/
namespace ProofPanel

inductive Notice
  | position (l : Location)
  | pins (ls : List Location)
  | configured (c : Config)
  | pause
  | continue
  | toggleUpdating
  | copyToComment
  | togglePin
  | restart
deriving DecidableEq

structure Dispatcher where
  config : Config := {}
  /-- Whether anything is dispatched; disposing ends that. -/
  active : Bool := true
deriving DecidableEq

namespace Dispatcher

def dispatch (d : Dispatcher) (m : HostMessage) : Dispatcher × Option Notice :=
  if !d.active then (d, none)
  else
    match m with
    | .position l => (d, some (.position l))
    | .configChanged p =>
      let config := d.config.merge p
      ({ d with config }, some (.configured config))
    | .syncPins pins => (d, some (.pins pins))
    | .pause => (d, some .pause)
    | .continue => (d, some .continue)
    | .toggleUpdating => (d, some .toggleUpdating)
    | .copyToComment => (d, some .copyToComment)
    | .togglePin => (d, some .togglePin)
    | .restart => (d, some .restart)
    | .backendMessage _ | .backendFailure _ => (d, none)

def dispose (_ : Dispatcher) : Dispatcher := { config := {}, active := false }

end Dispatcher

end ProofPanel
