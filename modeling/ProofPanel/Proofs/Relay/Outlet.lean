import Mathlib.Data.List.Infix
import ProofPanel.Relay
import ProofPanel.Proofs.Session.Configuration

/-!
# What a message says to the panel

The panel has eleven events: two of its end of the relayed link, for messages and for errors, and
nine of its dispatcher, one for each of the other kinds of message. What the host says comes out at
one of them. A message of the backend comes out as its text reads, and as an error if that is no
JSON; a patch comes out as the configuration that all patches so far come to.
-/
namespace ProofPanel

inductive Recipient
  | linkEnd
  | dispatcher
deriving DecidableEq

namespace HostMessage

def recipient : HostMessage → Recipient
  | .backendMessage _ | .backendFailure _ => .linkEnd
  | _ => .dispatcher

def patch? : HostMessage → Option Patch
  | .configChanged p => some p
  | _ => none

def patches (ms : List HostMessage) : List Patch := ms.filterMap patch?

/-- The error that a message of the backend is heard as: one that it sent, or that of its text. -/
def error? : HostMessage → Option LinkError
  | .backendMessage payload =>
    match Json.parse payload with
    | .ok _ => none
    | .error fault => some (.malformed ("server_event payload: " ++ fault.message))
  | .backendFailure payload =>
    match Json.parse payload with
    | .ok value => some (.remote value)
    | .error fault => some (.malformed ("server_error payload: " ++ fault.message))
  | _ => none

end HostMessage

namespace Relay

/-- The panel's events, by the type of what they are fired with. -/
inductive Outlet : Type → Type
  | messages : Outlet Json
  | errors : Outlet LinkError
  | position : Outlet Location
  | pins : Outlet (List Location)
  | configuration : Outlet Config
  | pause : Outlet Unit
  | continue : Outlet Unit
  | toggleUpdating : Outlet Unit
  | copyToComment : Outlet Unit
  | togglePin : Outlet Unit
  | restart : Outlet Unit

namespace Outlet

variable {α : Type}

def owner : Outlet α → Recipient
  | messages | errors => .linkEnd
  | _ => .dispatcher

/-- All that the messages say at an event, in order. The configuration is said anew with every
patch, each setting as it was last set. -/
def said : Outlet α → List HostMessage → List α
  | messages, ms => ms.filterMap fun
    | .backendMessage payload => (Json.parse payload).toOption
    | _ => none
  | errors, ms => ms.filterMap HostMessage.error?
  | position, ms => ms.filterMap fun
    | .position l => some l
    | _ => none
  | pins, ms => ms.filterMap fun
    | .syncPins ls => some ls
    | _ => none
  | configuration, ms => (HostMessage.patches ms).inits.tail.map Config.settled
  | pause, ms => .replicate (ms.count .pause) ()
  | «continue», ms => .replicate (ms.count .continue) ()
  | toggleUpdating, ms => .replicate (ms.count .toggleUpdating) ()
  | copyToComment, ms => .replicate (ms.count .copyToComment) ()
  | togglePin, ms => .replicate (ms.count .togglePin) ()
  | restart, ms => .replicate (ms.count .restart) ()

end Outlet

inductive Firing
  | arrival (a : Arrival)
  | notice (n : Notice)

namespace Firing

def owner : Firing → Recipient
  | arrival _ => .linkEnd
  | notice _ => .dispatcher

def value? {α : Type} : Firing → Outlet α → Option α
  | arrival (.message value), .messages => some value
  | arrival (.failure err), .errors => some err
  | notice (.position l), .position => some l
  | notice (.pins ls), .pins => some ls
  | notice (.configured c), .configuration => some c
  | notice .pause, .pause => some ()
  | notice .continue, .continue => some ()
  | notice .toggleUpdating, .toggleUpdating => some ()
  | notice .copyToComment, .copyToComment => some ()
  | notice .togglePin, .togglePin => some ()
  | notice .restart, .restart => some ()
  | _, _ => none

end Firing

inductive Conveys (earlier : List Patch) : HostMessage → Firing → Prop
  | message {payload : String} {value : Json} (h : Json.parse payload = .ok value) :
    Conveys earlier (.backendMessage payload) (.arrival (.message value))
  | failure {payload : String} {value : Json} (h : Json.parse payload = .ok value) :
    Conveys earlier (.backendFailure payload) (.arrival (.failure (.remote value)))
  | spoiltMessage {payload : String} {fault : Json.Fault} (h : Json.parse payload = .error fault) :
    Conveys earlier (.backendMessage payload)
      (.arrival (.failure (.malformed ("server_event payload: " ++ fault.message))))
  | spoiltFailure {payload : String} {fault : Json.Fault} (h : Json.parse payload = .error fault) :
    Conveys earlier (.backendFailure payload)
      (.arrival (.failure (.malformed ("server_error payload: " ++ fault.message))))
  | position (l : Location) : Conveys earlier (.position l) (.notice (.position l))
  | pins (ls : List Location) : Conveys earlier (.syncPins ls) (.notice (.pins ls))
  | configuration (p : Patch) :
    Conveys earlier (.configChanged p) (.notice (.configured (Config.settled (earlier ++ [p]))))
  | pause : Conveys earlier .pause (.notice .pause)
  | continue : Conveys earlier .continue (.notice .continue)
  | toggleUpdating : Conveys earlier .toggleUpdating (.notice .toggleUpdating)
  | copyToComment : Conveys earlier .copyToComment (.notice .copyToComment)
  | togglePin : Conveys earlier .togglePin (.notice .togglePin)
  | restart : Conveys earlier .restart (.notice .restart)

/-! ## Who takes a message -/

variable {α : Type} {earlier : List Patch} {m : HostMessage} {f : Firing}

theorem receive?_other (e : PanelEnd) (hm : m.recipient = .dispatcher) : e.receive? m = none := by
  rw [PanelEnd.receive?]
  cases m with
  | backendMessage _ => cases hm
  | backendFailure _ => cases hm
  | _ => exact ite_self none

/-- A live end hears of every message that is for it. -/
theorem receive?_live (earlier : List Patch) (hm : m.recipient = .linkEnd) :
    ∃ a, PanelEnd.receive? {} m = some a ∧ Conveys earlier m (.arrival a) := by
  cases m with
  | backendMessage payload =>
    cases hp : Json.parse payload with
    | ok value => exact ⟨.message value, by simp [PanelEnd.receive?, arrival?, hp], .message hp⟩
    | error fault => exact ⟨_, by simp [PanelEnd.receive?, arrival?, hp], .spoiltMessage hp⟩
  | backendFailure payload =>
    cases hp : Json.parse payload with
    | ok value => exact ⟨_, by simp [PanelEnd.receive?, arrival?, hp], .failure hp⟩
    | error fault => exact ⟨_, by simp [PanelEnd.receive?, arrival?, hp], .spoiltFailure hp⟩
  | _ => cases hm

theorem dispatch_backend (d : Dispatcher) (hm : m.recipient = .linkEnd) :
    d.dispatch m = (d, none) := by
  unfold Dispatcher.dispatch
  cases m with
  | backendMessage _ => exact ite_self (d, none)
  | backendFailure _ => exact ite_self (d, none)
  | _ => cases hm

theorem dispatch_inactive {d : Dispatcher} (hd : d.active = false) (m : HostMessage) :
    d.dispatch m = (d, none) := by
  unfold Dispatcher.dispatch
  rw [hd]
  rfl

/-- An active dispatcher notices every message that is for it. -/
theorem dispatch_notice (earlier : List Patch) (hm : m.recipient = .dispatcher) :
    ∃ n, (Dispatcher.dispatch { config := Config.settled earlier } m).2 = some n ∧
      Conveys earlier m (.notice n) := by
  cases m with
  | configChanged p =>
    refine ⟨.configured ((Config.settled earlier).merge p), rfl, ?_⟩
    rw [← Config.settled_snoc]
    exact .configuration p
  | position l => exact ⟨_, rfl, .position l⟩
  | syncPins ls => exact ⟨_, rfl, .pins ls⟩
  | pause => exact ⟨_, rfl, .pause⟩
  | «continue» => exact ⟨_, rfl, .continue⟩
  | toggleUpdating => exact ⟨_, rfl, .toggleUpdating⟩
  | copyToComment => exact ⟨_, rfl, .copyToComment⟩
  | togglePin => exact ⟨_, rfl, .togglePin⟩
  | restart => exact ⟨_, rfl, .restart⟩
  | backendMessage _ => cases hm
  | backendFailure _ => cases hm

theorem dispatch_settled (earlier : List Patch) (m : HostMessage) :
    (Dispatcher.dispatch { config := Config.settled earlier } m).1 =
      { config := Config.settled (earlier ++ m.patch?.toList) } := by
  cases m with
  | configChanged p =>
    rw [HostMessage.patch?, Option.toList_some, Config.settled_snoc]
    rfl
  | _ => simp [HostMessage.patch?, Dispatcher.dispatch]

theorem exists_conveys (earlier : List Patch) (m : HostMessage) : ∃ f, Conveys earlier m f := by
  cases hm : m.recipient with
  | linkEnd =>
    obtain ⟨a, _, ha⟩ := receive?_live earlier hm
    exact ⟨.arrival a, ha⟩
  | dispatcher =>
    obtain ⟨n, _, hn⟩ := dispatch_notice earlier hm
    exact ⟨.notice n, hn⟩

/-! ## What is said at an event -/

theorem Conveys.owner_eq (h : Conveys earlier m f) : f.owner = m.recipient := by
  cases h <;> rfl

theorem Firing.value?_other (o : Outlet α) (h : f.owner ≠ o.owner) : f.value? o = none := by
  cases f with
  | arrival a => cases a <;> cases o <;> first | rfl | exact (h rfl).elim
  | notice n => cases n <;> cases o <;> first | rfl | exact (h rfl).elim

theorem patches_snoc (ms : List HostMessage) (m : HostMessage) :
    HostMessage.patches (ms ++ [m]) = HostMessage.patches ms ++ m.patch?.toList := by
  rw [HostMessage.patches, HostMessage.patches, List.filterMap_append]
  cases m <;> rfl

theorem tail_inits_snoc (ps : List Patch) (p : Patch) :
    (ps ++ [p]).inits.tail = ps.inits.tail ++ [ps ++ [p]] := by
  have hne : ps.inits ≠ [] := List.ne_nil_of_mem ((List.mem_inits [] ps).mpr List.nil_prefix)
  rw [List.inits_append, List.tail_append_of_ne_nil hne]
  rfl

/-- A message adds what it says to what has been said. -/
theorem Conveys.said_snoc (h : Conveys earlier m f) (o : Outlet α) (ms : List HostMessage)
    (hms : o.owner = .dispatcher → earlier = HostMessage.patches ms) :
    o.said (ms ++ [m]) = o.said ms ++ (f.value? o).toList := by
  cases o with
  -- the one event that looks back at earlier messages
  | configuration =>
    obtain rfl := hms rfl
    rw [Outlet.said, Outlet.said, patches_snoc]
    cases h with
    | configuration p =>
      rw [HostMessage.patch?, Option.toList_some, tail_inits_snoc, List.map_append]
      rfl
    | _ => simp [HostMessage.patch?, Firing.value?]
  | messages | errors | position | pins =>
    cases h <;> simp [Outlet.said, Firing.value?, HostMessage.error?, Except.toOption, *]
  | _ =>
    cases h <;> simp [Outlet.said, Firing.value?, List.replicate_succ']

theorem Outlet.said_other (o : Outlet α) (ms : List HostMessage) (h : m.recipient ≠ o.owner) :
    o.said (ms ++ [m]) = o.said ms := by
  obtain ⟨f, hf⟩ := exists_conveys (HostMessage.patches ms) m
  have hvalue : f.value? o = none := f.value?_other o (hf.owner_eq ▸ h)
  rw [hf.said_snoc o ms fun _ => rfl, hvalue]
  exact List.append_nil _

end Relay

end ProofPanel
