import ProofPanel.Relay

/-!
# A host and its panels

One host, its link, and the panel ends that listen to what the host posts. Between them lie two
channels, which either carry a message at once or hold it until they are emptied.
-/
namespace ProofPanel.Relay

inductive Carriage
  | direct
  | held
deriving DecidableEq

structure Network where
  carriage : Carriage
  link : LocalLink := {}
  /-- Whether the host relays what arrives on its link. -/
  relaying : Bool := true
  /-- Whether the panels' event still delivers. -/
  delivering : Bool := true
  /-- Messages to the panels that wait. -/
  toPanels : List HostMessage := []
  /-- Messages to the host that wait. -/
  toHost : List PanelMessage := []
  /-- The panel ends in the order they were connected, by name. -/
  ends : List (String × PanelEnd) := []

inductive NetworkEffect
  | sent (value : Json)
  | toPanel (m : HostMessage)
  | arrived (panelEnd : String) (a : Arrival)

namespace Network

/-- Delivers a message to whoever listens: first it is seen, then each live end takes it. -/
def deliver (n : Network) (m : HostMessage) : List NetworkEffect :=
  if n.delivering then
    .toPanel m :: n.ends.filterMap fun (name, e) => (e.receive? m).map (.arrived name)
  else []

def post (n : Network) (ms : List HostMessage) : Network × List NetworkEffect :=
  match n.carriage with
  | .direct => (n, ms.flatMap n.deliver)
  | .held => ({ n with toPanels := n.toPanels ++ ms }, [])

def arrive (n : Network) (arrivals : List Arrival) : Network × List NetworkEffect :=
  if n.relaying then n.post (arrivals.map ofArrival) else (n, [])

def handle (n : Network) (m : PanelMessage) :
    Network × List NetworkEffect × Except LinkError Unit :=
  let handled := Relay.handle n.relaying n.link.deliver m
  let (n, effects) := n.post handled.posted
  (n, (handled.sent.map .sent).toList ++ effects, handled.outcome)

def pumpHost (n : Network) :
    Network × List NetworkEffect × List (PanelMessage × Except LinkError Unit) :=
  n.toHost.foldl
    (fun (n, effects, outcomes) m =>
      let (n, more, outcome) := n.handle m
      (n, effects ++ more, outcomes ++ [(m, outcome)]))
    ({ n with toHost := [] }, [], [])

def pumpPanels (n : Network) : Network × List NetworkEffect × Nat :=
  ({ n with toPanels := [] }, n.toPanels.flatMap n.deliver, n.toPanels.length)

def poll (n : Network) : Network × List NetworkEffect × Nat :=
  let (link, count, arrivals) := n.link.poll
  let (n, effects) := { n with link }.arrive arrivals
  (n, effects, count)

/-- Connects a panel end; none can be connected once nothing is delivered any more. -/
def connect (n : Network) (name : String) : Network × Except LinkError Unit :=
  if n.delivering then ({ n with ends := n.ends ++ [(name, {})] }, .ok ())
  else (n, .error .disposed)

/-- The end that goes by a name: the last one connected under it. -/
def end? (n : Network) (name : String) : Option PanelEnd :=
  (n.ends.reverse.find? (·.1 == name)).map (·.2)

def send (n : Network) (name : String) (value : Json) : Network × Except LinkError Unit :=
  match n.end? name with
  | none => (n, .ok ())
  | some e =>
    match e.send value with
    | .ok m => ({ n with toHost := n.toHost ++ [m] }, .ok ())
    | .error err => (n, .error err)

def updateLast (name : String) (f : PanelEnd → PanelEnd) :
    List (String × PanelEnd) → List (String × PanelEnd)
  | [] => []
  | (k, e) :: rest =>
    if k == name && !rest.any (·.1 == name) then (k, f e) :: rest
    else (k, e) :: updateLast name f rest

def disposeEnd (n : Network) (name : String) : Network :=
  { n with ends := updateLast name (fun e => { e with alive := false }) n.ends }

def disposeHost (n : Network) : Network := { n with relaying := false, link := n.link.dispose }

def disposeDelivery (n : Network) : Network := { n with delivering := false }

def listeners (n : Network) : Nat :=
  if n.delivering then 1 + n.ends.countP (·.2.alive) else 0

end Network

end ProofPanel.Relay
