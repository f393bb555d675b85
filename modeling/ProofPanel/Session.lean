import ProofPanel.Client
import ProofPanel.Engine.Step
import ProofPanel.Page

/-!
# Sessions

The engine over the backend's client. News from the backend waits in a queue until it is pumped,
and each pump applies it to the engine in order. When the engine draws the panel anew the session
renders a page.
-/
namespace ProofPanel

structure Session where
  engine : Engine
  client : Client := {}
  queue : List News := []
  assets : Assets := {}
  /-- Whether anyone hears the session; disposing it ends that. -/
  publishing : Bool := true

inductive SessionEffect
  | sent (value : Json)
  | page (html : String)
  | panel (m : HostMessage)
  | failure (err : LinkError)
  | reveal (fileName : String) (p : Position)
  | hover (fileName : String) (p : Position)
  | stopHover
  | insert (fileName : String) (line : Nat) (text : String)

inductive SessionError
  | backend (err : BackendError)
  | command (err : CommandError)
deriving DecidableEq

namespace Session

def init (selector : Selector) (assets : Assets) : Session :=
  { engine := { selector }, assets }

def publish (s : Session) (effect : SessionEffect) : List SessionEffect :=
  if s.publishing then [effect] else []

def enqueue (s : Session) (news : List News) : Session :=
  if s.publishing then { s with queue := s.queue ++ news } else s

def hear (s : Session) (arrivals : List Arrival) : Session :=
  let (client, news) := s.client.hearAll arrivals
  { s with client }.enqueue news

def ask (s : Session) (asked : Client.Asked) : Session × List SessionEffect :=
  ({ s with client := asked.client }.enqueue asked.news, (asked.sent.map .sent).toList)

def perform (s : Session) (link : Json → Delivery) :
    Effect → Session × List SessionEffect × Option Verdict
  | .redraw snapshot =>
    (s, s.publish (.page (Page.render snapshot s.engine.config s.assets)), none)
  | .post m => (s, s.publish (.panel m), none)
  | .configured _ => (s, [], none)
  | .request ticket l =>
    let asked := s.client.askInfo link ticket l
    let (s, effects) := s.ask asked
    (s, effects, some (asked.outcome.map fun _ => ()))
  | .cancel ticket => ({ s with client := s.client.cancel ticket }, [], none)
  | .reveal fileName p => (s, [.reveal fileName p], none)
  | .hover fileName p => (s, [.hover fileName p], none)
  | .stopHover => (s, [.stopHover], none)
  | .insert fileName line text => (s, [.insert fileName line text], none)

/-- Carries effects out in order. The verdict is that of the last request. -/
def performAll (s : Session) (link : Json → Delivery) (verdict : Verdict) :
    List Effect → Session × List SessionEffect × Verdict
  | [] => (s, [], verdict)
  | effect :: rest =>
    let (s, done, asked) := s.perform link effect
    let (s, more, verdict) := s.performAll link (asked.getD verdict) rest
    (s, done ++ more, verdict)

def trigger (s : Session) (link : Json → Delivery) (cursor : Option Cursor) (t : Trigger) :
    Session × List SessionEffect × Verdict :=
  let turn := s.engine.react cursor t
  let (s, effects, verdict) :=
    { s with engine := turn.engine }.performAll link (.ok ()) turn.effects
  let (engine, outcome) := turn.settle verdict
  ({ s with engine }, effects, outcome)

def apply (s : Session) (link : Json → Delivery) (cursor : Option Cursor) :
    News → Session × List SessionEffect × Verdict
  | .diagnostics ds => s.trigger link cursor (.diagnostics ds)
  | .status _ => s.trigger link cursor .statusChanged
  | .answer ticket answer => s.trigger link cursor (.respond ticket answer)
  | .failure err => (s, s.publish (.failure err), .ok ())

/-- Applies the queued news in order, at most so many. An error ends it and leaves the rest in the
queue. -/
def drain (link : Json → Delivery) (cursor : Option Cursor) :
    (most applied : Nat) → Session → Session × List SessionEffect × Except BackendError Nat
  | 0, applied, s => (s, [], .ok applied)
  | most + 1, applied, s =>
    match s.queue with
    | [] => (s, [], .ok applied)
    | news :: rest =>
      let (s, effects, verdict) := { s with queue := rest }.apply link cursor news
      match verdict with
      | .error err => (s, effects, .error err)
      | .ok () =>
        let (s, more, outcome) := drain link cursor most (applied + 1) s
        (s, effects ++ more, outcome)

/-- Hears what arrived on the link and applies all news, also what arrives while a request is
sent. That is no more than as much again over a link that lets only an error arrive then; over
another one a pump is a drain that goes on for longer. -/
def pump (s : Session) (link : Json → Delivery) (cursor : Option Cursor)
    (arrivals : List Arrival) : Session × List SessionEffect × Except BackendError Nat :=
  let s := s.hear arrivals
  drain link cursor (2 * s.queue.length) 0 s

def sync (s : Session) (link : Json → Delivery) (fileName content : String) :
    Session × List SessionEffect × Verdict :=
  let asked := s.client.askSync link fileName content
  let (s, effects) := s.ask asked
  (s, effects, asked.outcome.map fun _ => ())

def configure (s : Session) (link : Json → Delivery) (cursor : Option Cursor) (p : Patch) :
    Session × List SessionEffect :=
  if p.isEmpty then (s, [])
  else
    let told := s.publish (.panel (.configChanged p))
    let (s, effects, _) := s.trigger link cursor (.configure p)
    (s, told ++ effects)

def followUri (s : Session) (link : Json → Delivery) (cursor : Option Cursor) (uri : String) :
    Session × List SessionEffect × Except SessionError Unit :=
  match Command.ofUri uri with
  | .error err => (s, [], .error (.command err))
  | .ok command =>
    let (s, effects, verdict) := s.trigger link cursor (.execute command)
    (s, effects, verdict.mapError .backend)

def dispose (s : Session) : Session :=
  { s with
    engine := s.engine.dispose.engine
    client := s.client.dispose
    queue := []
    publishing := false }

end Session

end ProofPanel
