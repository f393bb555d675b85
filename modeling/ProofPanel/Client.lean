import ProofPanel.Client.Mismatch
import ProofPanel.Link

/-!
# The backend's client

Numbers the requests to the backend and remembers what each one is for until its response comes.
What arrives on the link becomes news: diagnostics, a change of the backend's status, the answer
to a goal fetch, or an error that belongs to no fetch.
-/
namespace ProofPanel

inductive Purpose
  | info (ticket : Ticket)
  | sync
deriving DecidableEq

inductive News
  | diagnostics (ds : List Diagnostic)
  | status (s : Status)
  | answer (ticket : Ticket) (answer : Answer)
  | failure (err : LinkError)

structure Client where
  nextSeq : Nat := 1
  /-- The open requests, in the order they were made. -/
  pending : List (Nat × Purpose) := []
  status : Status := {}
  /-- Whether arrivals on the link are heard; disposing the client ends that. -/
  listening : Bool := true
  /-- Whether anyone hears the news. -/
  publishing : Bool := true

namespace Client

/-- The greatest number of a request; it is given again when it is reached. -/
def maxSeq : Nat := UInt64.size - 1

def close (c : Client) (seq : Nat) : Client × Option Purpose :=
  ({ c with pending := c.pending.filter (·.1 != seq) },
   (c.pending.find? (·.1 == seq)).map (·.2))

def publish (c : Client) (news : List News) : List News := if c.publishing then news else []

def remoteError (kind message : String) : News :=
  .failure (.remote (.object [("error", .str kind), ("message", .str message)]))

def receive (c : Client) : Response → Client × List News
  | .ok seq record =>
    match c.close seq with
    | (c, some (.info ticket)) => (c, c.publish [.answer ticket (.ok record)])
    | (c, _) => (c, [])
  | .error seq message =>
    let (c, purpose) := match seq with
      | none => (c, none)
      | some seq => c.close seq
    (c, c.publish [match purpose with
      | some (.info ticket) => .answer ticket (.error (.request message))
      | some .sync => remoteError "sync" message
      | none => remoteError "backend" message])
  | .allMessages ds => (c, c.publish [.diagnostics ds])
  | .currentTasks status =>
    if c.status = status then (c, [])
    else ({ c with status }, c.publish [.status status])

def notAResponse (message : Json) : LinkError :=
  .malformed ("backend message: " ++ (Response.check message).getD "")

def failPending (c : Client) (err : BackendError) : Client × List News :=
  let tickets := c.pending.filterMap fun
    | (_, .info ticket) => some ticket
    | (_, .sync) => none
  ({ c with pending := [] }, c.publish (tickets.map fun ticket => .answer ticket (.error err)))

/-- Errors after which no response can come any more. -/
def isFinal : LinkError → Bool
  | .io _ | .disposed => true
  | _ => false

def hear (c : Client) (a : Arrival) : Client × List News :=
  if !c.listening then (c, [])
  else
    match a with
    | .message value =>
      match Response.ofJson? value with
      | some response => c.receive response
      | none => (c, c.publish [.failure (notAResponse value)])
    | .failure err =>
      let failed := c.publish [.failure err]
      if isFinal err then
        let (c, answers) := c.failPending .disconnected
        (c, failed ++ answers)
      else (c, failed)

def hearAll (c : Client) : List Arrival → Client × List News
  | [] => (c, [])
  | a :: rest =>
    let (c, news) := c.hear a
    let (c, more) := c.hearAll rest
    (c, news ++ more)

/-- What making a request leads to: the value that was sent, if it was, the news that came with
it, and the request's number or why it was not taken. -/
structure Asked where
  client : Client
  sent : Option Json
  news : List News
  outcome : Except BackendError Nat

def refusalOf : LinkError → BackendError
  | .disposed | .io _ => .disconnected
  | err => .request err.message

/-- Makes a request over a link. It is open before the link takes it, and closed again if the link
refuses it. -/
def ask (c : Client) (link : Json → Delivery) (purpose : Purpose) (request : Nat → Request) :
    Asked :=
  let seq := c.nextSeq
  let c := { (c.close seq).1 with
    nextSeq := min (seq + 1) maxSeq
    pending := (c.close seq).1.pending ++ [(seq, purpose)] }
  let value := (request seq).toJson
  let delivery := link value
  let (c, news) := c.hearAll delivery.arrivals
  match delivery.outcome with
  | .ok () => ⟨c, some value, news, .ok seq⟩
  | .error err => ⟨(c.close seq).1, none, news, .error (refusalOf err)⟩

def askInfo (c : Client) (link : Json → Delivery) (ticket : Ticket) (l : Location) : Asked :=
  c.ask link (.info ticket) fun seq => .info seq l

def askSync (c : Client) (link : Json → Delivery) (fileName content : String) : Asked :=
  c.ask link .sync fun seq => .sync seq fileName content

def cancel (c : Client) (ticket : Ticket) : Client :=
  { c with pending := c.pending.filter (·.2 != .info ticket) }

def dispose (c : Client) : Client :=
  { c with pending := [], listening := false, publishing := false }

end Client

end ProofPanel
