import ProofPanel.Json.Printer

/-!
# Links

A link carries JSON values in both directions. What arrives on it is a message or a failure; a
value is sent or refused, and a link may let something arrive while it takes a value.
-/
namespace ProofPanel

inductive LinkError
  | io (text : String)
  | json (text : String)
  | malformed (text : String)
  /-- An error of the other side, as it came. -/
  | remote (value : Json)
  | disposed

namespace LinkError

def kind : LinkError → String
  | .io _ => "io"
  | .json _ => "json"
  | .malformed _ => "malformed"
  | .remote _ => "remote"
  | .disposed => "disposed"

def message : LinkError → String
  | .io text => "i/o error: " ++ text
  | .json text => "invalid json: " ++ text
  | .malformed text => "malformed message: " ++ text
  | .remote value => "remote error: " ++ value.print
  | .disposed => "connection disposed"

/-- The form in which an error travels. Those of another side travel on as they came. -/
def toJson : LinkError → Json
  | .remote value => value
  | err => .object [("error", .str err.kind), ("message", .str err.message)]

end LinkError

inductive Arrival
  | message (value : Json)
  | failure (err : LinkError)

/-- How a link takes a value: what arrives meanwhile, and whether the value is sent. -/
structure Delivery where
  arrivals : List Arrival := []
  outcome : Except LinkError Unit := .ok ()

/-- A link within one program. Its incoming values wait until it is polled. -/
structure LocalLink where
  alive : Bool := true
  waiting : List Json := []
  /-- Refuses every value with this error. -/
  refusal : Option LinkError := none
  /-- Lets every value that is sent arrive at once. -/
  echo : Bool := false
  disposed : Bool := false

namespace LocalLink

def deliver (l : LocalLink) (value : Json) : Delivery :=
  if !l.alive then { outcome := .error .disposed }
  else
    match l.refusal with
    | some err => { outcome := .error err }
    | none => { arrivals := if l.echo && !l.disposed then [.message value] else [] }

def enqueue (l : LocalLink) (value : Json) : LocalLink :=
  { l with waiting := l.waiting ++ [value] }

def poll (l : LocalLink) : LocalLink × Nat × List Arrival :=
  ({ l with waiting := [] }, l.waiting.length,
   if l.disposed then [] else l.waiting.map .message)

def fail (l : LocalLink) (err : LinkError) : List Arrival :=
  if l.disposed then [] else [.failure err]

def kill (l : LocalLink) : LocalLink := { l with alive := false }

def dispose (l : LocalLink) : LocalLink :=
  { l with alive := false, waiting := [], disposed := true }

end LocalLink

end ProofPanel
