import ProofPanel.Host.Launch
import ProofPanel.Pipe.Connection

/-!
# Programs at the end of a pipe

A connection joined to a program of the stand-in for the system, so that it can be tried: what is
sent becomes the program's input, and what the program writes in the course of time is left for the
owner of the connection. The connection by itself, which the theorems are about, needs none of that.
-/
namespace ProofPanel

structure Launch where
  program : String
  arguments : List String := []
  directory : Option String := none

structure Pipe where
  program : Host.Program
  connection : Pipe.Connection := {}
  /-- Everything written to the program's input. -/
  given : List Host.Chunk := []
  /-- What comes of that. -/
  outcome : Host.Outcome := program given
  now : Host.Moment := 0
  /-- How much of what the reader finds has been left for the owner. -/
  read : Nat := 0

namespace Pipe

open Host

def start? (l : Launch) : Option Pipe :=
  (Host.program? l.program l.arguments l.directory).map fun program => { program }

/-- The lines that are complete by some moment; the last one is complete also when the output has
ended. -/
def linesBy (o : Outcome) (now : Moment) : List UInt8 :=
  let octets := o.writtenBy now
  if o.hasEnded now then octets
  else (octets.reverse.dropWhile (· != Json.newline)).reverse

def Inbound.ofLine : Except Json.LineFault Json → Inbound
  | .ok value => .message value
  | .error .notText => .malformed "stream did not contain valid UTF-8"
  | .error (.notJson fault) => .malformed fault.message

def foundBy (o : Outcome) (now : Moment) : List Inbound :=
  (Json.readAll (linesBy o now)).map .ofLine ++ if o.hasEnded now then [.closed] else []

def settle (p : Pipe) : Pipe :=
  let found := foundBy p.outcome p.now
  { p with connection := p.connection.leave (found.drop p.read), read := found.length }

def give (p : Pipe) (octets : List UInt8) : Pipe :=
  let given := p.given ++ [(p.now + 1, octets)]
  { p with given, outcome := p.program given }

def brokenPipe : String := "Broken pipe (os error 32)"

def send (p : Pipe) (value : Json) : Pipe × Except LinkError Unit :=
  match p.connection.accept with
  | .error err => (p, .error err)
  | .ok () =>
    if p.outcome.isDeaf p.now then
      ({ p with connection := p.settle.connection.failWrite brokenPipe }, .ok ())
    else (p.give (Json.writeLine value), .ok ())

def sendUntilError (value : Json) : Nat → Pipe → Pipe × Except LinkError Unit
  | 0, p => (p, .ok ())
  | n + 1, p =>
    match p.send value with
    | (p, .ok ()) => sendUntilError value n { p with now := p.now + 1 }
    | refused => refused

def poll (p : Pipe) : Pipe × Nat × List Arrival :=
  let p := p.settle
  let (connection, count, arrivals) := p.connection.poll
  ({ p with connection }, count, arrivals)

structure Goal where
  messages : Nat
  errors : Nat
  closed : Bool

def Goal.isReached (g : Goal) (p : Pipe) (count : Nat) (arrivals : List Arrival) : Bool :=
  g.messages ≤ count && g.errors ≤ arrivals.length - count && (!g.closed || !p.connection.alive)

def patience : Moment := 5000

def await (g : Goal) (deadline : Moment) : (changes : Nat) → (count : Nat) →
    (arrivals : List Arrival) → Pipe → Pipe × Nat × List Arrival
  | 0, count, arrivals, p => (p, count, arrivals)
  | changes + 1, count, arrivals, p =>
    let (p, more, news) := p.poll
    let count := count + more
    let arrivals := arrivals ++ news
    if g.isReached p count arrivals then (p, count, arrivals)
    else
      match (p.outcome.nextChange? p.now).filter (· ≤ deadline) with
      | some moment => await g deadline changes count arrivals { p with now := moment }
      | none => ({ p with now := deadline }, count, arrivals)

/-- Polls until so much has arrived, or for as long as the owner has patience. -/
def wait (p : Pipe) (g : Goal) : Pipe × Nat × List Arrival :=
  await g (p.now + patience) (p.outcome.written.length + 3) 0 [] p

def dispose (p : Pipe) : Pipe := { p with connection := p.connection.dispose }

end Pipe

end ProofPanel
