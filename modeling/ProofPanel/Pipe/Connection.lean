import ProofPanel.Json.Lines
import ProofPanel.Link

/-!
# Connections to a process

A reader and a writer work on the pipes of a process and leave what they find for the owner of the
connection, who takes it by polling. The end of the process's output ends the connection.
-/
namespace ProofPanel.Pipe

inductive Inbound
  | message (value : Json)
  | malformed (text : String)
  | ioError (text : String)
  | closed

structure Connection where
  alive : Bool := true
  /-- Whether the writer still takes values; it stops at the first write that fails. -/
  writing : Bool := true
  /-- What has been left and not yet polled. -/
  waiting : List Inbound := []
  disposed : Bool := false

def closedError : LinkError := .io "backend closed the connection"

def writerError : LinkError := .io "backend writer thread stopped"

/-- What the owner finds up to the end of the output: how many messages, what arrives, what is
left waiting, and whether the connection goes on. -/
def take : List Inbound → Nat × List Arrival × List Inbound × Bool
  | [] => (0, [], [], true)
  | .closed :: rest => (0, [.failure closedError], rest, false)
  | .message value :: rest =>
    let (count, arrivals, left, alive) := take rest
    (count + 1, .message value :: arrivals, left, alive)
  | .malformed text :: rest =>
    let (count, arrivals, left, alive) := take rest
    (count, .failure (.json text) :: arrivals, left, alive)
  | .ioError text :: rest =>
    let (count, arrivals, left, alive) := take rest
    (count, .failure (.io text) :: arrivals, left, alive)

namespace Connection

def leave (c : Connection) (found : List Inbound) : Connection :=
  { c with waiting := c.waiting ++ found }

def poll (c : Connection) : Connection × Nat × List Arrival :=
  if c.alive then
    let (count, arrivals, waiting, alive) := take c.waiting
    ({ c with waiting, alive }, count, arrivals)
  else (c, 0, [])

def accept (c : Connection) : Except LinkError Unit :=
  if !c.alive then .error .disposed
  else if !c.writing then .error writerError
  else .ok ()

def deliver (c : Connection) (_ : Json) : Delivery := { outcome := c.accept }

def failWrite (c : Connection) (text : String) : Connection :=
  { c with writing := false }.leave [.ioError text]

def dispose (c : Connection) : Connection := { c with alive := false, disposed := true }

end Connection

end ProofPanel.Pipe
