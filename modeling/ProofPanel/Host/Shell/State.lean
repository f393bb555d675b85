import ProofPanel.Host.Place
import ProofPanel.Host.Shell.Script
import ProofPanel.Host.Stream

/-!
# The state of a shell

What a shell and the programs it starts act on: streams, files and descriptors, bindings and time.
An action changes the state and may stop short of its end. Part of the stand-in for the system in
which connections to processes are tried; no theorem is about it.
-/
namespace ProofPanel.Host.Shell

inductive End
  | reads (stream : Nat)
  | writes (stream : Nat)
  /-- Writes at the end of a file. -/
  | file (place : Place)
  | null
  | zero
  | full
deriving DecidableEq

abbrev Ends := List (Nat × End)

namespace Ends

def get? (ends : Ends) (descriptor : Nat) : Option End :=
  (ends.find? (·.1 == descriptor)).map (·.2)

def close (ends : Ends) (descriptor : Nat) : Ends := ends.filter (·.1 != descriptor)

def set (ends : Ends) (descriptor : Nat) (e : End) : Ends :=
  (descriptor, e) :: ends.close descriptor

end Ends

/-- A process in the background, and until when it holds what it has open, if not for good. -/
structure Job where
  number : Nat
  ends : List End
  until? : Option Moment
  status : Nat := 0

/-- What all processes share. -/
structure World where
  /-- The first one is the input, the second one the output. -/
  streams : List Stream
  /-- The files that have been written. -/
  files : List (Place × List UInt8) := []
  jobs : List Job := []
  /-- The number of the next process. -/
  nextNumber : Nat := 101

structure Variable where
  value : Option String
  exported : Bool := false
  constant : Bool := false

structure State where
  world : World
  clock : Moment := 0
  ends : Ends := [(0, .reads 0), (1, .writes 1), (2, .null)]
  /-- What is kept open while redirections are in force. -/
  kept : List End := []
  /-- What has been let go of, and when. -/
  dropped : List (End × Moment) := []
  bindings : List (String × Variable) := []
  /-- The bindings that the functions being run have for themselves, as they were before. -/
  scopes : List (List (String × Option Variable)) := []
  functions : List (String × Command) := []
  /-- The shell's or the program's own name. -/
  name : String := "sh"
  arguments : List String := []
  status : Nat := 0
  /-- The line of the script that is being run. -/
  line : Nat := 1
  here : Place := []
  options : List Char := []
  /-- What to do on signals, by name; `EXIT` is the end of the shell. -/
  traps : List (String × String) := []
  /-- The numbers of the shell's own background processes, the latest first. -/
  children : List Nat := []
  /-- How many loops are being run. -/
  loops : Nat := 0
  /-- The status of the loop being run after its last round. -/
  lastRound : Nat := 0
  /-- Whether the status of the command being run is asked for. -/
  tested : Bool := false
  /-- Whether the process ends with the command being run. -/
  last : Bool := false
  /-- The status of the last command substitution since the command began. -/
  substituted : Option Nat := none

inductive Stop
  /-- Out of so many loops, or on to the next round of the last of them. -/
  | leave (loops : Nat) (again : Bool)
  /-- Out of a function. -/
  | back
  | exit
  /-- Waits for good while other processes hold these open. `writing` says that it never stops
  writing. -/
  | stuck (holding : List End) (writing : Bool)

abbrev Act := ExceptT Stop (StateM State)

def setStatus (status : Nat) : Act Unit := modify fun s => { s with status }

def die (status : Nat) : Act α := do
  setStatus status
  throw .exit

def stuck : Act α := throw (.stuck [] false)

def endless : Act α := throw (.stuck [] true)

def modifyWorld (f : World → World) : Act Unit := modify fun s => { s with world := f s.world }

/-! ## Variables -/

def lookup? (bindings : List (String × α)) (name : String) : Option α :=
  (bindings.find? (·.1 == name)).map (·.2)

def update (bindings : List (String × α)) (name : String) (a : α) : List (String × α) :=
  (name, a) :: bindings.filter (·.1 != name)

namespace State

def valueOf? (s : State) (name : String) : Option String :=
  (lookup? s.bindings name).bind (·.value)

def hasOption (s : State) (letter : Char) : Bool := s.options.contains letter

def separators (s : State) : List Char :=
  ((lookup? s.bindings "IFS").bind (·.value)).elim [' ', '\t', '\n'] String.toList

def held (s : State) : List End := s.ends.map (·.2) ++ s.kept

def put (s : State) (name : String) (v : Variable) : State :=
  { s with bindings := update s.bindings name v }

end State

/-! ## Time and streams -/

def waitUntil (moment : Moment) : Act Unit := modify fun s => { s with clock := max s.clock moment }

def World.stream (w : World) (stream : Nat) : Stream := (w.streams[stream]?).getD {}

def World.setStream (w : World) (stream : Nat) (s : Stream) : World :=
  { w with streams := w.streams.set stream s }

def newStream (s : Stream) : Act Nat := do
  let w := (← get).world
  modifyWorld fun w => { w with streams := w.streams ++ [s] }
  return w.streams.length

def endOn (octets : List UInt8) : Act End := return .reads (← newStream (.ofOctets octets))

def blockSize : Nat := 4096

def readSome (descriptor most : Nat) : Act (Option (List UInt8)) := do
  let s ← get
  match s.ends.get? descriptor with
  | some (.reads n) =>
    match (s.world.stream n).read? s.clock most with
    | none => stuck
    | some (moment, octets, stream) =>
      set { s with clock := moment, world := s.world.setStream n stream }
      return if octets.isEmpty then none else some octets
  | some .zero | some .full => return some (List.replicate (min most blockSize) 0)
  | _ => return none

def canRead (descriptor : Nat) : Act Bool := do
  match (← get).ends.get? descriptor with
  | some (.writes _) | some (.file _) | none => return false
  | _ => return true

def readOn (descriptor : Nat) : (most : Nat) → Act (List UInt8)
  | 0 => stuck
  | most + 1 => do
    match ← readSome descriptor 65536 with
    | none => return []
    | some octets => return octets ++ (← readOn descriptor most)

def maxReads : Nat := 20000

def readAll (descriptor : Nat) : Act (List UInt8) := readOn descriptor maxReads

def readLine (descriptor : Nat) : Act (List UInt8 × Bool) := do
  let s ← get
  match s.ends.get? descriptor with
  | some (.reads n) =>
    let stream := s.world.stream n
    match Stream.takeTo 10 s.clock stream.inOrder with
    | some (moment, octets, chunks) =>
      set { s with
        clock := moment
        world := s.world.setStream n { stream with chunks, added := [] } }
      return (octets, true)
    | none => return (← readAll descriptor, false)
  | some .zero | some .full => stuck
  | _ => return ([], false)

def World.append (w : World) (place : Place) (octets : List UInt8) : World :=
  { w with files := w.files.map fun (p, o) => if p = place then (p, o ++ octets) else (p, o) }

def write (descriptor : Nat) (octets : List UInt8) : Act Bool := do
  let s ← get
  match s.ends.get? descriptor with
  | some (.writes n) =>
    modifyWorld fun w => w.setStream n ((w.stream n).write s.clock octets)
    return true
  | some (.file place) =>
    modifyWorld fun w => w.append place octets
    return true
  | some .null | some .zero => return true
  | some .full => return octets.isEmpty
  | some (.reads _) | none => return octets.isEmpty

def say (text : String) : Act Unit := do
  setStatus (if ← write 1 (toOctets text) then 0 else 1)

def report (text : String) : Act Unit := do
  let _ ← write 2 (toOctets (text ++ "\n"))

def complain (text : String) : Act Unit := do report ((← get).name ++ ": " ++ text)

def complainAt (text : String) : Act Unit := do
  let s ← get
  report (s.name ++ ": " ++ toString s.line ++ ": " ++ text)

/-- Reports an error that ends the shell. -/
def refuse (text : String) : Act α := do
  complainAt text
  die 2

def failWith (text : String) : Act Unit := do
  complain text
  setStatus 1

def failUsage (text : String) : Act Unit := do
  complain text
  report ("Try '" ++ (← get).name ++ " --help' for more information.")
  setStatus 1

/-! ## Assignments -/

def assign (name value : String) : Act Unit := do
  let s ← get
  match lookup? s.bindings name with
  | none => set (s.put name { value := some value, exported := s.hasOption 'a' })
  | some v =>
    if v.constant then refuse (name ++ ": is read only")
    set (s.put name { v with value := some value, exported := v.exported || s.hasOption 'a' })

/-! ## Processes -/

structure Left where
  state : State
  stop : Option Stop

/-- Until when a process or what it leaves behind holds one end open: `none` is for good. -/
def Left.holdsUntil (l : Left) (e : End) : Option Moment :=
  let stuckOn := match l.stop with
    | some (.stuck holding _) => (l.state.held ++ holding).contains e
    | _ => false
  let jobs := l.state.world.jobs.filter (·.ends.contains e)
  if stuckOn || jobs.any (·.until?.isNone) then none
  else
    let own := if l.state.held.contains e then l.state.clock
      else (l.state.dropped.filter (·.1 == e)).foldl (fun m d => max m d.2) 0
    some (jobs.foldl (fun m j => max m (j.until?.getD 0)) own)

def Left.isStuck (l : Left) : Bool :=
  match l.stop with
  | some (.stuck _ _) => true
  | _ => false

/-- Runs an action in a process of its own, which shares only the world. -/
def apart (change : State → State) (act : Act Unit) : Act Left := do
  let s ← get
  let start := change { s with dropped := [], children := [] }
  let (result, t) := (act.run start).run
  modify fun s => { s with world := t.world }
  return ⟨t, match result with
    | .ok () => none
    | .error stop => some stop⟩

/-- What a stuck process holds open with all that it waits for. -/
def Left.holding (l : Left) : List End :=
  match l.stop with
  | some (.stuck holding _) => l.state.held ++ holding
  | _ => []

def join (l : Left) : Act Unit := do
  match l.stop with
  | some (.stuck _ writing) => throw (.stuck l.holding writing)
  | _ =>
    waitUntil l.state.clock
    setStatus (l.state.status % 256)

end ProofPanel.Host.Shell
