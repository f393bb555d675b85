import ProofPanel.Host.Program
import ProofPanel.Host.Shell.Builtin
import ProofPanel.Host.Shell.Commands

/-!
# Running scripts

What the commands of a script do. Commands that run beside each other are run one after the other,
each on its own clock; streams keep the moments apart. Part of the stand-in for the system in which
connections to processes are tried; no theorem is about it.
-/
namespace ProofPanel.Host.Shell

/-- Runs a command; the commands inside it are run by another such function. -/
abbrev Runner := Command → Act Unit

def Fault.message : Fault → String
  | malformed => "Syntax error: word unexpected"
  | unfinished => "Syntax error: end of file unexpected"

/-- Acts in a process that has more to do afterwards. -/
def notLast (act : Act α) : Act α := do
  let last := (← get).last
  modify fun s => { s with last := false }
  let a ← act
  modify fun s => { s with last }
  return a

def runAll (run : Runner) : List Command → Act Unit
  | [] => return
  | [c] => run c
  | c :: rest => do
    notLast (run c)
    runAll run rest

def runLine (run : Runner) (text rest : List Char) (commands : List Command) : Act Unit := do
  let line := (← get).line + (text.takeWhile (· == '\n')).length
  modify fun s => { s with line }
  runAll run commands
  modify fun s => { s with line := line + text.count '\n' - rest.count '\n' }

def runText (run : Runner) : (lines : Nat) → List Char → Act Unit
  | 0, _ => return
  | lines + 1, text =>
    match nextCommands? text with
    | .error fault => refuse fault.message
    | .ok none => return
    | .ok (some (commands, rest)) => do
      if rest.all fun c => isMeta c && c.isWhitespace then runLine run text rest commands
      else
        notLast (runLine run text rest commands)
        runText run lines rest

def runScript (run : Runner) (text : String) : Act Unit :=
  runText run (text.length + 1) text.toList

/-- Runs the commands that come in on a descriptor, each line when it is complete. -/
def runInput (run : Runner) (descriptor : Nat) : (most : Nat) → (unread : List Char) → Act Unit
  | 0, _ => stuck
  | most + 1, unread => do
    let isWhole := unread.contains '\n'
    match if isWhole then nextCommands? unread else .ok none with
    | .ok (some (commands, rest)) =>
      runLine run unread rest commands
      runInput run descriptor most rest
    | .error .malformed => refuse Fault.malformed.message
    | .ok none | .error .unfinished =>
      match ← readSome descriptor headBlock with
      | some octets => runInput run descriptor most (unread ++ (ofOctets octets).toList)
      | none => runScript run (.ofList unread)

def untilEnd (run : Runner) (act : Act Unit) : Act Unit := do
  try act
  catch
    | .stuck holding writing => throw (.stuck holding writing)
    | _ => pure ()
  let s ← get
  match lookup? s.traps "EXIT" with
  | none => return
  | some action =>
    set { s with traps := s.traps.filter (·.1 != "EXIT"), loops := 0, scopes := [], last := false }
    try
      runScript run action
      setStatus s.status
    catch
      | .stuck holding writing => throw (.stuck holding writing)
      | _ => pure ()

def subshell (s : State) : State :=
  { s with traps := s.traps.filter (·.2 == ""), last := true }

def substitute (run : Runner) : Substitute := fun script => do
  let n ← newStream {}
  let left ← apart (fun s => subshell { s with ends := s.ends.set 1 (.writes n), tested := false })
    (untilEnd run (runScript run (.ofList script)))
  match left.holdsUntil (.writes n) with
  | none => throw (.stuck left.holding false)
  | some moment =>
    join left
    waitUntil moment
    modify fun s => { s with substituted := some s.status }
    let s ← get
    let octets := (s.world.stream n).inOrder.flatMap (·.2)
    modifyWorld fun w => w.setStream n {}
    let text := (ofOctets octets).toList.filter (· != '\x00')
    return .ofList (text.reverse.dropWhile (· == '\n')).reverse

/-! ## Programs -/

def scriptDescriptor : Nat := 10

def runShell (run : Runner) (arguments : List String) : Act Unit := do
  let (letters, rest) ← takeOptions ['c', 'l'] arguments
  let s ← get
  let rest := rest.getD []
  if letters.contains 'c' then
    match rest with
    | [] =>
      complain "0: -c requires an argument"
      die 2
    | script :: rest =>
      match rest with
      | name :: arguments => set { s with name, arguments }
      | [] => pure ()
      untilEnd run (runScript run script)
  else
    match rest, s.hasOption 's' with
    | path :: arguments, false =>
      match find? s path, ← openInput? path with
      | some (_, .file octets _), _ =>
        set { s with name := path, arguments }
        untilEnd run (runScript run (ofOctets octets))
      | some (_, .device _), some e =>
        set { s with name := path, arguments, ends := s.ends.set scriptDescriptor e }
        untilEnd run (runInput run scriptDescriptor maxReads [])
      | _, _ =>
        complain ("0: cannot open " ++ path ++ ": No such file")
        die 2
    | arguments, _ =>
      set { s with arguments }
      setOption true 's'
      untilEnd run (runInput run 0 maxReads [])

def newShell (name : String) (s : State) : State :=
  { s with
    bindings := s.bindings.filter (·.2.exported)
    scopes := []
    functions := []
    name
    arguments := []
    options := []
    traps := s.traps.filter (·.2 == "")
    children := []
    loops := 0
    tested := false
    last := false }

def envCommand : List String → Act (List String)
  | [] => return []
  | "-u" :: name :: rest => do
    modify fun s => { s with bindings := s.bindings.filter (·.1 != name) }
    envCommand rest
  | a :: rest => do
    if a = "-i" || a = "-" then
      modify fun s => { s with bindings := [] }
      envCommand rest
    else
      match nameAndValue a with
      | (name, some value) =>
        modify fun s => s.put name { value := some value, exported := true }
        envCommand rest
      | _ => return a :: rest

def runProgram (run : Runner) : (fuel : Nat) → (name : String) → (arguments : List String) →
    Act Unit
  | 0, _, _ => stuck
  | fuel + 1, name, arguments => do
    let s ← get
    match Place.program? s.here name with
    | none =>
      let isThere := name.toList.contains '/' && (find? s name).isSome
      let refusal := name ++ if isThere then ": Permission denied" else ": not found"
      if s.name = "env" then complain refusal else complainAt refusal
      setStatus (if isThere then 126 else 127)
    | some "dash" =>
      modify (newShell name)
      runShell run arguments
    | some "env" =>
      modify fun s => { s with name }
      match ← envCommand arguments with
      | [] =>
        let shown := ((← get).bindings.filter (·.2.exported)).map fun (name, v) =>
          name ++ "=" ++ v.value.getD "" ++ "\n"
        say (String.join shown)
      | name :: arguments => runProgram run fuel name arguments
    | some program =>
      match utility? program with
      | some utility =>
        modify fun s => { s with name }
        utility arguments
      | none => setStatus 127

def startProgram (run : Runner) (name : String) (arguments : List String) : Act Unit := do
  let left ← apart (fun s => { s with kept := [] }) (runProgram run 100 name arguments)
  join left

/-! ## Simple commands -/

def assignAll (run : Runner) (exported : Bool) : List Assignment → Act Unit
  | [] => return
  | a :: rest => do
    let name := String.ofList a.name
    let value ← expandWhole (substitute run) a.value
    assign name value
    if exported then
      modify fun s =>
        match lookup? s.bindings name with
        | some v => s.put name { v with exported := true }
        | none => s
    assignAll run exported rest

def withAssignments (run : Runner) (assignments : List Assignment) (act : Act Unit) :
    Act Unit := do
  if assignments.isEmpty then act
  else
    let before := (← get).bindings
    let names := assignments.map fun a => String.ofList a.name
    assignAll run true assignments
    let back : Act Unit := modify fun s =>
      let kept := s.bindings.filter fun (name, _) => !names.contains name
      { s with bindings := (before.filter fun (name, _) => names.contains name) ++ kept }
    try
      act
      back
    catch
      | .stuck holding writing => throw (.stuck holding writing)
      | stop => do
        back
        throw stop

def maxCalls : Nat := 1000

def call (run : Runner) (body : Command) (arguments : List String) : Act Unit := do
  let s ← get
  if maxCalls ≤ s.scopes.length then refuse "Maximum function recursion depth reached"
  set { s with arguments, scopes := [] :: s.scopes, loops := 0 }
  let back : Act Unit := modify fun t =>
    let own := t.scopes.headD []
    let restored := own.foldl (fun bindings (name, old) =>
      match old with
      | some v => update bindings name v
      | none => bindings.filter (·.1 != name)) t.bindings
    { t with arguments := s.arguments, scopes := s.scopes, loops := s.loops, bindings := restored }
  try
    run body
    back
  catch
    | .back => back
    | .stuck holding writing => throw (.stuck holding writing)
    | stop => do
      back
      throw stop

def signal (run : Runner) (name : String) (number : Nat) : Act Unit := do
  let s ← get
  if number = 100 then
    match name, lookup? s.traps name with
    | "STOP", _ => stuck
    | "KILL", _ | _, none =>
      set { s with traps := [], status := 137 }
      throw .exit
    | _, some action => notLast (runScript run action)
  else if s.world.jobs.any (·.number == number) then
    modifyWorld fun w =>
      { w with
        jobs := w.jobs.map fun j =>
          if j.number = number && j.until?.all (s.clock < ·) then
            { j with until? := some s.clock, status := 143 }
          else j
        streams := w.streams.zipIdx.map fun (stream, n) =>
          if n = 1 then stream.upTo s.clock else stream }
    setStatus 0
  else
    complainAt "kill: No such process"
    setStatus 1

def kill (run : Runner) (arguments : List String) : Act Unit := do
  let (name, numbers) := match arguments with
    | "-s" :: name :: rest => (signalName name, rest)
    | a :: rest =>
      match a.toList with
      | '-' :: name => (signalName (.ofList name), rest)
      | _ => ("TERM", a :: rest)
    | [] => ("TERM", [])
  setStatus (if numbers.isEmpty then 2 else 0)
  for n in numbers do
    match n.toNat? with
    | none =>
      complainAt ("kill: Illegal number: " ++ n)
      setStatus 2
    | some n => if name = "EXIT" then setStatus 0 else signal run name n

def runningBuiltin? (run : Runner) (name : String) : Option (List String → Act Unit) :=
  match name with
  | "eval" => some fun arguments => do
    setStatus 0
    notLast (runScript run (" ".intercalate arguments))
  | "." => some fun arguments => do
    match arguments with
    | [] => setStatus 2
    | path :: _ =>
      let octets? := match find? (← get) path with
        | some (_, .file octets _) => some octets
        | some (_, .device .null) => some []
        | _ => none
      match octets? with
      | none => refuse (".: cannot open " ++ path ++ ": No such file")
      | some octets =>
        setStatus 0
        try notLast (runScript run (ofOctets octets))
        catch
          | .back => pure ()
          | stop => throw stop
  | "kill" => some (kill run)
  | _ => none

def anyBuiltin? (run : Runner) (name : String) : Option (List String → Act Unit) :=
  (runningBuiltin? run name).or (builtin? name)

def runNamed (run : Runner) : (fuel : Nat) → List String → Act Unit
  | 0, _ => stuck
  | _, [] => setStatus 0
  | fuel + 1, name :: arguments => do
    if name = "command" then
      match arguments with
      | "-v" :: names | "-V" :: names =>
        let s ← get
        setStatus 127
        for name in names do
          if (anyBuiltin? run name).isSome || (lookup? s.functions name).isSome then
            say (name ++ "\n")
          else if (Place.program? s.here name).isSome then
            say ((if name.toList.contains '/' then "" else "/usr/bin/") ++ name ++ "\n")
      | "-p" :: rest => runNamed run fuel rest
      | rest => runNamed run fuel rest
    else if name = "exec" then
      match arguments with
      | [] => setStatus 0
      | name :: arguments =>
        if (Place.program? (← get).here name).isNone then
          complainAt ("exec: " ++ name ++ ": not found")
          die 127
        modify fun s => { s with traps := s.traps.filter (·.2 == ""), kept := [] }
        runProgram run 100 name arguments
        modify fun s => { s with traps := [] }
        throw .exit
    else
      match anyBuiltin? run name with
      | some builtin => builtin arguments
      | none => startProgram run name arguments

def checkStatus : Act Unit := do
  let s ← get
  if s.status != 0 && !s.tested && s.hasOption 'e' then throw .exit

/-- Whether the process may become the program that it runs next. -/
def isFinal : Act Bool := do
  let s ← get
  return s.last && s.traps.all (·.2 == "")

def become (run : Runner) (assignments : List Assignment) (rs : List Redirection)
    (name : String) (arguments : List String) : Act Unit := do
  if ← keepRedirections (substitute run) rs then
    assignAll run true assignments
    modify fun s => { s with kept := [] }
    runProgram run 100 name arguments
  else setStatus 2
  throw .exit

def runSimple (run : Runner) (assignments : List Assignment) (words : List Word)
    (rs : List Redirection) : Act Unit := do
  let sub := substitute run
  modify fun s => { s with substituted := none }
  match ← expandAll sub words with
  | [] =>
    let worked ← redirected sub rs (assignAll run false assignments)
    let substituted := (← get).substituted
    setStatus (if worked then substituted.getD 0 else 2)
  | name :: arguments =>
    let s ← get
    if name = "exec" then
      if !(← keepRedirections sub rs) then die 2
      assignAll run false assignments
      runNamed run 100 (name :: arguments)
    else if specialNames.contains name then
      let worked ← redirected sub rs do
        assignAll run false assignments
        runNamed run 100 (name :: arguments)
      if !worked then die 2
    else
      let function := lookup? s.functions name
      let isProgram := function.isNone && name != "command" && (anyBuiltin? run name).isNone
      if isProgram && (← isFinal) then become run assignments rs name arguments
      let worked ← redirected sub rs <| withAssignments run assignments <|
        match function with
        | some body => notLast (call run body arguments)
        | none => runNamed run 100 (name :: arguments)
      if !worked then setStatus 2
  checkStatus

/-! ## Pipelines -/

structure Stage where
  left : Left
  output : Option Nat

def runStages (run : Runner) (start : State) : List Command → Act (List Stage)
  | [] => return []
  | c :: rest => do
    let act := untilEnd run (run c)
    if rest.isEmpty then
      let left ← apart (fun s => subshell { start with world := s.world }) act
      return [⟨left, none⟩]
    else
      let n ← newStream {}
      let left ← apart
        (fun s => subshell
          { start with world := s.world, ends := start.ends.set 1 (.writes n) })
        act
      let closed := left.holdsUntil (.writes n)
      modifyWorld fun w => w.setStream n ((w.stream n).close closed)
      let rest ← runStages run { start with ends := start.ends.set 0 (.reads n) } rest
      return ⟨left, some n⟩ :: rest

/-- Until when a part goes on, if not for good: one that writes where nobody reads any more is
ended. The reader has left at `readerEnd`. -/
def Stage.ends? (w : World) (readerEnd : Option Moment) (stage : Stage) : Option Moment :=
  match stage.output, readerEnd with
  | some n, some gone =>
    let writing := match stage.left.stop with
      | some (.stuck _ writing) => writing
      | _ => false
    match ((w.stream n).inOrder.map (·.1)).find? (gone < ·) with
    | some moment => some moment
    | none =>
      if writing then some gone
      else if stage.left.isStuck then none
      else some stage.left.state.clock
  | _, _ => if stage.left.isStuck then none else some stage.left.state.clock

def stageEnds (w : World) (stages : List Stage) : List (Option Moment) :=
  (stages.foldr
    (fun stage (readerEnd, ends) =>
      let moment := stage.ends? w readerEnd
      (moment, moment :: ends))
    ((none : Option Moment), ([] : List (Option Moment)))).2

def runPipeline (run : Runner) (parts : List Command) : Act Unit := do
  let start ← get
  let stages ← runStages run start parts
  let ends := stageEnds (← get).world stages
  let waiting := (stages.zip ends).filter (·.2.isNone)
  if waiting.isEmpty then
    for moment in ends do waitUntil (moment.getD 0)
    setStatus ((stages.getLast?.map (·.left.state.status % 256)).getD 0)
  else throw (.stuck (waiting.flatMap fun (stage, _) => stage.left.holding) false)

/-! ## Compound commands -/

def maxRounds : Nat := 100000

def rounds : (most : Nat) → Act Bool → Act Unit
  | 0, _ => endless
  | most + 1, round => do
    if ← round then rounds most round

def inLoop (act : Act Bool) : Act Bool := do
  modify fun s => { s with loops := s.loops + 1 }
  let back : Act Unit := modify fun s => { s with loops := s.loops - 1 }
  try
    let goesOn ← act
    back
    return goesOn
  catch
    | .leave loops again => do
      back
      if loops ≤ 1 then return again else throw (.leave (loops - 1) again)
    | .stuck holding writing => throw (.stuck holding writing)
    | stop => do
      back
      throw stop

def asked (act : Act Unit) : Act Bool := do
  let before := (← get).tested
  modify fun s => { s with tested := true }
  notLast act
  modify fun s => { s with tested := before }
  return (← get).status = 0

def runEach (run : Runner) (name : String) (body : Act Unit) : List String → Act Unit
  | [] => return
  | item :: rest => do
    let goesOn ← inLoop do
      assign name item
      body
      return true
    if goesOn then runEach run name body rest

/-- Runs a loop as long as its condition holds, or does not. The status is that of the last command
of the body, if it is run at all. -/
def runLoop (run : Runner) (negated : Bool) (condition body : List Command) : Act Unit := do
  modify fun s => { s with lastRound := 0 }
  rounds maxRounds <| inLoop do
    let holds ← asked (runAll run condition)
    if holds = negated then
      setStatus (← get).lastRound
      return false
    runAll run body
    modify fun s => { s with lastRound := s.status }
    return true

def chosen? (run : Runner) (subject : String) : List (List Word × List Command) →
    Act (Option (List Command))
  | [] => return none
  | (patterns, body) :: rest => do
    for p in patterns do
      if isMatching (← expandPattern (substitute run) p) subject.toList then return some body
    chosen? run subject rest

def runApart (run : Runner) (body : List Command) (rs : List Redirection) : Act Unit := do
  let act : Act Unit := do
    if ← keepRedirections (substitute run) rs then runAll run body else setStatus 2
  if ← isFinal then
    modify subshell
    act
    throw .exit
  else
    join (← apart subshell (untilEnd run act))
    checkStatus

def addJob (left : Left) (until? : Option Moment) : Act Unit :=
  modify fun s =>
    let number := s.world.nextNumber
    let job : Job :=
      { number
        ends := if left.isStuck then left.holding else left.state.held
        until?
        status := left.state.status % 256 }
    let dropped := left.state.dropped.map fun (e, moment) =>
      ({ number, ends := [e], until? := some moment } : Job)
    { s with
      world := { s.world with jobs := job :: dropped ++ s.world.jobs, nextNumber := number + 1 }
      children := number :: s.children }

/-- Runs a command in the background, without input. The parts of a pipeline are processes of the
shell itself. -/
def runBehind (run : Runner) (c : Command) : Act Unit := do
  let change (s : State) : State :=
    { subshell s with ends := s.ends.set 0 .null, kept := [], tested := false }
  match c with
  | .pipeline parts =>
    let stages ← runStages run (change (← get)) parts
    let w := (← get).world
    for (stage, moment) in stages.zip (stageEnds w stages) do addJob stage.left moment
  | _ =>
    let act : Act Unit := match c with
      | .redirected body rs => do
        if ← keepRedirections (substitute run) rs then run body else setStatus 2
      | c => run c
    let left ← apart change (untilEnd run act)
    addJob left (if left.isStuck then none else some left.state.clock)
  setStatus 0

def step (run : Runner) (c : Command) : Act Unit :=
  match c with
  | .simple assignments words rs => runSimple run assignments words rs
  | .redirected (.apart body) rs => runApart run body rs
  | .redirected body rs => do
    if !(← redirected (substitute run) rs (notLast (run body))) then
      setStatus 2
      checkStatus
  | .both first second => do
    if ← asked (run first) then run second
  | .either first second => do
    if !(← asked (run first)) then run second
  | .negated body => do
    let worked ← asked (run body)
    setStatus (if worked then 1 else 0)
  | .pipeline parts => do
    runPipeline run parts
    checkStatus
  | .background body => runBehind run body
  | .group body => runAll run body
  | .apart body => runApart run body []
  | .loop negated condition body => notLast (runLoop run negated condition body)
  | .each name items body => do
    let items ← expandAll (substitute run) items
    setStatus 0
    notLast (runEach run (.ofList name) (runAll run body) items)
  | .branch condition yes no => do
    if ← asked (runAll run condition) then runAll run yes
    else
      setStatus 0
      runAll run no
  | .choice subject cases => do
    let subject ← expandWhole (substitute run) subject
    setStatus 0
    match ← chosen? run subject cases with
    | some body => runAll run body
    | none => return
  | .define name body =>
    modify fun s => { s with functions := update s.functions (.ofList name) body, status := 0 }

def maxDepth : Nat := 10000

def run : (depth : Nat) → Runner
  | 0, _ => die 2
  | depth + 1, c => do
    if (← get).hasOption 'n' then return
    step (run depth) c

/-! ## Shells and utilities as programs -/

/-- What comes of a process that acts on the input it gets. A process starts a moment after it is
asked for. -/
def program (here : Place) (act : Act Unit) : Program := fun input =>
  let start : State :=
    { world := { streams := [{ chunks := input }, {}] }
      clock := 1
      here
      bindings :=
        [("PATH", "/usr/local/sbin:/usr/local/bin:/usr/sbin:/usr/bin:/sbin:/bin"),
         ("HOME", "/root"), ("PWD", here.toPath)].map
          fun (name, value) => (name, { value := some value, exported := true }) }
  let (result, s) := (act.run start).run
  let left : Left := ⟨s, match result with
    | .ok () => none
    | .error stop => some stop⟩
  { written := (s.world.stream 1).inOrder
    inputClosed := left.holdsUntil (.reads 0)
    outputClosed := left.holdsUntil (.writes 1) }

def namedProgram (here : Place) (name : String) (arguments : List String) : Program :=
  program here (runProgram (run maxDepth) 100 name arguments)

end ProofPanel.Host.Shell
