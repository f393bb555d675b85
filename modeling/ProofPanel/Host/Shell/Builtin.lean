import ProofPanel.Host.Shell.Utility

/-!
# Commands of the shell itself

Those that neither run a script nor start a program. Part of the stand-in for the system in which
connections to processes are tried; no theorem is about it.
-/
namespace ProofPanel.Host.Shell

/-- Commands of the shell whose errors end it and whose assignments stay. -/
def specialNames : List String :=
  [":", ".", "break", "continue", "eval", "exec", "exit", "export", "readonly", "return", "set",
   "shift", "times", "trap", "unset"]

/-! ## Directories -/

def tidyPath (directory path : String) : String :=
  let all := if Place.isAbsolute path then Place.names path
    else Place.names directory ++ Place.names path
  let names := all.foldl (fun done name =>
    if name = "" || name = "." then done
    else if name = ".." then done.tail
    else name :: done) ([] : List String)
  Place.toPath names

def currentPath : Act String := do return ((← get).valueOf? "PWD").getD "/"

def cd (arguments : List String) : Act Unit := do
  let s ← get
  let physical := arguments.contains "-P"
  let target := match arguments.filter fun a => a != "-P" && a != "-L" && a != "--" with
    | [] => s.valueOf? "HOME"
    | "-" :: _ => s.valueOf? "OLDPWD"
    | path :: _ => some path
  match target with
  | none => setStatus 0
  | some target =>
    let old ← currentPath
    let path := tidyPath old target
    match Place.directory? [] path with
    | none =>
      complainAt ("cd: can\x27t cd to " ++ target)
      setStatus 2
    | some place =>
      let shown := if physical then place.toPath else path
      modify fun s => { s with here := place }
      assign "OLDPWD" old
      assign "PWD" shown
      if arguments.contains "-" then say (shown ++ "\n") else setStatus 0

def pwd (arguments : List String) : Act Unit := do
  if arguments.contains "-P" then say ((← get).here.toPath ++ "\n")
  else say ((← currentPath) ++ "\n")

/-! ## Input -/

/-- A line with its escapes taken out: characters and whether they were escaped. -/
def escapedChars (raw : Bool) : List Char → List (Char × Bool)
  | '\\' :: c :: rest =>
    if raw then ('\\', false) :: escapedChars raw (c :: rest)
    else (c, true) :: escapedChars raw rest
  | '\\' :: [] => if raw then [('\\', false)] else []
  | c :: rest => (c, false) :: escapedChars raw rest
  | [] => []

def assignFields (separators : List Char) (line : List (Char × Bool)) : List String → Act Unit
  | [] => return
  | name :: names => do
    let isBlank (c : Char × Bool) :=
      !c.2 && separators.contains c.1 && (c.1 = ' ' || c.1 = '\t' || c.1 = '\n')
    let isSeparator (c : Char × Bool) := !c.2 && separators.contains c.1
    let line := line.dropWhile isBlank
    let field := line.takeWhile fun c => !isSeparator c
    let after := (line.drop field.length).dropWhile isBlank
    let rest := match after with
      | c :: more => if isSeparator c then more.dropWhile isBlank else after
      | [] => []
    if names.isEmpty then
      let whole := if rest.isEmpty then field else (line.reverse.dropWhile isBlank).reverse
      assign name (.ofList (whole.map (·.1)))
    else
      assign name (.ofList (field.map (·.1)))
      assignFields separators rest names

def readJoined (raw : Bool) : (most : Nat) → Act (List Char × Bool)
  | 0 => stuck
  | most + 1 => do
    let (octets, whole) ← readLine 0
    let line := (ofOctets octets).toList.filter (· != '\x00')
    let slashes := (line.reverse.takeWhile (· == '\\')).length
    if whole && !raw && slashes % 2 = 1 then
      let (more, whole) ← readJoined raw most
      return (line.dropLast ++ more, whole)
    else return (line, whole)

def read (arguments : List String) : Act Unit :=
  match (lettersKnown "r" "p").parse arguments with
  | .error _ => refuse "read: Illegal option"
  | .ok o => do
    if o.rest.isEmpty then
      complainAt "read: arg count"
      setStatus 2
    else if !(← canRead 0) then
      for name in o.rest do assign name ""
      setStatus 1
    else
      let raw := o.has 'r'
      let (line, whole) ← readJoined raw maxReads
      assignFields (← get).separators (escapedChars raw line) o.rest
      setStatus (if whole then 0 else 1)

/-! ## Variables -/

def nameAndValue (argument : String) : String × Option String :=
  match splitName argument.toList with
  | (name, '=' :: value) => (.ofList name, some (.ofList value))
  | _ => (argument, none)
where
  splitName (cs : List Char) : List Char × List Char :=
    (cs.takeWhile (· != '='), cs.dropWhile (· != '='))

def declare (change : Variable → Variable) (arguments : List String) : Act Unit := do
  setStatus 0
  for a in arguments.filter (· != "-p") do
    let (name, value) := nameAndValue a
    if !isName name.toList then refuse (name ++ ": bad variable name")
    if let some value := value then assign name value
    modify fun s => s.put name (change ((lookup? s.bindings name).getD { value := none }))

def declareLocal (arguments : List String) : Act Unit := do
  setStatus 0
  for a in arguments do
    let (name, value) := nameAndValue a
    modify fun s =>
      match s.scopes with
      | [] => s
      | first :: rest =>
        if first.any (·.1 == name) then s
        else { s with scopes := ((name, lookup? s.bindings name) :: first) :: rest }
    if let some value := value then assign name value

def unset (arguments : List String) : Act Unit := do
  setStatus 0
  let functions := arguments.contains "-f"
  for name in arguments.filter fun a => a != "-f" && a != "-v" do
    if functions then
      modify fun s => { s with functions := s.functions.filter (·.1 != name) }
    else
      if ((lookup? (← get).bindings name).map (·.constant)).getD false then
        refuse ("unset: " ++ name ++ ": is read only")
      modify fun s => { s with bindings := s.bindings.filter (·.1 != name) }

def optionLetter? (name : String) : Option Char :=
  match name with
  | "allexport" => some 'a'
  | "errexit" => some 'e'
  | "noglob" => some 'f'
  | "nounset" => some 'u'
  | "verbose" => some 'v'
  | "xtrace" => some 'x'
  | "noclobber" => some 'C'
  | "noexec" => some 'n'
  | _ => none

def setOption (on : Bool) (letter : Char) : Act Unit :=
  modify fun s =>
    let others := s.options.filter (· != letter)
    { s with options := if on then letter :: others else others }

def shellOptions : List Char := "aefiImnsuvxbCEV".toList

/-- Sets options by their letters, with a name where one is asked for. Letters in `other` are not
options; those that stand there are returned. -/
def setLetters (other : List Char) (on : Bool) (name : Option String) (letters : List Char) :
    Act (List Char) := do
  for letter in letters do
    if letter = 'o' then
      match name with
      | none => pure ()
      | some name =>
        match optionLetter? name with
        | some letter => setOption on letter
        | none => refuse ("set: Illegal option -o " ++ name)
    else if shellOptions.contains letter then setOption on letter
    else if !other.contains letter then refuse ("Illegal option -" ++ String.ofList [letter])
  return letters.filter other.contains

/-- Takes options off the arguments: the other letters among them, and the arguments after them if
there are any or none are asked for. -/
def takeOptions (other : List Char) : List String → Act (List Char × Option (List String))
  | [] => return ([], none)
  | a :: rest =>
    match a.toList with
    | ['-', '-'] => return ([], some rest)
    | ['-'] => return ([], if rest.isEmpty then none else some rest)
    | sign :: letters => do
      if sign != '-' && sign != '+' then return ([], some (a :: rest))
      let (found, left) ←
        if letters.contains 'o' then
          match rest with
          | [] => pure (← setLetters other (sign = '-') none letters, [], none)
          | name :: rest =>
            let found ← setLetters other (sign = '-') (some name) letters
            pure (found, ← takeOptions other rest)
        else
          let found ← setLetters other (sign = '-') none letters
          pure (found, ← takeOptions other rest)
      return (found ++ left.1, left.2)
    | [] => return ([], some (a :: rest))

def setAll (arguments : List String) : Act Unit := do
  match ← takeOptions [] arguments with
  | (_, some arguments) => modify fun s => { s with arguments }
  | (_, none) => return

def numberFor (command text : String) : Act Nat :=
  match text.toNat? with
  | some n => return n
  | none => refuse (command ++ ": Illegal number: " ++ text)

def shift (arguments : List String) : Act Unit := do
  let n ← match arguments with
    | [] => pure 1
    | n :: _ => numberFor "shift" n
  if (← get).arguments.length < n then refuse "shift: can\x27t shift that many"
  modify fun s => { s with arguments := s.arguments.drop n, status := 0 }

/-! ## Processes -/

def signalName (text : String) : String :=
  match text with
  | "0" => "EXIT"
  | "1" => "HUP"
  | "2" => "INT"
  | "3" => "QUIT"
  | "9" => "KILL"
  | "13" => "PIPE"
  | "15" => "TERM"
  | _ =>
    let upper := text.toUpper
    match "SIG".toList.isPrefixOf? upper.toList with
    | some rest => .ofList rest
    | none => upper

def trap (arguments : List String) : Act Unit := do
  setStatus 0
  match arguments.filter (· != "--") with
  | [] => return
  | action :: signals =>
    let reset := action = "-" || signals.isEmpty
    for signal in if signals.isEmpty then [action] else signals do
      let name := signalName signal
      modify fun s =>
        { s with traps := if reset then s.traps.filter (·.1 != name)
                 else update s.traps name action }

def waitFor (arguments : List String) : Act Unit := do
  let s ← get
  let numbers := if arguments.isEmpty then s.children else arguments.filterMap String.toNat?
  setStatus 0
  for number in numbers do
    match s.world.jobs.find? (·.number == number) with
    | none => setStatus 127
    | some job =>
      match job.until? with
      | none => stuck
      | some moment =>
        waitUntil moment
        if !arguments.isEmpty then setStatus job.status

def plainNames : List String :=
  ["[", "alias", "bg", "cd", "command", "echo", "false", "fg", "getopts", "hash", "jobs", "kill",
   "local", "printf", "pwd", "read", "test", "true", "type", "ulimit", "umask", "unalias", "wait"]

def type (arguments : List String) : Act Unit := do
  let s ← get
  let mut shown := ""
  let mut status := 0
  for name in arguments do
    if specialNames.contains name then shown := shown ++ name ++ " is a special shell builtin\n"
    else if (lookup? s.functions name).isSome then
      shown := shown ++ name ++ " is a shell function\n"
    else if plainNames.contains name then
      shown := shown ++ name ++ " is a shell builtin\n"
    else if (Place.program? s.here name).isSome then
      shown := shown ++ name ++ " is /usr/bin/" ++ name ++ "\n"
    else
      shown := shown ++ name ++ ": not found\n"
      status := 127
  say shown
  if status != 0 then setStatus status

def leaveLoop (again : Bool) (arguments : List String) : Act Unit := do
  setStatus 0
  let loops ← match arguments with
    | [] => pure 1
    | n :: _ => do
      let name := if again then "continue" else "break"
      match ← numberFor name n with
      | 0 => refuse (name ++ ": Illegal number: " ++ n)
      | n => pure n
  let s ← get
  if s.loops != 0 then throw (.leave (min loops s.loops) again)

def builtin? (name : String) : Option (List String → Act Unit) :=
  match name with
  | ":" | "true" => some fun _ => setStatus 0
  | "false" => some fun _ => setStatus 1
  | "alias" | "bg" | "fg" | "hash" | "jobs" | "ulimit" | "unalias" => some fun _ => setStatus 0
  | "break" => some (leaveLoop false)
  | "continue" => some (leaveLoop true)
  | "cd" => some cd
  | "echo" => some fun arguments => say (echo arguments)
  | "exit" => some fun arguments => do
    match arguments with
    | [] => throw .exit
    | n :: _ => die (← numberFor "exit" n)
  | "export" => some (declare fun v => { v with exported := true })
  | "readonly" => some (declare fun v => { v with constant := true })
  | "local" => some declareLocal
  | "printf" => some fun arguments =>
    match arguments with
    | [] => do
      complainAt "printf: usage: printf format [arg ...]"
      setStatus 2
    | format :: rest => do
      let (text, faults, status) := printf format rest
      for fault in faults do complainAt ("printf: " ++ fault)
      say text
      if status != 0 then setStatus status
  | "pwd" => some pwd
  | "read" => some read
  | "return" => some fun arguments => do
    match arguments with
    | [] => throw .back
    | n :: _ =>
      setStatus (← numberFor "return" n)
      throw .back
  | "set" => some fun arguments => do
    setStatus 0
    setAll arguments
  | "shift" => some shift
  | "test" => some (answerTest complainAt)
  | "[" => some (answerBracket complainAt)
  | "times" => some fun _ => say "0m0.00s 0m0.00s\n0m0.00s 0m0.00s\n"
  | "trap" => some trap
  | "type" => some type
  | "umask" => some fun arguments => if arguments.isEmpty then say "0022\n" else setStatus 0
  | "unset" => some unset
  | "wait" => some waitFor
  | _ => none

end ProofPanel.Host.Shell
