import ProofPanel.Host.Shell.Expand

/-!
# Files and redirections

What a path leads to for a shell, and what its descriptors are opened on. Part of the stand-in for
the system in which connections to processes are tried; no theorem is about it.
-/
namespace ProofPanel.Host.Shell

inductive Found
  | directory
  /-- A file whose octets are known only if it has been written. -/
  | file (octets : List UInt8) (runs : Bool)
  | device (d : Device)

def locate? (s : State) (path : String) : Option Place :=
  match Place.resolve? s.here path with
  | some place => some place
  | none =>
    match path.toList.reverse.takeWhile (· != '/') with
    | [] => none
    | name =>
      let parent := String.ofList (path.toList.take (path.length - name.length))
      (if parent.isEmpty then some s.here else Place.directory? s.here parent).map
        (String.ofList name.reverse :: ·)

def find? (s : State) (path : String) : Option (Place × Found) := do
  let place ← locate? s path
  match s.world.files.find? (·.1 == place) with
  | some (_, octets) => return (place, .file octets false)
  | none =>
    match Place.entry? place with
    | some .directory => return (place, .directory)
    | some .file => return (place, .file [] false)
    | some .program => return (place, .file [] true)
    | some (.device d) => return (place, .device d)
    | _ => none

def openInput? (path : String) : Act (Option End) := do
  let s ← get
  match find? s path with
  | some (_, .file octets _) => return some (← endOn octets)
  | some (_, .directory) => return some (← endOn [])
  | some (_, .device d) =>
    match d with
    | .null => return some .null
    | .zero => return some .zero
    | .full => return some .full
    | .descriptor n => return s.ends.get? n
  | none => return none

/-- Opens a file for writing, at its end or instead of what was in it. -/
def openOutput? (path : String) (append : Bool) : Act (Option End) := do
  let s ← get
  match find? s path with
  | some (_, .directory) => return none
  | some (_, .device d) =>
    match d with
    | .null => return some .null
    | .zero => return some .zero
    | .full => return some .full
    | .descriptor n => return s.ends.get? n
  | some (place, .file octets _) =>
    let kept := if append then octets else []
    modifyWorld fun w =>
      { w with files := (place, kept) :: w.files.filter (·.1 != place) }
    return some (.file place)
  | none =>
    match locate? s path with
    | some place =>
      modifyWorld fun w => { w with files := (place, []) :: w.files }
      return some (.file place)
    | none => return none

def Redirect.refusal (kind : Redirect) (target : String) : String :=
  match kind with
  | .output | .append => "cannot create " ++ target ++ ": Directory nonexistent"
  | .duplicate => target ++ ": Bad file descriptor"
  | _ => "cannot open " ++ target ++ ": No such file"

def redirect (substitute : Substitute) (r : Redirection) : Act Bool := do
  let target ← expandWhole substitute r.target
  let opened ← match r.kind with
    | .here => do
      pure (some (← endOn (toOctets target)))
    | .input => openInput? target
    | .both => openInput? target
    | .output => openOutput? target false
    | .append => openOutput? target true
    | .duplicate =>
      if target = "-" then
        modify fun s => { s with ends := s.ends.close r.descriptor }
        return true
      else if target.isEmpty || !target.toList.all Char.isDigit then pure none
      else pure ((← get).ends.get? (target.toNat?.getD 0))
  match opened with
  | none =>
    complainAt (r.kind.refusal target)
    return false
  | some e =>
    modify fun s => { s with ends := s.ends.set r.descriptor e }
    return true

def redirectAll (substitute : Substitute) : List Redirection → Act Bool
  | [] => return true
  | r :: rest => do
    if ← redirect substitute r then redirectAll substitute rest else return false

def redirected (substitute : Substitute) (rs : List Redirection) (act : Act Unit) : Act Bool := do
  if rs.isEmpty then
    act
    return true
  let s ← get
  set { s with kept := s.held }
  let back : Act Unit := modify fun t => { t with ends := s.ends, kept := s.kept }
  try
    let worked ← redirectAll substitute rs
    if worked then act
    back
    return worked
  catch
    -- What is stuck stays as it is.
    | .stuck holding writing => throw (.stuck holding writing)
    | stop => do
      back
      throw stop

/-- Keeps the redirections of the shell itself, and notes what it lets go of. -/
def keepRedirections (substitute : Substitute) (rs : List Redirection) : Act Bool := do
  let before := (← get).held
  let worked ← redirectAll substitute rs
  modify fun s =>
    let dropped := before.filter fun e => !s.held.contains e
    { s with dropped := dropped.map (fun e => (e, s.clock)) ++ s.dropped }
  return worked

end ProofPanel.Host.Shell
