import ProofPanel.Host.Shell.Files

/-!
# Conditions

What `test` says of its arguments; there is no answer to malformed ones. Part of the stand-in for
the system in which connections to processes are tried; no theorem is about it.
-/
namespace ProofPanel.Host.Shell

def unaryOperators : List String :=
  ["-b", "-c", "-d", "-e", "-f", "-g", "-h", "-k", "-L", "-n", "-p", "-r", "-s", "-S", "-t", "-u",
   "-w", "-x", "-z", "-O", "-G"]

def binaryOperators : List String :=
  ["=", "!=", "<", ">", "-eq", "-ne", "-lt", "-le", "-gt", "-ge", "-nt", "-ot", "-ef"]

def unary (s : State) (op a : String) : Option Bool :=
  let found : Option Found := (find? s a).map fun f => f.2
  let isDirectory := match found with
    | some .directory => true
    | _ => false
  let isFile := match found with
    | some (.file _ _) => true
    | _ => false
  match op with
  | "-n" => some (!a.isEmpty)
  | "-z" => some a.isEmpty
  | "-e" | "-r" | "-w" | "-O" | "-G" => some found.isSome
  | "-d" => some isDirectory
  | "-f" => some isFile
  | "-c" =>
    some (match found with
      | some (.device (.descriptor _)) => false
      | some (.device _) => true
      | _ => false)
  | "-p" =>
    some (match found with
      | some (.device (.descriptor n)) =>
        match s.ends.get? n with
        | some (.reads _) | some (.writes _) => true
        | _ => false
      | _ => false)
  | "-x" =>
    some (match found with
      | some .directory => true
      | some (.file _ runs) => runs
      | _ => false)
  | "-s" =>
    some (match found with
      | some .directory => true
      | some (.file octets runs) => runs || !octets.isEmpty
      | _ => false)
  | "-t" => (number? a).map fun _ => false
  | _ => if unaryOperators.contains op then some false else none

def binary (a op b : String) : Option Bool :=
  let numbers (f : Int64 → Int64 → Bool) : Option Bool := do
    return f (← number? a) (← number? b)
  match op with
  | "=" => some (a == b)
  | "!=" => some (a != b)
  | "<" => some (a < b)
  | ">" => some (b < a)
  | "-eq" => numbers (· == ·)
  | "-ne" => numbers (· != ·)
  | "-lt" => numbers (· < ·)
  | "-le" => numbers (· ≤ ·)
  | "-gt" => numbers (fun a b => b < a)
  | "-ge" => numbers (fun a b => b ≤ a)
  | _ => if binaryOperators.contains op then some false else none

mutual

def testOr (s : State) : (fuel : Nat) → List String → Option (Bool × List String)
  | 0, _ => none
  | fuel + 1, arguments => do
    let (a, rest) ← testAnd s fuel arguments
    match rest with
    | "-o" :: rest =>
      let (b, rest) ← testOr s fuel rest
      return (a || b, rest)
    | _ => return (a, rest)

def testAnd (s : State) : (fuel : Nat) → List String → Option (Bool × List String)
  | 0, _ => none
  | fuel + 1, arguments => do
    let (a, rest) ← testOne s fuel arguments
    match rest with
    | "-a" :: rest =>
      let (b, rest) ← testAnd s fuel rest
      return (a && b, rest)
    | _ => return (a, rest)

def testOne (s : State) : (fuel : Nat) → List String → Option (Bool × List String)
  | 0, _ => none
  | fuel + 1, arguments =>
    match arguments with
    | [] => none
    | a :: op :: b :: rest =>
      if binaryOperators.contains op then (binary a op b).map (·, rest)
      else if a = "!" then (testOne s fuel (op :: b :: rest)).map fun (r, rest) => (!r, rest)
      else if a = "(" then do
        let (r, rest) ← testOr s fuel (op :: b :: rest)
        match rest with
        | ")" :: rest => return (r, rest)
        | _ => none
      else if unaryOperators.contains a then (unary s a op).map (·, b :: rest)
      else some (!a.isEmpty, op :: b :: rest)
    | [a, b] =>
      if a = "!" then some (b.isEmpty, [])
      else if unaryOperators.contains a then (unary s a b).map (·, [])
      else some (!a.isEmpty, [b])
    | [a] => some (!a.isEmpty, [])

end

def test? (s : State) (arguments : List String) : Option Bool :=
  match arguments with
  | [] => some false
  | _ =>
    match testOr s (8 * arguments.length + 8) arguments with
    | some (r, []) => some r
    | _ => none

end ProofPanel.Host.Shell
