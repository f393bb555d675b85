import ProofPanel.Host.Shell.State

/-!
# Arithmetic

Expressions over whole numbers of 64 bits, which wrap around. Part of the stand-in for the system in
which connections to processes are tried; no theorem is about it.
-/
namespace ProofPanel.Host.Shell

inductive Operator
  | times | over | rest | plus | minus | left | right
  | less | atMost | greater | atLeast | equal | unequal
  | bitAnd | bitXor | bitOr
deriving DecidableEq

inductive Expression
  | number (n : Int64)
  | parameter (name : String)
  | negative (e : Expression)
  | complement (e : Expression)
  | not (e : Expression)
  | apply (o : Operator) (a b : Expression)
  | and (a b : Expression)
  | or (a b : Expression)
  | choose (condition yes no : Expression)
  | assign (name : String) (o : Option Operator) (e : Expression)

/-! ## Numbers -/

def digitOf? (base : Nat) (c : Char) : Option Nat :=
  let n := if c.isDigit then c.toNat - 48
    else if 'a' ≤ c && c ≤ 'f' then c.toNat - 87
    else if 'A' ≤ c && c ≤ 'F' then c.toNat - 55
    else base
  if n < base then some n else none

def takeNumber (base : Nat) : (n count : Nat) → List Char → Nat × Nat × List Char
  | n, count, [] => (n, count, [])
  | n, count, c :: text =>
    match digitOf? base c with
    | some d => takeNumber base (n * base + d) (count + 1) text
    | none => (n, count, c :: text)

/-- A number without sign, whose first digits tell its base, and the rest; `none` without digits. -/
def takeUnsigned? (text : List Char) : Option (Nat × List Char) :=
  match text with
  | '0' :: x :: c :: rest =>
    if (x = 'x' || x = 'X') && (digitOf? 16 c).isSome then
      let (n, _, rest) := takeNumber 16 0 0 (c :: rest)
      some (n, rest)
    else
      let (n, _, rest) := takeNumber 8 0 0 text
      some (n, rest)
  | '0' :: _ =>
    let (n, _, rest) := takeNumber 8 0 0 text
    some (n, rest)
  | _ =>
    let (n, count, rest) := takeNumber 10 0 0 text
    if count = 0 then none else some (n, rest)

def isSpace (c : Char) : Bool := c = ' ' || ('\t' ≤ c && c ≤ '\r')

def saturate (n : Int) : Int64 :=
  .ofInt (max Int64.minValue.toInt (min Int64.maxValue.toInt n))

def takeSigned? (text : List Char) : Option (Int64 × List Char) :=
  match text.dropWhile isSpace with
  | '-' :: rest => (takeUnsigned? rest).map fun (n, rest) => (saturate (-n), rest)
  | '+' :: rest => (takeUnsigned? rest).map fun (n, rest) => (saturate n, rest)
  | rest => (takeUnsigned? rest).map fun (n, rest) => (saturate n, rest)

def number? (text : String) : Option Int64 :=
  match takeSigned? text.toList with
  | some (n, rest) => if rest.all isSpace then some n else none
  | none => none

/-! ## Reading -/

def operators : List (String × Operator × Nat) :=
  [("<<", .left, 8), (">>", .right, 8), ("<=", .atMost, 7), (">=", .atLeast, 7), ("==", .equal, 6),
   ("!=", .unequal, 6), ("<", .less, 7), (">", .greater, 7), ("+", .plus, 9), ("-", .minus, 9),
   ("*", .times, 10), ("/", .over, 10), ("%", .rest, 10), ("&", .bitAnd, 5), ("^", .bitXor, 4),
   ("|", .bitOr, 3)]

/-- The operator that comes next, with its binding and the rest; `none` before an assignment. -/
def operator? (text : List Char) : Option (Operator × Nat × List Char) :=
  operators.findSome? fun (sign, o, binding) =>
    match sign.toList.isPrefixOf? text with
    | some rest =>
      if sign.length = 1 && rest.head? = some (sign.toList.headD ' ') && (sign = "&" || sign = "|")
      then none
      else some (o, binding, rest)
    | none => none

def assignment (text : List Char) : Option (Option Operator × List Char) :=
  match text with
  | '=' :: '=' :: _ => none
  | '=' :: rest => some (none, rest)
  | _ =>
    operators.findSome? fun (sign, o, _) =>
      if [Operator.less, .atMost, .greater, .atLeast, .equal, .unequal].contains o then none
      else
        match (sign.toList ++ ['=']).isPrefixOf? text with
        | some rest => some (some o, rest)
        | none => none

mutual

def readAssignment : (fuel : Nat) → List Char → Option (Expression × List Char)
  | 0, _ => none
  | fuel + 1, text =>
    let text := text.dropWhile isSpace
    let name := text.takeWhile fun c => c.isAlphanum || c = '_'
    let assigned :=
      if name.isEmpty || name.any (·.isDigit) && (name.headD '0').isDigit then none
      else assignment ((text.drop name.length).dropWhile isSpace)
    match assigned with
    | some (o, rest) => do
      let (e, rest) ← readAssignment fuel rest
      return (.assign (.ofList name) o e, rest)
    | none => do
      let (condition, rest) ← readOr fuel text
      match rest.dropWhile isSpace with
      | '?' :: rest => do
        let (yes, rest) ← readAssignment fuel rest
        match rest.dropWhile isSpace with
        | ':' :: rest => do
          let (no, rest) ← readAssignment fuel rest
          return (.choose condition yes no, rest)
        | _ => none
      | rest => return (condition, rest)

def readOr : (fuel : Nat) → List Char → Option (Expression × List Char)
  | 0, _ => none
  | fuel + 1, text => do
    let (a, rest) ← readAnd fuel text
    match rest.dropWhile isSpace with
    | '|' :: '|' :: rest => do
      let (b, rest) ← readOr fuel rest
      return (.or a b, rest)
    | rest => return (a, rest)

def readAnd : (fuel : Nat) → List Char → Option (Expression × List Char)
  | 0, _ => none
  | fuel + 1, text => do
    let (a, rest) ← readUnary fuel text
    let (a, rest) ← readBinary fuel 0 a rest
    match rest.dropWhile isSpace with
    | '&' :: '&' :: rest => do
      let (b, rest) ← readAnd fuel rest
      return (.and a b, rest)
    | rest => return (a, rest)

def readBinary : (fuel above : Nat) → Expression → List Char → Option (Expression × List Char)
  | 0, _, _, _ => none
  | fuel + 1, above, a, text =>
    let text := text.dropWhile isSpace
    match operator? text with
    | none => some (a, text)
    | some (o, binding, rest) =>
      if binding ≤ above then some (a, text)
      else do
        let (b, rest) ← readUnary fuel rest
        let (b, rest) ← readBinary fuel binding b rest
        readBinary fuel above (.apply o a b) rest

def readUnary : (fuel : Nat) → List Char → Option (Expression × List Char)
  | 0, _ => none
  | fuel + 1, text =>
    match text.dropWhile isSpace with
    | '-' :: rest => (readUnary fuel rest).map fun (e, rest) => (.negative e, rest)
    | '+' :: rest => readUnary fuel rest
    | '~' :: rest => (readUnary fuel rest).map fun (e, rest) => (.complement e, rest)
    | '!' :: rest => (readUnary fuel rest).map fun (e, rest) => (.not e, rest)
    | '(' :: rest => do
      let (e, rest) ← readAssignment fuel rest
      match rest.dropWhile isSpace with
      | ')' :: rest => return (e, rest)
      | _ => none
    | text =>
      let name := text.takeWhile fun c => c.isAlphanum || c = '_'
      match name with
      | [] => none
      | c :: _ =>
        if c.isDigit then (takeUnsigned? text).map fun (n, rest) => (.number (saturate n), rest)
        else some (.parameter (.ofList name), text.drop name.length)

end

def Expression.ofText? (text : List Char) : Option Expression :=
  match readAssignment (8 * text.length + 8) text with
  | some (e, rest) => if rest.all isSpace then some e else none
  | none => none

/-! ## Values -/

def ofBool (b : Bool) : Int64 := if b then 1 else 0

def Operator.apply? (o : Operator) (a b : Int64) : Option Int64 :=
  match o with
  | .times => some (a * b)
  | .over => if b = 0 then none else some (a / b)
  | .rest => if b = 0 then none else some (a % b)
  | .plus => some (a + b)
  | .minus => some (a - b)
  | .left => some (a <<< b)
  | .right => some (a >>> b)
  | .less => some (ofBool (a < b))
  | .atMost => some (ofBool (a ≤ b))
  | .greater => some (ofBool (b < a))
  | .atLeast => some (ofBool (b ≤ a))
  | .equal => some (ofBool (a == b))
  | .unequal => some (ofBool (a != b))
  | .bitAnd => some (a &&& b)
  | .bitXor => some (a ^^^ b)
  | .bitOr => some (a ||| b)

def valueOf (name : String) : Act Int64 := do
  match (← get).valueOf? name with
  | none | some "" => return 0
  | some text =>
    match number? text with
    | some n => return n
    | none => refuse ("Illegal number: " ++ text)

def combine (o : Operator) (a b : Int64) : Act Int64 :=
  match o.apply? a b with
  | some n => return n
  | none => refuse "arithmetic expression: division by zero"

def Expression.value : Expression → Act Int64
  | .number n => return n
  | .parameter name => valueOf name
  | .negative e => return -(← e.value)
  | .complement e => return ~~~(← e.value)
  | .not e => return ofBool ((← e.value) == 0)
  | .apply o a b => do
    let a ← a.value
    combine o a (← b.value)
  | .and a b => do
    if (← a.value) == 0 then return 0
    return ofBool ((← b.value) != 0)
  | .or a b => do
    if (← a.value) != 0 then return 1
    return ofBool ((← b.value) != 0)
  | .choose condition yes no => do
    if (← condition.value) != 0 then yes.value else no.value
  | .assign name o e => do
    let n ← match o with
      | none => e.value
      | some o => do
        let old ← valueOf name
        combine o old (← e.value)
    Shell.assign name (toString n.toInt)
    return n

def evaluate (text : List Char) : Act Int64 :=
  match Expression.ofText? text with
  | some e => e.value
  | none =>
    refuse ("arithmetic expression: expecting primary: \x22" ++ String.ofList text ++ "\x22")

end ProofPanel.Host.Shell
