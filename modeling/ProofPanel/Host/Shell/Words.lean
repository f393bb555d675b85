import ProofPanel.Host.Shell.Script

/-!
# Reading words

How the text of a script is cut into words, and words into their pieces. Reading stops with a fault
where the text is malformed or ends too early. Part of the stand-in for the system in which
connections to processes are tried; no theorem is about it.
-/
namespace ProofPanel.Host.Shell

inductive Fault
  | malformed
  /-- More text could mend it. -/
  | unfinished
deriving DecidableEq

abbrev Reader := StateT (List Char) (Except Fault)

def malformed : Reader α := throw .malformed

def unfinished : Reader α := throw .unfinished

def isNameStart (c : Char) : Bool := c.isAlpha || c = '_'

def isNameChar (c : Char) : Bool := c.isAlphanum || c = '_'

def isName (name : List Char) : Bool :=
  match name with
  | [] => false
  | c :: rest => isNameStart c && rest.all isNameChar

def isMeta (c : Char) : Bool := " \t\n;&|<>()".toList.contains c

def splitAt? (stop : Char) (text : List Char) : Option (List Char × List Char) :=
  match text.dropWhile (· != stop) with
  | [] => none
  | _ :: rest => some (text.takeWhile (· != stop), rest)

def copyDoubleQuoted : List Char → Option (List Char × List Char)
  | [] => none
  | '\x22' :: rest => some (['\x22'], rest)
  | '\\' :: c :: rest => (copyDoubleQuoted rest).map fun (t, rest) => ('\\' :: c :: t, rest)
  | c :: rest => (copyDoubleQuoted rest).map fun (t, rest) => (c :: t, rest)

/-- Copies a text as far as the bracket that closes it; brackets inside nest, and quoted ones do
not count. -/
def copyNested (opening closing : Char) : (fuel depth : Nat) → List Char →
    Option (List Char × List Char)
  | 0, _, _ => none
  | _, _, [] => none
  | fuel + 1, depth, c :: rest =>
    let on (t : List Char) (r : Option (List Char × List Char)) :=
      r.map fun (u, left) => (t ++ u, left)
    if c = '\\' then
      match rest with
      | [] => none
      | d :: rest => on [c, d] (copyNested opening closing fuel depth rest)
    else if c = '\x27' then do
      let (quoted, rest) ← splitAt? '\x27' rest
      on (c :: quoted ++ [c]) (copyNested opening closing fuel depth rest)
    else if c = '\x22' then do
      let (quoted, rest) ← copyDoubleQuoted rest
      on (c :: quoted) (copyNested opening closing fuel depth rest)
    else if c = closing then
      if depth = 0 then some ([], rest)
      else on [c] (copyNested opening closing fuel (depth - 1) rest)
    else if c = opening then on [c] (copyNested opening closing fuel (depth + 1) rest)
    else on [c] (copyNested opening closing fuel depth rest)

def nested (opening closing : Char) : Reader (List Char) := fun text =>
  match copyNested opening closing (text.length + 1) 0 text with
  | some found => .ok found
  | none => .error .unfinished

def copyExpression : (depth : Nat) → List Char → Option (List Char × List Char)
  | _, [] => none
  | 0, ')' :: ')' :: rest => some ([], rest)
  | 0, ')' :: _ => none
  | depth + 1, ')' :: rest => (copyExpression depth rest).map fun (t, rest) => (')' :: t, rest)
  | depth, '(' :: rest => (copyExpression (depth + 1) rest).map fun (t, rest) => ('(' :: t, rest)
  | depth, c :: rest => (copyExpression depth rest).map fun (t, rest) => (c :: t, rest)

def formOf : List Char → Form × List Char
  | [] => (.plain, [])
  | ':' :: '-' :: operand => (.default true, operand)
  | '-' :: operand => (.default false, operand)
  | ':' :: '=' :: operand => (.assign true, operand)
  | '=' :: operand => (.assign false, operand)
  | ':' :: '?' :: operand => (.require true, operand)
  | '?' :: operand => (.require false, operand)
  | ':' :: '+' :: operand => (.replace true, operand)
  | '+' :: operand => (.replace false, operand)
  | '#' :: '#' :: operand => (.dropStart true, operand)
  | '#' :: operand => (.dropStart false, operand)
  | '%' :: '%' :: operand => (.dropEnd true, operand)
  | '%' :: operand => (.dropEnd false, operand)
  | operand => (.malformed, operand)

def isSpecialParameter (c : Char) : Bool := "@*#?$!-".toList.contains c

def nameAndRest (inside : List Char) : List Char × List Char :=
  match inside with
  | [] => ([], [])
  | c :: rest =>
    if isNameStart c then (inside.takeWhile isNameChar, inside.dropWhile isNameChar)
    else if c.isDigit then (inside.takeWhile Char.isDigit, inside.dropWhile Char.isDigit)
    else if isSpecialParameter c then ([c], rest)
    else ([], inside)

def bracedParameter (quoted : Bool) (inside : List Char) : Piece :=
  let plain := fun _ : Unit =>
    let (name, rest) := nameAndRest inside
    let (form, operand) := formOf rest
    Piece.parameter name (if name.isEmpty then .malformed else form) operand quoted
  match inside with
  | '#' :: c :: rest =>
    let (name, left) := nameAndRest (c :: rest)
    if left.isEmpty && !name.isEmpty then .parameter name .length [] quoted else plain ()
  | _ => plain ()

def dollar (quoted : Bool) : Reader Piece := do
  match ← get with
  | '(' :: '(' :: rest =>
    match copyExpression 0 rest with
    | some (expression, rest) =>
      set rest
      return .arithmetic expression quoted
    | none =>
      set ('(' :: rest)
      return .command (← nested '(' ')') quoted
  | '(' :: rest =>
    set rest
    return .command (← nested '(' ')') quoted
  | '\x7b' :: rest =>
    set rest
    return bracedParameter quoted (← nested '\x7b' '\x7d')
  | c :: rest =>
    if isNameStart c then
      set ((c :: rest).dropWhile isNameChar)
      return .parameter ((c :: rest).takeWhile isNameChar) .plain [] quoted
    else if c.isDigit || isSpecialParameter c then
      set rest
      return .parameter [c] .plain [] quoted
    else return .text ['$'] quoted
  | [] => return .text ['$'] quoted

/-- A script between backquotes; a backslash before a backquote, a backslash or a dollar sign, and
in double quotes before a double quote, is dropped. -/
def backquoted (quoted : Bool) : (done : List Char) → List Char → Except Fault (Piece × List Char)
  | _, [] => .error .unfinished
  | done, '\x60' :: rest => .ok (.command done.reverse quoted, rest)
  | done, '\\' :: c :: rest =>
    if c = '\x60' || c = '\\' || c = '$' || (quoted && c = '\x22') then
      backquoted quoted (c :: done) rest
    else backquoted quoted (c :: '\\' :: done) rest
  | done, c :: rest => backquoted quoted (c :: done) rest

/-- Where a text that counts as quoted stands. -/
inductive Quotation
  /-- Up to a double quote. -/
  | closed
  /-- A text of its own, in which double quotes are text. -/
  | document
  /-- The operand of a parameter in double quotes; those inside it are dropped. -/
  | operand
deriving DecidableEq

def Quotation.escapes : Quotation → List Char
  | closed => ['$', '\\', '\x60', '\x22']
  | document => ['$', '\\', '\x60']
  | operand => ['$', '\\', '\x60', '\x22', '\x7d']

def doubleQuoted (q : Quotation) : (fuel : Nat) → (done : List Piece) → Reader (List Piece)
  | 0, _ => malformed
  | fuel + 1, done => do
    match ← get with
    | [] => if q = .closed then unfinished else return done
    | c :: rest =>
      set rest
      if c = '\x22' && q = .closed then return done
      else if c = '\x22' && q = .operand then doubleQuoted q fuel done
      else if c = '$' then doubleQuoted q fuel ((← dollar true) :: done)
      else if c = '\x60' then doubleQuoted q fuel ((← backquoted true []) :: done)
      else if c = '\\' then
        match rest with
        | [] => if q = .closed then unfinished else return .text ['\\'] true :: done
        | d :: rest =>
          set rest
          if d = '\n' then doubleQuoted q fuel done
          else if q.escapes.contains d then doubleQuoted q fuel (.text [d] true :: done)
          else doubleQuoted q fuel (.text ['\\', d] true :: done)
      else doubleQuoted q fuel (.text [c] true :: done)

/-- The pieces of a word, in reverse. `ends` tells the characters that end it. -/
def wordFrom (ends : Char → Bool) : (fuel : Nat) → (done : List Piece) → Reader (List Piece)
  | 0, _ => malformed
  | fuel + 1, done => do
    match ← get with
    | [] => return done
    | c :: rest =>
      if ends c then return done
      set rest
      if c = '\x27' then
        match splitAt? '\x27' rest with
        | some (quoted, rest) =>
          set rest
          wordFrom ends fuel (.text quoted true :: done)
        | none => unfinished
      else if c = '\x22' then
        match ← doubleQuoted .closed (rest.length + 1) [] with
        | [] => wordFrom ends fuel (.text [] true :: done)
        | pieces => wordFrom ends fuel (pieces ++ done)
      else if c = '\\' then
        match rest with
        | [] => return .text ['\\'] true :: done
        | d :: rest =>
          set rest
          wordFrom ends fuel (if d = '\n' then done else .text [d] true :: done)
      else if c = '$' then wordFrom ends fuel ((← dollar false) :: done)
      else if c = '\x60' then wordFrom ends fuel ((← backquoted false []) :: done)
      else wordFrom ends fuel (.text [c] false :: done)

def Word.joined : Word → Word
  | .text a p :: rest =>
    match joined rest with
    | .text b q :: more =>
      if p = q then .text (a ++ b) p :: more else .text a p :: .text b q :: more
    | rest => .text a p :: rest
  | piece :: rest => piece :: joined rest
  | [] => []

def Word.withHome : Word → Word
  | [.text ['~'] false] => [.home]
  | .text ('~' :: '/' :: text) false :: rest => .home :: .text ('/' :: text) false :: rest
  | word => word

def word : Reader Word := do
  let text ← get
  return Word.withHome (Word.joined (← wordFrom isMeta (text.length + 1) []).reverse)

def Word.ofText (quotation : Option Quotation) (text : List Char) : Except Fault Word := do
  let (pieces, _) ← match quotation with
    | some q => (doubleQuoted q (text.length + 1) []).run text
    | none => (wordFrom (fun _ => false) (text.length + 1) []).run text
  return Word.joined pieces.reverse

def Word.plain? : Word → Option (List Char)
  | [.text text false] => some text
  | _ => none

def Word.unquoted : Word → List Char
  | [] => []
  | .text text _ :: rest => text ++ unquoted rest
  | _ :: rest => unquoted rest

def Word.isQuoted (w : Word) : Bool := w.any fun
  | .text _ quoted => quoted
  | _ => false

end ProofPanel.Host.Shell
