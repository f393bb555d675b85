import ProofPanel.Host.Shell.Words

/-!
# Reading commands

How a script is read, one complete command at a time: those before a malformed one are run. Part of
the stand-in for the system in which connections to processes are tried; no theorem is about it.
-/
namespace ProofPanel.Host.Shell

def afterBlanks : List Char → List Char
  | ' ' :: rest => afterBlanks rest
  | '\t' :: rest => afterBlanks rest
  | '\\' :: '\n' :: rest => afterBlanks rest
  | '#' :: rest => rest.dropWhile (· != '\n')
  | text => text

def skipBlanks : Reader Unit := modify afterBlanks

/-- Skips blank lines. -/
def skipLines : (fuel : Nat) → Reader Unit
  | 0 => return
  | fuel + 1 => do
    skipBlanks
    match ← get with
    | '\n' :: rest =>
      set rest
      skipLines fuel
    | _ => return

def skipAllLines : Reader Unit := do skipLines ((← get).length + 1)

def nextPlain (text : List Char) : List Char :=
  let name := text.takeWhile fun c => !isMeta c
  if name.any fun c => "\x22\x27\\$\x60".toList.contains c then [] else name

def standsNext (name : String) (text : List Char) : Bool := nextPlain text == name.toList

def closers : List String := ["do", "done", "then", "else", "elif", "fi", "esac", "\x7d"]

def atEnd (text : List Char) : Bool :=
  match text with
  | [] | ')' :: _ | ';' :: ';' :: _ => true
  | _ => closers.any (standsNext · text)

def expect (name : String) : Reader Unit := do
  skipAllLines
  let text ← get
  if text.isEmpty then unfinished
  else if standsNext name text then set (text.drop name.length)
  else malformed

def expectChar (c : Char) : Reader Unit := do
  skipBlanks
  match ← get with
  | [] => unfinished
  | d :: rest => if c = d then set rest else malformed

def hereLines (stop : List Char) (tabs : Bool) : (fuel : Nat) → List Char → List Char × List Char
  | 0, text => ([], text)
  | _, [] => ([], [])
  | fuel + 1, text =>
    let line := text.takeWhile (· != '\n')
    let rest := (text.drop line.length).drop 1
    let line := if tabs then line.dropWhile (· == '\t') else line
    if line = stop then ([], rest)
    else
      let (more, rest) := hereLines stop tabs fuel rest
      (line ++ '\n' :: more, rest)

def hereDocument (tabs : Bool) : Reader Word := do
  skipBlanks
  let delimiter ← word
  let text ← get
  let line := text.takeWhile (· != '\n')
  let (body, rest) :=
    hereLines delimiter.unquoted tabs (text.length + 1) ((text.drop line.length).drop 1)
  set (line ++ '\n' :: rest)
  if delimiter.isQuoted then return [.text body true]
  else
    match Word.ofText (some .document) body with
    | .ok word => return word
    | .error fault => throw fault

def redirection? : Reader (Option Redirection) := do
  let text ← get
  let digits := text.takeWhile Char.isDigit
  let descriptor := if digits.isEmpty then none else (String.ofList digits).toNat?
  let target (preset : Nat) (kind : Redirect) (rest : List Char) : Reader (Option Redirection) := do
    set rest
    skipBlanks
    let target ← word
    if target.isEmpty then malformed
    return some ⟨descriptor.getD preset, kind, target⟩
  match text.drop digits.length with
  | '<' :: '<' :: '-' :: rest =>
    set rest
    return some ⟨descriptor.getD 0, .here, ← hereDocument true⟩
  | '<' :: '<' :: rest =>
    set rest
    return some ⟨descriptor.getD 0, .here, ← hereDocument false⟩
  | '<' :: '&' :: rest => target 0 .duplicate rest
  | '>' :: '&' :: rest => target 1 .duplicate rest
  | '<' :: '>' :: rest => target 0 .both rest
  | '>' :: '>' :: rest => target 1 .append rest
  | '>' :: '|' :: rest => target 1 .output rest
  | '>' :: rest => target 1 .output rest
  | '<' :: rest => target 0 .input rest
  | _ => return none

def redirections : (fuel : Nat) → Reader (List Redirection)
  | 0 => malformed
  | fuel + 1 => do
    skipBlanks
    match ← redirection? with
    | none => return []
    | some r => return r :: (← redirections fuel)

def assignment? (w : Word) : Option Assignment :=
  match w with
  | .text text false :: rest =>
    let name := text.takeWhile isNameChar
    match text.drop name.length with
    | '=' :: value =>
      if isName name then
        let value := if value.isEmpty then rest else .text value false :: rest
        some ⟨name, Word.withHome value⟩
      else none
    | _ => none
  | _ => none

def simpleFrom : (fuel : Nat) → List Assignment → List Word → List Redirection → Reader Command
  | 0, _, _, _ => malformed
  | fuel + 1, assignments, words, redirections => do
    skipBlanks
    match ← redirection? with
    | some r => simpleFrom fuel assignments words (r :: redirections)
    | none =>
      let next ← word
      if next.isEmpty then
        if assignments.isEmpty && words.isEmpty && redirections.isEmpty then malformed
        return .simple assignments.reverse words.reverse redirections.reverse
      match words, assignment? next with
      | [], some a => simpleFrom fuel (a :: assignments) words redirections
      | _, _ => simpleFrom fuel assignments (next :: words) redirections

def definition? (text : List Char) : Option (List Char × List Char) :=
  let name := nextPlain text
  if !isName name then none
  else
    match afterBlanks (text.drop name.length) with
    | '(' :: rest =>
      match afterBlanks rest with
      | ')' :: rest => some (name, rest)
      | _ => none
    | _ => none

def wordsFrom : (fuel : Nat) → Reader (List Word)
  | 0 => malformed
  | fuel + 1 => do
    skipBlanks
    let next ← word
    if next.isEmpty then return []
    return next :: (← wordsFrom fuel)

def patternsFrom : (fuel : Nat) → Reader (List Word)
  | 0 => malformed
  | fuel + 1 => do
    skipBlanks
    let next ← word
    if next.isEmpty then
      if (← get).isEmpty then unfinished else malformed
    skipBlanks
    match ← get with
    | '|' :: rest =>
      set rest
      return next :: (← patternsFrom fuel)
    | ')' :: rest =>
      set rest
      return [next]
    | [] => unfinished
    | _ => malformed

def filled (body : List Command) : Reader (List Command) := do
  if body.isEmpty then
    if (← get).isEmpty then unfinished else malformed
  return body

inductive Close
  | sign
  | line
  | list
deriving DecidableEq

mutual

def list : (fuel : Nat) → Reader (List Command)
  | 0 => malformed
  | fuel + 1 => do
    skipAllLines
    if atEnd (← get) then return []
    let (command, _) ← item fuel
    return command :: (← list fuel)

def item : (fuel : Nat) → Reader (Command × Close)
  | 0 => malformed
  | fuel + 1 => do
    let command ← chain fuel (← pipeline fuel)
    skipBlanks
    match ← get with
    | '&' :: rest =>
      set rest
      return (.background command, .sign)
    | ';' :: ';' :: _ => return (command, .list)
    | ';' :: rest =>
      set rest
      return (command, .sign)
    | '\n' :: rest =>
      set rest
      return (command, .line)
    | text => if atEnd text then return (command, .list) else malformed

def chain : (fuel : Nat) → Command → Reader Command
  | 0, _ => malformed
  | fuel + 1, first => do
    skipBlanks
    match ← get with
    | '&' :: '&' :: rest =>
      set rest
      skipAllLines
      chain fuel (.both first (← pipeline fuel))
    | '|' :: '|' :: rest =>
      set rest
      skipAllLines
      chain fuel (.either first (← pipeline fuel))
    | _ => return first

def pipeline : (fuel : Nat) → Reader Command
  | 0 => malformed
  | fuel + 1 => do
    skipBlanks
    let text ← get
    if text.isEmpty then unfinished
    if standsNext "!" text then
      set (text.drop 1)
      return .negated (← pipeline fuel)
    match ← stages fuel with
    | [one] => return one
    | parts => return .pipeline parts

def stages : (fuel : Nat) → Reader (List Command)
  | 0 => malformed
  | fuel + 1 => do
    let first ← command fuel
    skipBlanks
    match ← get with
    | '|' :: '|' :: _ => return [first]
    | '|' :: rest =>
      set rest
      skipAllLines
      return first :: (← stages fuel)
    | _ => return [first]

def command : (fuel : Nat) → Reader Command
  | 0 => malformed
  | fuel + 1 => do
    skipBlanks
    let text ← get
    match definition? text with
    | some (name, rest) =>
      set rest
      skipAllLines
      return .define name (← command fuel)
    | none =>
      match ← compound fuel with
      | none => simpleFrom (text.length + 1) [] [] []
      | some body =>
        match ← redirections (text.length + 1) with
        | [] => return body
        | rs => return .redirected body rs

def compound : (fuel : Nat) → Reader (Option Command)
  | 0 => malformed
  | fuel + 1 => do
    match ← get with
    | [] => unfinished
    | '(' :: rest =>
      set rest
      let body ← filled (← list fuel)
      expectChar ')'
      return some (.apart body)
    | text =>
      let name := String.ofList (nextPlain text)
      let rest := text.drop name.length
      match name with
      | "\x7b" =>
        set rest
        let body ← filled (← list fuel)
        expect "\x7d"
        return some (.group body)
      | "while" | "until" =>
        set rest
        let condition ← filled (← list fuel)
        expect "do"
        let body ← filled (← list fuel)
        expect "done"
        return some (.loop (name = "until") condition body)
      | "for" =>
        set rest
        skipBlanks
        match Word.plain? (← word) with
        | none => if (← get).isEmpty then unfinished else malformed
        | some name =>
          if !isName name then malformed
          skipAllLines
          let text ← get
          let items ←
            if standsNext "in" text then do
              set (text.drop 2)
              let items ← wordsFrom (text.length + 1)
              skipBlanks
              match ← get with
              | ';' :: rest => set rest
              | '\n' :: rest => set rest
              | [] => unfinished
              | _ => malformed
              pure items
            else do
              match text with
              | ';' :: rest => set rest
              | _ => pure ()
              pure [[.parameter ['@'] .plain [] true]]
          expect "do"
          let body ← filled (← list fuel)
          expect "done"
          return some (.each name items body)
      | "if" =>
        set rest
        return some (← branches fuel)
      | "case" =>
        set rest
        skipBlanks
        let subject ← word
        if subject.isEmpty then
          if (← get).isEmpty then unfinished else malformed
        expect "in"
        return some (.choice subject (← cases fuel))
      | _ => if closers.contains name then malformed else return none

def branches : (fuel : Nat) → Reader Command
  | 0 => malformed
  | fuel + 1 => do
    let condition ← filled (← list fuel)
    expect "then"
    let yes ← filled (← list fuel)
    let text ← get
    if standsNext "elif" text then
      set (text.drop 4)
      return .branch condition yes [← branches fuel]
    else if standsNext "else" text then
      set (text.drop 4)
      let no ← filled (← list fuel)
      expect "fi"
      return .branch condition yes no
    else
      expect "fi"
      return .branch condition yes []

def cases : (fuel : Nat) → Reader (List (List Word × List Command))
  | 0 => malformed
  | fuel + 1 => do
    skipAllLines
    let text ← get
    if text.isEmpty then unfinished
    if standsNext "esac" text then
      set (text.drop 4)
      return []
    match text with
    | '(' :: rest => set rest
    | _ => pure ()
    let patterns ← patternsFrom (text.length + 1)
    let body ← list fuel
    skipAllLines
    match ← get with
    | ';' :: ';' :: rest =>
      set rest
      return (patterns, body) :: (← cases fuel)
    | _ =>
      expect "esac"
      return [(patterns, body)]

end

def line : (fuel : Nat) → Reader (List Command)
  | 0 => malformed
  | fuel + 1 => do
    let text ← get
    let (command, close) ← item (8 * text.length + 8)
    match close with
    | .line => return [command]
    | .list => if (← get).isEmpty then return [command] else malformed
    | .sign =>
      skipBlanks
      match ← get with
      | [] => return [command]
      | '\n' :: rest =>
        set rest
        return [command]
      | _ => return command :: (← line fuel)

def nextCommands? (text : List Char) : Except Fault (Option (List Command × List Char)) :=
  let reader : Reader (Option (List Command)) := do
    skipAllLines
    if (← get).isEmpty then return none
    return some (← line (text.length + 1))
  match reader.run text with
  | .ok (none, _) => .ok none
  | .ok (some commands, rest) => .ok (some (commands, rest))
  | .error fault => .error fault

end ProofPanel.Host.Shell
