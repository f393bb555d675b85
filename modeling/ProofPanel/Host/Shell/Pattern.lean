/-!
# Patterns

What a star, a question mark and a bracket stand for. A character that is quoted stands for itself.
Part of the stand-in for the system in which connections to processes are tried; no theorem is about
it.
-/
namespace ProofPanel.Host.Shell

abbrev Marked := Char × Bool

def isClass (name : String) (c : Char) : Bool :=
  match name with
  | "alpha" => c.isAlpha
  | "digit" => c.isDigit
  | "alnum" => c.isAlphanum
  | "upper" => c.isUpper
  | "lower" => c.isLower
  | "space" => c = ' ' || ('\t' ≤ c && c ≤ '\r')
  | "blank" => c = ' ' || c = '\t'
  | "punct" => '!' ≤ c && c ≤ '~' && !c.isAlphanum
  | "print" => ' ' ≤ c && c ≤ '~'
  | "graph" => '!' ≤ c && c ≤ '~'
  | "cntrl" => c < ' ' || c = '\x7f'
  | "xdigit" => c.isDigit || ('a' ≤ c && c ≤ 'f') || ('A' ≤ c && c ≤ 'F')
  | _ => false

def classAt? (inside : List Marked) : Option (String × List Marked) :=
  match inside with
  | ('[', false) :: (':', _) :: rest =>
    let name := rest.takeWhile fun c => c.1 != ':'
    match rest.drop name.length with
    | (':', _) :: (']', _) :: after => some (.ofList (name.map (·.1)), after)
    | _ => none
  | _ => none

/-- Tests for the characters that stand inside a bracket, and what follows it; `none` if it is not
closed. The first character is taken even if it is the closing bracket. -/
def bracket? : (fuel : Nat) → (isFirst : Bool) → List Marked →
    Option (List (Char → Bool) × List Marked)
  | 0, _, _ => none
  | _, _, [] => none
  | fuel + 1, isFirst, (c, quoted) :: rest =>
    if c = ']' && !quoted && !isFirst then some ([], rest)
    else
      let (test, after) : (Char → Bool) × List Marked :=
        match classAt? ((c, quoted) :: rest) with
        | some (name, after) => (isClass name, after)
        | none =>
          match rest with
          | ('-', false) :: (top, topQuoted) :: after =>
            if top = ']' && !topQuoted then ((· == c), rest)
            else (fun d => c ≤ d && d ≤ top, after)
          | _ => ((· == c), rest)
      (bracket? fuel false after).map fun (tests, rest) => (test :: tests, rest)

def isMatch : (fuel : Nat) → List Marked → List Char → Bool
  | 0, _, _ => false
  | _, [], text => text.isEmpty
  | fuel + 1, (c, quoted) :: rest, text =>
    if quoted then
      match text with
      | d :: text => c = d && isMatch fuel rest text
      | [] => false
    else if c = '*' then
      isMatch fuel rest text ||
        match text with
        | _ :: text => isMatch fuel ((c, quoted) :: rest) text
        | [] => false
    else
      match text with
      | [] => false
      | d :: text =>
        if c = '?' then isMatch fuel rest text
        else if c = '[' then
          let (refused, inside) := match rest with
            | ('!', false) :: inside => (true, inside)
            | _ => (false, rest)
          match bracket? (inside.length + 1) true inside with
          | some (tests, rest) => (tests.any (· d)) != refused && isMatch fuel rest text
          | none => c = d && isMatch fuel rest text
        else c = d && isMatch fuel rest text

def isMatching (pattern : List Marked) (text : List Char) : Bool :=
  isMatch (pattern.length + text.length + 1) pattern text

/-- The text without the part at its start that a pattern stands for, the shortest or longest. -/
def dropStart (longest : Bool) (pattern : List Marked) (text : List Char) : List Char :=
  let sizes := List.range (text.length + 1)
  let sizes := if longest then sizes.reverse else sizes
  match sizes.find? fun n => isMatching pattern (text.take n) with
  | some n => text.drop n
  | none => text

def dropEnd (longest : Bool) (pattern : List Marked) (text : List Char) : List Char :=
  let sizes := List.range (text.length + 1)
  let sizes := if longest then sizes.reverse else sizes
  match sizes.find? fun n => isMatching pattern (text.drop (text.length - n)) with
  | some n => text.take (text.length - n)
  | none => text

end ProofPanel.Host.Shell
