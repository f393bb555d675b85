import ProofPanel.Markup.Token
import ProofPanel.Text.DecimalDigit

/-!
# Colours in goals and errors

At the start of a line some words show how a goal is built: a turnstile, a count of goals, a
header, the name of a case, the names of hypotheses before their type. They are set in strong
elements; the rest of the text stays as it is.
-/
namespace ProofPanel.Markup

inductive Mark
  | turnstile
  | goals
  | caseTag
  | hypothesis
deriving DecidableEq

def Mark.className : Mark → String
  | .turnstile => "goal-vdash"
  | .goals => "goal-goals"
  | .caseTag => "goal-case"
  | .hypothesis => "goal-hyp"

def afterTurnstile? : List Char → Option Nat
  | '⊢' :: ' ' :: _ => some 1
  | '|' :: ' ' :: _ => some 1
  | _ => none

def afterCount? (line : List Char) : Option Nat :=
  let digits := line.takeWhile Text.isDecimalDigit
  let goals := " goals".toList
  if !digits.isEmpty && goals.isPrefixOf (line.dropWhile Text.isDecimalDigit) then
    some (digits.length + goals.length)
  else none

def afterHeader? (line : List Char) : Option Nat :=
  if "context:".toList.isPrefixOf line then some 7
  else if "state:".toList.isPrefixOf line then some 5
  else none

def afterCase? (line : List Char) : Option Nat :=
  if "case ".toList.isPrefixOf line then some 4 else none

/-- The names of hypotheses reach to the first colon after the first character, if a space stands
before it and no turnstile between. -/
def afterHypothesis? : List Char → Option Nat
  | [] => none
  | c :: rest =>
    let names := rest.takeWhile (· != ':')
    if c != ':' && c != ' ' && names.length < rest.length && names.getLast? == some ' ' &&
        !names.contains '⊢' then
      some names.length
    else none

def mark? (line : List Char) : Option (Mark × Nat) :=
  (afterTurnstile? line).map (.turnstile, ·) <|>
  (afterCount? line).map (.goals, ·) <|>
  (afterHeader? line).map (.goals, ·) <|>
  (afterCase? line).map (.caseTag, ·) <|>
  (afterHypothesis? line).map (.hypothesis, ·)

def colourLine (line : List Char) : List Token :=
  match mark? line with
  | none => [.text line]
  | some (mark, n) =>
    element "strong" [.valued "class" mark.className] [.text (line.take n)] ++
      [.text (line.drop n)]

def colour (text : String) : List Token :=
  match text.toList.splitOn '\n' with
  | [] => []
  | first :: rest => colourLine first ++ rest.flatMap fun line => lineBreak :: colourLine line

end ProofPanel.Markup
