import ProofPanel.Markup.Colour

/-!
# Colouring by substitution

Regular expressions, and the rules by which a text that is already escaped is coloured. A rule
matches at the start of a line and sets the beginning of what it matches in a strong element. The
rules are applied one after the other to the whole text.
-/
namespace ProofPanel.Markup

inductive Pattern
  | word (letters : List Char)
  | one (accepts : Char → Bool)
  /-- As many characters as there are, or fewer if what follows does not match otherwise. -/
  | many (accepts : Char → Bool)
  | both (first second : Pattern)
  /-- The first, or the second if what follows does not match otherwise. -/
  | either (first second : Pattern)

namespace Pattern

/-- The text itself and what is left of it behind its first accepted characters, the shortest
first. -/
def shortened (accepts : Char → Bool) : List Char → List (List Char)
  | [] => [[]]
  | c :: rest => (if accepts c then shortened accepts rest else []) ++ [c :: rest]

/-- What can be left of a text behind a match at its beginning, the preferred match first. -/
def rests : Pattern → List Char → List (List Char)
  | .word letters, text => (letters.isPrefixOf? text).toList
  | .one _, [] => []
  | .one accepts, c :: rest => if accepts c then [rest] else []
  | .many accepts, text => shortened accepts text
  | .both first second, text => (first.rests text).flatMap second.rests
  | .either first second, text => first.rests text ++ second.rests text

/-- Whether no match is empty. -/
def takes : Pattern → Bool
  | .word letters => !letters.isEmpty
  | .one _ => true
  | .many _ => false
  | .both first second => first.takes || second.takes
  | .either first second => first.takes && second.takes

def staysOnLine : Pattern → Bool
  | .word letters => !letters.contains '\n'
  | .one accepts | .many accepts => !accepts '\n'
  | .both first second | .either first second => first.staysOnLine && second.staysOnLine

end Pattern

/-- A rule matches what is to be marked and what has to stand behind it. -/
structure Rule where
  mark : Mark
  marked : Pattern
  behind : List Char
  takes : marked.takes = true := by decide
  staysOnLine : (marked.staysOnLine && !behind.contains '\n') = true := by decide

def Mark.opening (m : Mark) : List Char := ("<strong class=\"" ++ m.className ++ "\">").toList

def strongClosing : List Char := "</strong>".toList

namespace Rule

def left? (r : Rule) (text : List Char) : Option (List Char) :=
  (r.marked.rests text).find? (r.behind.isPrefixOf ·)

def marks? (r : Rule) (text : List Char) : Option (List Char) :=
  (r.left? text).map fun left => text.take (text.length - left.length)

/-- Replaces the matches in a text from left to right. `fresh` tells whether a line starts here,
`matched` how many characters of a match that has been replaced are still to come. -/
def replace (r : Rule) (fresh : Bool) (matched : Nat) : List Char → List Char
  | [] => []
  | c :: rest =>
    match matched with
    | matched + 1 => r.replace (c == '\n') matched rest
    | 0 =>
      match if fresh then r.marks? (c :: rest) else none with
      | none => c :: r.replace (c == '\n') 0 rest
      | some marked =>
        r.mark.opening ++ marked ++ strongClosing ++ r.behind ++
          r.replace (c == '\n') (marked.length + r.behind.length - 1) rest

/-! The rules for goals and errors. -/

def turnstile : Rule where
  mark := .turnstile
  marked := .one fun c => c == '|' || c == '⊢'
  behind := [' ']

def count : Rule where
  mark := .goals
  marked := .both (.one Text.isDecimalDigit)
    (.both (.many Text.isDecimalDigit) (.word " goals".toList))
  behind := []

def header : Rule where
  mark := .goals
  marked := .either (.word "context".toList) (.word "state".toList)
  behind := [':']

def caseTag : Rule where
  mark := .caseTag
  marked := .word "case".toList
  behind := [' ']

def startsNames (c : Char) : Bool := [':', '\n', '<', ' '].all (c != ·)

def isInNames (c : Char) : Bool := [':', '\n', '⊢'].all (c != ·)

def hypothesis : Rule where
  mark := .hypothesis
  marked := .both (.one startsNames) (.many isInNames)
  behind := [' ', ':']

end Rule

def rules : List Rule := [.turnstile, .count, .header, .caseTag, .hypothesis]

def colorizeChars (text : List Char) : List Char :=
  rules.foldl (fun coloured r => r.replace true 0 coloured) (escapeChars text)

def colorize (text : String) : String := .ofList (colorizeChars text.toList)

end ProofPanel.Markup
