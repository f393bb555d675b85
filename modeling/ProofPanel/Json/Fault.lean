import ProofPanel.Text.Utf8

/-!
# Faults in JSON text

Why a text is not JSON, and where: the line and the octet in that line at which reading stopped.
-/
namespace ProofPanel.Json

inductive Cause
  | endInList
  | endInObject
  | endInString
  | endInValue
  | expectedColon
  | expectedListCommaOrEnd
  | expectedObjectCommaOrEnd
  | expectedIdent
  | expectedValue
  | invalidEscape
  | invalidNumber
  | numberOutOfRange
  | controlCharacter
  | keyNotString
  | loneSurrogate
  | trailingComma
  | trailingCharacters
  | endOfHexEscape
  | nestedTooDeep
deriving DecidableEq, Repr

def Cause.message : Cause → String
  | .endInList => "EOF while parsing a list"
  | .endInObject => "EOF while parsing an object"
  | .endInString => "EOF while parsing a string"
  | .endInValue => "EOF while parsing a value"
  | .expectedColon => "expected `:`"
  | .expectedListCommaOrEnd => "expected `,` or `]`"
  | .expectedObjectCommaOrEnd => "expected `,` or `\x7d`"
  | .expectedIdent => "expected ident"
  | .expectedValue => "expected value"
  | .invalidEscape => "invalid escape"
  | .invalidNumber => "invalid number"
  | .numberOutOfRange => "number out of range"
  | .controlCharacter => "control character (\\u0000-\\u001F) found while parsing a string"
  | .keyNotString => "key must be a string"
  | .loneSurrogate => "lone leading surrogate in hex escape"
  | .trailingComma => "trailing comma"
  | .trailingCharacters => "trailing characters"
  | .endOfHexEscape => "unexpected end of hex escape"
  | .nestedTooDeep => "recursion limit exceeded"

/-- A cause, the text not yet read when it arose, and how many octets of that text reading had
looked at. -/
structure Stop where
  cause : Cause
  rest : List Char
  beyond : Nat
deriving DecidableEq

def Stop.at (cause : Cause) (rest : List Char) : Stop := ⟨cause, rest, 0⟩

def Stop.onNext (cause : Cause) (rest : List Char) : Stop :=
  ⟨cause, rest, if rest.isEmpty then 0 else 1⟩

/-- A fault with the line it is on, counted from one, and the octets of that line before it. -/
structure Fault where
  cause : Cause
  line : Nat
  column : Nat
deriving DecidableEq, Repr

def place (octets : Nat) : List Char → (line column : Nat) → Nat × Nat
  | [], line, column => (line, column + octets)
  | c :: rest, line, column =>
    if octets < c.utf8Size then (line, column + octets)
    else if c = '\n' then place (octets - 1) rest (line + 1) 0
    else place (octets - c.utf8Size) rest line (column + c.utf8Size)

def Stop.fault (stop : Stop) (text : List Char) : Fault :=
  let (line, column) := place (Utf8.size text - Utf8.size stop.rest + stop.beyond) text 1 0
  ⟨stop.cause, line, column⟩

def Fault.message (fault : Fault) : String :=
  fault.cause.message ++ " at line " ++ toString fault.line ++ " column " ++
    toString fault.column

end ProofPanel.Json
