import ProofPanel.Json.Fault
import ProofPanel.Json.Value

/-!
# Numbers in JSON text

A number without point and exponent is whole if it fits into 64 bits, unsigned or, with a minus
sign, signed. Every other number is a double: the digits that fit into 64 bits, scaled by a power
of ten in one or two floating-point steps.
-/
namespace ProofPanel.Json

abbrev Reads (α : Type) := Except Stop (α × List Char)

def isDigit (c : Char) : Bool := '0' ≤ c && c ≤ '9'

def digitValue (c : Char) : Nat := c.toNat - 48

def maxSignificand : Nat := UInt64.size - 1

def maxExponent : Nat := UInt32.size / 2 - 1

/-- Takes digits as long as the number they continue is at most `bound`: the number, how many
digits were taken, and what is left, which starts with a digit only if that one was too much. -/
def takeDigits (bound : Nat) : (n taken : Nat) → List Char → Nat × Nat × List Char
  | n, taken, [] => (n, taken, [])
  | n, taken, c :: rest =>
    if isDigit c && n * 10 + digitValue c ≤ bound then
      takeDigits bound (n * 10 + digitValue c) (taken + 1) rest
    else (n, taken, c :: rest)

def startsWithDigit : List Char → Bool
  | c :: _ => isDigit c
  | [] => false

/-- `f * 10 ^ exponent`, unless it is beyond the range of a double. A power that is no double is
taken in steps of `10 ^ 308`. -/
def scale (f : Float) (exponent : Int) : Option Float :=
  if exponent.natAbs ≤ 308 then
    if 0 ≤ exponent then
      let scaled := f * Float.ofScientific 1 false exponent.natAbs
      if scaled.isInf then none else some scaled
    else some (f / Float.ofScientific 1 false exponent.natAbs)
  else if f == 0 then some f
  else if 0 ≤ exponent then none
  else scale (f / Float.ofScientific 1 false 308) (exponent + 308)
termination_by exponent.natAbs
decreasing_by omega

def signed (negative : Bool) (f : Float) : Float := if negative then -f else f

def readScaled (negative : Bool) (significand : Nat) (exponent : Int) (rest : List Char) :
    Reads Json :=
  match scale (UInt64.ofNat significand).toFloat exponent with
  | some f => .ok (.float (signed negative f), rest)
  | none => .error (Stop.at .numberOutOfRange rest)

def readExponent (negative : Bool) (significand : Nat) (start : Int) (text : List Char) :
    Reads Json :=
  let (down, digits) := match text with
    | '+' :: rest => (false, rest)
    | '-' :: rest => (true, rest)
    | _ => (false, text)
  match digits with
  | [] => .error (Stop.at .endInValue [])
  | c :: _ =>
    if !isDigit c then .error ⟨.invalidNumber, digits, 1⟩
    else
      let (exponent, _, rest) := takeDigits maxExponent 0 0 digits
      if startsWithDigit rest then
        if significand ≠ 0 && !down then .error (Stop.at .numberOutOfRange (rest.drop 1))
        else .ok (.float (signed negative 0), rest.dropWhile isDigit)
      else
        let scale := if down then start - exponent else start + exponent
        readScaled negative significand scale rest

/-- What follows the point. Digits beyond the significand do not count. -/
def readFraction (negative : Bool) (significand : Nat) (start : Int) (text : List Char) :
    Reads Json :=
  if !startsWithDigit text then
    .error (Stop.onNext (if text.isEmpty then .endInValue else .invalidNumber) text)
  else
    let (significand, taken, rest) := takeDigits maxSignificand significand 0 text
    let exponent := start - taken
    match rest.dropWhile isDigit with
    | 'e' :: rest => readExponent negative significand exponent rest
    | 'E' :: rest => readExponent negative significand exponent rest
    | rest => readScaled negative significand exponent rest

def wholeNumber (negative : Bool) (n : Nat) : Json :=
  if !negative then .int n
  else if 0 < n && n ≤ UInt64.size / 2 then .int (-n)
  else .float (-(UInt64.ofNat n).toFloat)

/-- What follows the digits of the significand. Each further digit is one more power of ten. -/
def readSuffix (negative : Bool) (significand : Nat) (text : List Char) : Reads Json :=
  let extra := (text.takeWhile isDigit).length
  match text.dropWhile isDigit with
  | '.' :: rest => readFraction negative significand extra rest
  | 'e' :: rest => readExponent negative significand extra rest
  | 'E' :: rest => readExponent negative significand extra rest
  | rest =>
    if extra = 0 then .ok (wholeNumber negative significand, rest)
    else readScaled negative significand extra rest

def readNumber (negative : Bool) : List Char → Reads Json
  | [] => .error (Stop.at .endInValue [])
  | '0' :: rest =>
    if startsWithDigit rest then .error (Stop.onNext .invalidNumber rest)
    else readSuffix negative 0 rest
  | c :: rest =>
    if isDigit c then
      let (significand, _, after) := takeDigits maxSignificand 0 0 (c :: rest)
      readSuffix negative significand after
    else .error ⟨.invalidNumber, c :: rest, 1⟩

end ProofPanel.Json
