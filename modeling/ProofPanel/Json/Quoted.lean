import ProofPanel.Json.Number

/-!
# Strings in JSON text

What follows an opening quote, up to the closing one. An escaped character beyond the basic plane
is written as a pair of surrogates, and a surrogate without its partner is a fault.
-/
namespace ProofPanel.Json

def hexValue? (c : Char) : Option Nat :=
  if isDigit c then some (digitValue c)
  else if 'a' ≤ c && c ≤ 'f' then some (c.toNat - 87)
  else if 'A' ≤ c && c ≤ 'F' then some (c.toNat - 55)
  else none

def isHighSurrogate (n : Nat) : Bool := 0xD800 ≤ n && n ≤ 0xDBFF

def isLowSurrogate (n : Nat) : Bool := 0xDC00 ≤ n && n ≤ 0xDFFF

/-- The four hexadecimal digits of an escape. A shorter text is a fault at its end, any other one
after the four octets. -/
def readHex (text : List Char) : Reads Nat :=
  match text with
  | a :: b :: c :: d :: rest =>
    match hexValue? a, hexValue? b, hexValue? c, hexValue? d with
    | some a, some b, some c, some d => .ok (((a * 16 + b) * 16 + c) * 16 + d, rest)
    | _, _, _, _ => .error ⟨.invalidEscape, text, 4⟩
  | _ =>
    if Utf8.size text < 4 then .error (Stop.at .endInString [])
    else .error ⟨.invalidEscape, text, 4⟩

def expectInEscape (expected : Char) : List Char → Reads Unit
  | [] => .error (Stop.at .endInString [])
  | c :: rest => if c = expected then .ok ((), rest) else .error ⟨.endOfHexEscape, c :: rest, 1⟩

def readLowHalf (high : Nat) (text : List Char) : Except Stop (Char × List Char) := do
  let (_, text) ← expectInEscape '\\' text
  let (_, text) ← expectInEscape 'u' text
  let (low, text) ← readHex text
  if isLowSurrogate low then
    return (Char.ofNat (0x10000 + (high - 0xD800) * 1024 + (low - 0xDC00)), text)
  else throw (Stop.at .loneSurrogate text)

def readEscape : List Char → Except Stop (Char × List Char)
  | [] => .error (Stop.at .endInString [])
  | c :: rest =>
    match c with
    | '\x22' => .ok ('\x22', rest)
    | '\\' => .ok ('\\', rest)
    | '/' => .ok ('/', rest)
    | 'b' => .ok ('\x08', rest)
    | 'f' => .ok ('\x0c', rest)
    | 'n' => .ok ('\x0a', rest)
    | 'r' => .ok ('\x0d', rest)
    | 't' => .ok ('\x09', rest)
    | 'u' => do
      let (unit, text) ← readHex rest
      if isLowSurrogate unit then throw (Stop.at .loneSurrogate text)
      else if isHighSurrogate unit then readLowHalf unit text
      else return (Char.ofNat unit, text)
    | _ => .error ⟨.invalidEscape, c :: rest, 1⟩

/-- The rest of a string, of which `done` was read, in reverse. No string is longer than its text,
so `fuel` never runs out when it starts as the length of the text. -/
def readQuotedFrom : (fuel : Nat) → (done : List Char) → List Char → Reads String
  | 0, _, text => .error (Stop.at .endInString text)
  | _, _, [] => .error (Stop.at .endInString [])
  | fuel + 1, done, c :: rest =>
    if c = '\x22' then .ok (.ofList done.reverse, rest)
    else if c = '\\' then
      match readEscape rest with
      | .ok (c, rest) => readQuotedFrom fuel (c :: done) rest
      | .error stop => .error stop
    else if c.toNat < 0x20 then .error (Stop.at .controlCharacter rest)
    else readQuotedFrom fuel (c :: done) rest

end ProofPanel.Json
