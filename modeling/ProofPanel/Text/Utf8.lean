/-!
# UTF-8

Characters as octets and back. One machine reads octets: it stands between two characters, or
inside one with some octets still owed. Strict decoding stops where the machine refuses an octet;
lossy decoding writes one replacement character for each longest run of octets that could have
begun a character, and goes on.
-/
namespace ProofPanel.Utf8

def encode (text : List Char) : List UInt8 := text.flatMap String.utf8EncodeChar

def size (text : List Char) : Nat := text.foldl (fun n c => n + c.utf8Size) 0

/-- A character begun: the octets still owed, the range of the next one, and the bits so far. -/
structure Partial where
  owed : Nat
  low : UInt8
  high : UInt8
  bits : Nat
deriving DecidableEq

inductive Step
  | char (c : Char)
  | more (p : Partial)
  | refused
deriving DecidableEq

/-- An octet read between two characters. The ranges keep out surrogates, overlong forms and
values above the last code point. -/
def first (b : UInt8) : Step :=
  if b < 0x80 then .char (Char.ofNat b.toNat)
  else if b < 0xC2 then .refused
  else if b < 0xE0 then .more ⟨1, 0x80, 0xBF, b.toNat % 32⟩
  else if b < 0xF0 then
    .more ⟨2, if b = 0xE0 then 0xA0 else 0x80, if b = 0xED then 0x9F else 0xBF, b.toNat % 16⟩
  else if b < 0xF5 then
    .more ⟨3, if b = 0xF0 then 0x90 else 0x80, if b = 0xF4 then 0x8F else 0xBF, b.toNat % 8⟩
  else .refused

def Partial.next (p : Partial) (b : UInt8) : Step :=
  if p.low ≤ b && b ≤ p.high then
    let bits := p.bits * 64 + b.toNat % 64
    if p.owed = 1 then .char (Char.ofNat bits) else .more ⟨p.owed - 1, 0x80, 0xBF, bits⟩
  else .refused

def step : Option Partial → UInt8 → Step
  | none, b => first b
  | some p, b => p.next b

/-- Decoding from inside a character or between two, the text read so far in reverse. -/
def decodeFrom : Option Partial → List Char → List UInt8 → Option (List Char)
  | none, done, [] => some done.reverse
  | some _, _, [] => none
  | begun, done, b :: rest =>
    match step begun b with
    | .char c => decodeFrom none (c :: done) rest
    | .more p => decodeFrom (some p) done rest
    | .refused => none

def decode? (octets : List UInt8) : Option (List Char) := decodeFrom none [] octets

def replacement : Char := Char.ofNat 0xFFFD

def decodeLossyFrom : Option Partial → List Char → List UInt8 → List Char
  | none, done, [] => done.reverse
  | some _, done, [] => (replacement :: done).reverse
  | begun, done, b :: rest =>
    match step begun b with
    | .char c => decodeLossyFrom none (c :: done) rest
    | .more p => decodeLossyFrom (some p) done rest
    | .refused =>
      -- An octet refused inside a character may begin the next one.
      match begun with
      | none => decodeLossyFrom none (replacement :: done) rest
      | some _ =>
        match first b with
        | .char c => decodeLossyFrom none (c :: replacement :: done) rest
        | .more p => decodeLossyFrom (some p) (replacement :: done) rest
        | .refused => decodeLossyFrom none (replacement :: replacement :: done) rest

def decodeLossy (octets : List UInt8) : List Char := decodeLossyFrom none [] octets

end ProofPanel.Utf8
