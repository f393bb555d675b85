import ProofPanel.Text.Utf8

/-!
# Percent-encoding

Text in URIs: an octet outside the kept set is written as a percent sign and two upper-case
hexadecimal digits. Decoding takes digits of either case and leaves an incomplete or ill-formed
escape as it stands.
-/
namespace ProofPanel.Percent

def isUnreserved (b : UInt8) : Bool :=
  (0x41 ≤ b && b ≤ 0x5A) || (0x61 ≤ b && b ≤ 0x7A) || (0x30 ≤ b && b ≤ 0x39) ||
    b = 0x2D || b = 0x2E || b = 0x5F || b = 0x7E

def isSlash (b : UInt8) : Bool := b = 0x2F

def hexDigit (n : Nat) : Char := if n < 10 then Char.ofNat (48 + n) else Char.ofNat (55 + n)

def hexValue? (b : UInt8) : Option UInt8 :=
  if 0x30 ≤ b && b ≤ 0x39 then some (b - 0x30)
  else if 0x61 ≤ b && b ≤ 0x66 then some (b - 0x61 + 10)
  else if 0x41 ≤ b && b ≤ 0x46 then some (b - 0x41 + 10)
  else none

def encodeOctet (keep : UInt8 → Bool) (b : UInt8) : List Char :=
  if keep b then [Char.ofNat b.toNat]
  else ['%', hexDigit (b.toNat / 16), hexDigit (b.toNat % 16)]

def encodeWith (keep : UInt8 → Bool) (text : String) : String :=
  .ofList ((Utf8.encode text.toList).flatMap (encodeOctet keep))

/-- A path in a URI: slashes are kept. -/
def encodePath (path : String) : String := encodeWith (fun b => isUnreserved b || isSlash b) path

def encodeComponent (text : String) : String := encodeWith isUnreserved text

def decodeOctets : List UInt8 → List UInt8
  | b :: high :: low :: rest =>
    match b == 0x25, hexValue? high, hexValue? low with
    | true, some h, some l => (h * 16 + l) :: decodeOctets rest
    | _, _, _ => b :: decodeOctets (high :: low :: rest)
  | short => short

def decode (text : String) : String :=
  .ofList (Utf8.decodeLossy (decodeOctets (Utf8.encode text.toList)))

end ProofPanel.Percent
