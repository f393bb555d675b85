import ProofPanel.Decimal.Shortest
import ProofPanel.Json.Value

/-!
# JSON text

The compact text of a value, without any space between its parts. In strings only the quote, the
backslash and the control characters below the space are escaped.
-/
namespace ProofPanel.Json

def hexDigit (n : Nat) : Char := if n < 10 then Char.ofNat (48 + n) else Char.ofNat (87 + n)

def escapeChar (c : Char) : List Char :=
  if c = '\x22' then ['\\', '\x22']
  else if c = '\\' then ['\\', '\\']
  else if c = '\x08' then ['\\', 'b']
  else if c = '\x09' then ['\\', 't']
  else if c = '\x0a' then ['\\', 'n']
  else if c = '\x0c' then ['\\', 'f']
  else if c = '\x0d' then ['\\', 'r']
  else if c.toNat < 0x20 then
    ['\\', 'u', '0', '0', hexDigit (c.toNat / 16), hexDigit (c.toNat % 16)]
  else [c]

def quote (s : String) : List Char := '\x22' :: s.toList.flatMap escapeChar ++ ['\x22']

def writeInt (n : Int) : List Char :=
  match n with
  | .ofNat n => Nat.toDigits 10 n
  | .negSucc n => '-' :: Nat.toDigits 10 (n + 1)

mutual

def write : Json → List Char
  | .null => ['n', 'u', 'l', 'l']
  | .bool true => ['t', 'r', 'u', 'e']
  | .bool false => ['f', 'a', 'l', 's', 'e']
  | .int n => writeInt n
  | .float x => (Decimal.ofFloat x).toList
  | .str s => quote s
  | .arr [] => ['[', ']']
  | .arr (item :: rest) => '[' :: write item ++ writeItems rest
  | .obj [] => ['\x7b', '\x7d']
  | .obj ((key, value) :: rest) => '\x7b' :: quote key ++ ':' :: write value ++ writeMembers rest

def writeItems : List Json → List Char
  | [] => [']']
  | item :: rest => ',' :: write item ++ writeItems rest

def writeMembers : Members → List Char
  | [] => ['\x7d']
  | (key, value) :: rest => ',' :: quote key ++ ':' :: write value ++ writeMembers rest

end

def print (value : Json) : String := .ofList (write value)

end ProofPanel.Json
