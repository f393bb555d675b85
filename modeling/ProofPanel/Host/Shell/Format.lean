import ProofPanel.Host.Shell.Arithmetic

/-!
# Formatted output

What `echo` and `printf` write: escapes and conversions. Part of the stand-in for the system in
which connections to processes are tried; no theorem is about it.
-/
namespace ProofPanel.Host.Shell

/-! ## Escapes -/

def isOctal (c : Char) : Bool := '0' ≤ c && c ≤ '7'

def octal (digits : List Char) : Char :=
  Char.ofNat (digits.foldl (fun n c => n * 8 + (c.toNat - 48)) 0 % 256)

def escapeLetter? : Char → Option Char
  | 'a' => some '\x07'
  | 'b' => some '\x08'
  | 'f' => some '\x0c'
  | 'n' => some '\n'
  | 'r' => some '\r'
  | 't' => some '\t'
  | 'v' => some '\x0b'
  | '\\' => some '\\'
  | _ => none

/-- What an escape stands for after its backslash, and the rest. One that is none stands for the
backslash alone. -/
def escape (text : List Char) : Char × List Char :=
  match text with
  | [] => ('\\', [])
  | c :: rest =>
    if isOctal c then
      let digits := (text.take 3).takeWhile isOctal
      (octal digits, text.drop digits.length)
    else
      match escapeLetter? c with
      | some d => (d, rest)
      | none => ('\\', text)

/-- A text with its escapes, where octal ones may begin with a zero more; whether it ends early. -/
def unescape : (fuel : Nat) → List Char → List Char × Bool
  | 0, _ => ([], false)
  | _, [] => ([], false)
  | _, '\\' :: 'c' :: _ => ([], true)
  | fuel + 1, '\\' :: text =>
    let text := match text with
      | '0' :: d :: rest => if isOctal d then d :: rest else text
      | _ => text
    let (c, rest) := escape text
    let (more, stop) := unescape fuel rest
    (c :: more, stop)
  | fuel + 1, c :: rest =>
    let (more, stop) := unescape fuel rest
    (c :: more, stop)

def unescaped (text : String) : List Char × Bool := unescape (text.length + 1) text.toList

/-- What `echo` writes for its arguments, with what closes the line. An argument that ends early is
the last one. -/
def echoFrom (close : List Char) : List String → List Char
  | [] => close
  | a :: rest =>
    let (text, stop) := unescaped a
    if stop then text
    else if rest.isEmpty then text ++ close
    else text ++ ' ' :: echoFrom close rest

def echo (arguments : List String) : String :=
  .ofList (match arguments with
    | "-n" :: rest => echoFrom [] rest
    | _ => echoFrom ['\n'] arguments)

/-! ## Conversions -/

structure Conversion where
  flags : List Char := []
  width : Nat := 0
  precision : Option Nat := none

namespace Conversion

def pad (v : Conversion) (text : List Char) : List Char :=
  let blanks := List.replicate (v.width - text.length) ' '
  if v.flags.contains '-' then text ++ blanks else blanks ++ text

def padText (v : Conversion) (text : List Char) : List Char :=
  v.pad (match v.precision with
    | some n => text.take n
    | none => text)

def padDigits (v : Conversion) (mark digits : List Char) : List Char :=
  match v.precision with
  | some n => v.pad (mark ++ List.replicate (n - digits.length) '0' ++ digits)
  | none =>
    if v.flags.contains '0' && !v.flags.contains '-' then
      mark ++ List.replicate (v.width - mark.length - digits.length) '0' ++ digits
    else v.pad (mark ++ digits)

def padSigned (v : Conversion) (n : Int) : List Char :=
  let mark := if n < 0 then ['-'] else if v.flags.contains '+' then ['+']
    else if v.flags.contains ' ' then [' '] else []
  v.padDigits mark (Nat.toDigits 10 n.natAbs)

def padUnsigned (v : Conversion) (letter : Char) (n : Int64) : List Char :=
  let n := n.toUInt64.toNat
  let marked := v.flags.contains '#'
  match letter with
  | 'o' => v.padDigits (if marked && n != 0 then ['0'] else []) (Nat.toDigits 8 n)
  | 'x' => v.padDigits (if marked && n != 0 then ['0', 'x'] else []) (Nat.toDigits 16 n)
  | 'X' =>
    v.padDigits (if marked && n != 0 then ['0', 'X'] else [])
      ((Nat.toDigits 16 n).map Char.toUpper)
  | _ => v.padDigits [] (Nat.toDigits 10 n)

end Conversion

def numberOf (argument : String) : Int64 × Option String :=
  match argument.toList with
  | [] => (0, none)
  | c :: rest =>
    if c = '\x22' || c = '\x27' then (.ofNat ((rest.head?.map Char.toNat).getD 0), none)
    else
      match takeSigned? argument.toList with
      | some (n, left) =>
        if !left.isEmpty then (n, some (argument ++ ": not completely converted"))
        else if n = Int64.minValue || n = Int64.maxValue then
          let isExact := argument.toInt? = some n.toInt
          (n, if isExact then none else some (argument ++ ": Numerical result out of range"))
        else (n, none)
      | none => (0, some (argument ++ ": expected numeric value"))

structure Printing where
  written : List Char := []
  arguments : List String
  used : Bool := false
  faults : List String := []
  status : Nat := 0
  stopped : Bool := false

namespace Printing

def add (p : Printing) (text : List Char) : Printing := { p with written := p.written ++ text }

def next (p : Printing) : String × Printing :=
  match p.arguments with
  | [] => ("", { p with used := true })
  | a :: rest => (a, { p with arguments := rest, used := true })

def nextNumber (p : Printing) : Int64 × Printing :=
  let (a, p) := p.next
  let (n, fault) := numberOf a
  match fault with
  | none => (n, p)
  | some fault => (n, { p with faults := p.faults ++ [fault], status := 1 })

def size (p : Printing) (text : List Char) : Int × Printing × List Char :=
  match text with
  | '*' :: rest =>
    let (n, p) := p.nextNumber
    (n.toInt, p, rest)
  | _ =>
    let digits := text.takeWhile Char.isDigit
    (((String.ofList digits).toNat?.getD 0 : Nat), p, text.drop digits.length)

def refuse (p : Printing) (conversion : String) : Printing × List Char :=
  let faults := p.faults ++ [conversion ++ ": invalid directive"]
  ({ p with stopped := true, status := 2, faults }, [])

def convert (p : Printing) (text : List Char) : Printing × List Char :=
  let flags := text.takeWhile fun c => "#-+ 0".toList.contains c
  let (width, p, text) := p.size (text.drop flags.length)
  let (precision, p, text) : Option Int × Printing × List Char := match text with
    | '.' :: rest =>
      let (n, p, rest) := p.size rest
      (some n, p, rest)
    | _ => (none, p, text)
  let v : Conversion :=
    { flags := if width < 0 then '-' :: flags else flags
      width := width.natAbs
      precision := (precision.filter (0 ≤ ·)).map Int.toNat }
  match text with
  | [] => p.refuse ("%" ++ String.ofList flags)
  | c :: rest =>
    match c with
    | 's' =>
      let (a, p) := p.next
      (p.add (v.padText a.toList), rest)
    | 'b' =>
      let (a, p) := p.next
      let (text, stop) := unescaped a
      ({ p.add (v.padText text) with stopped := stop }, rest)
    | 'c' =>
      let (a, p) := p.next
      (p.add (v.pad [a.toList.headD '\x00']), rest)
    | 'd' | 'i' =>
      let (n, p) := p.nextNumber
      (p.add (v.padSigned n.toInt), rest)
    | 'u' | 'o' | 'x' | 'X' =>
      let (n, p) := p.nextNumber
      (p.add (v.padUnsigned c n), rest)
    | _ => p.refuse (.ofList ('%' :: flags ++ [c]))

def pass : (fuel : Nat) → Printing → List Char → Printing
  | 0, p, _ => p
  | _, p, [] => p
  | fuel + 1, p, c :: text =>
    if p.stopped then p
    else if c = '\\' then
      let (d, rest) := escape text
      pass fuel (p.add [d]) rest
    else if c = '%' then
      match text with
      | '%' :: rest => pass fuel (p.add ['%']) rest
      | _ =>
        let (p, rest) := p.convert text
        pass fuel p rest
    else pass fuel (p.add [c]) text

def passes : (fuel : Nat) → Printing → List Char → Printing
  | 0, p, _ => p
  | fuel + 1, p, format =>
    let p := pass (format.length + 1) { p with used := false } format
    if p.stopped || !p.used || p.arguments.isEmpty then p else passes fuel p format

end Printing

def printf (format : String) (arguments : List String) : String × List String × Nat :=
  let p := Printing.passes (arguments.length + 1) { arguments } format.toList
  (.ofList p.written, p.faults, p.status)

end ProofPanel.Host.Shell
