import ProofPanel.Json.Printer
import ProofPanel.Json.Reader
import ProofPanel.Text.Blank

/-!
# Values line by line

One JSON value on each line of a stream of octets. Lines with nothing but blanks are skipped, and
a line that holds no value spoils only itself.
-/
namespace ProofPanel.Json

inductive LineFault
  | notText
  | notJson (fault : Fault)
deriving DecidableEq

def newline : UInt8 := 10

def writeLine (value : Json) : List UInt8 := Utf8.encode (write value) ++ [newline]

/-- What a line says, without its line break: nothing if it is blank. -/
def readLine (line : List UInt8) : Option (Except LineFault Json) :=
  match Utf8.decode? line with
  | none => some (.error .notText)
  | some text =>
    match Text.trim text with
    | [] => none
    | trimmed => some ((parseWithin maxDepth trimmed).mapError .notJson)

/-- Cuts the first line off, its line break included; there is none at the end of the stream. -/
def nextLine? : List UInt8 → Option (List UInt8 × List UInt8)
  | [] => none
  | octets => some (octets.takeWhile (· != newline), (octets.dropWhile (· != newline)).drop 1)

theorem nextLine?_shorter {octets line rest : List UInt8}
    (h : nextLine? octets = some (line, rest)) : rest.length < octets.length := by
  unfold nextLine? at h
  split at h
  · simp at h
  next hne =>
    simp only [Option.some.injEq, Prod.mk.injEq] at h
    have hle : (octets.dropWhile (· != newline)).length ≤ octets.length :=
      (List.dropWhile_sublist _).length_le
    have hpos : 0 < octets.length := List.length_pos_iff.2 hne
    rw [← h.2, List.length_drop]
    omega

def next? (octets : List UInt8) : Option (Except LineFault Json × List UInt8) :=
  match _h : nextLine? octets with
  | none => none
  | some (line, rest) =>
    match readLine line with
    | some result => some (result, rest)
    | none => next? rest
termination_by octets.length
decreasing_by exact nextLine?_shorter _h

theorem next?_shorter {octets rest : List UInt8} {result : Except LineFault Json}
    (h : next? octets = some (result, rest)) : rest.length < octets.length := by
  fun_induction next? octets with
  | case1 => simp at h
  | case2 octets line after hnext found hread =>
    simp only [Option.some.injEq, Prod.mk.injEq] at h
    exact h.2 ▸ nextLine?_shorter hnext
  | case3 octets line after hnext hread ih =>
    exact Nat.lt_trans (ih h) (nextLine?_shorter hnext)

def readAll (octets : List UInt8) : List (Except LineFault Json) :=
  match _h : next? octets with
  | none => []
  | some (result, rest) => result :: readAll rest
termination_by octets.length
decreasing_by exact next?_shorter _h

end ProofPanel.Json
