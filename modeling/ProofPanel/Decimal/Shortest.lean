/-!
# The shortest decimal of a double

A positive double is `mantissa * 2 ^ exponent`, and every real between the two midpoints to its
neighbours reads back as it. Of all decimals in that interval the one written lies on the coarsest
power-of-ten grid that has a point there, and on that grid is the one nearest to the value.
-/
namespace ProofPanel.Decimal

/-- A positive double. `closeBelow` says that the neighbour below is at half the usual distance,
as it is below a power of two. -/
structure Binary where
  mantissa : Nat
  exponent : Int
  closeBelow : Bool

structure Scaled where
  digits : Nat
  exponent : Int
deriving DecidableEq

/-- The weight of the bit that a mantissa has without its being written. -/
def hiddenBit : Nat := Nat.pow 2 52

/-- The sign bit and the finite magnitude of a double, which is absent for zero. -/
def ofBits (bits : Nat) : Bool × Option Binary :=
  let fraction := bits % hiddenBit
  let biased : Nat := bits / hiddenBit % 2048
  let magnitude :=
    if biased = 0 then
      if fraction = 0 then none else some ⟨fraction, -1074, false⟩
    else some ⟨hiddenBit + fraction, (biased : Int) - 1075, fraction = 0 && 1 < biased⟩
  (UInt64.size / 2 ≤ bits, magnitude)

/-- `x * 2 ^ (b.exponent - 2) / 10 ^ k` as a numerator, over `Binary.denominator`. -/
def Binary.numerator (b : Binary) (k : Int) (x : Nat) : Nat :=
  x * Nat.pow 2 (b.exponent - 2).toNat * Nat.pow 10 (-k).toNat

def Binary.denominator (b : Binary) (k : Int) : Nat :=
  Nat.pow 2 (2 - b.exponent).toNat * Nat.pow 10 k.toNat

/-- Whether `d * 10 ^ k` reads back as `b`: the ends of the interval do exactly when the mantissa
is even. -/
def Binary.admits (b : Binary) (k : Int) (d : Nat) : Bool :=
  let point := d * b.denominator k
  let low := b.numerator k (4 * b.mantissa - if b.closeBelow then 1 else 2)
  let high := b.numerator k (4 * b.mantissa + 2)
  if b.mantissa % 2 = 0 then low ≤ point && point ≤ high else low < point && point < high

/-- The multiple of `10 ^ k` that reads back as `b` and is nearest to it; of two equally near, the
one with the even last digit. -/
def Binary.onGrid? (b : Binary) (k : Int) : Option Nat :=
  let value := b.numerator k (4 * b.mantissa)
  let den := b.denominator k
  let d := value / den
  let twice := 2 * (value % den)
  let down := twice < den || (twice = den && d % 2 = 0)
  match b.admits k d, b.admits k (d + 1) with
  | true, true => if down then some d else some (d + 1)
  | true, false => some d
  | false, true => some (d + 1)
  | false, false => none

/-- The grids from `10 ^ (top - 1)` down, as many as `count`. -/
def Binary.search (b : Binary) : (count : Nat) → (top : Int) → Option Scaled
  | 0, _ => none
  | count + 1, top =>
    match b.onGrid? (top - 1) with
    | some d => some ⟨d, top - 1⟩
    | none => b.search count (top - 1)

/-- No double reaches `10 ^ 309`, and every one has a point on the grid of `10 ^ (-325)`. -/
def Binary.shortest (b : Binary) : Scaled := (b.search 634 309).getD ⟨0, 0⟩

/-- Positional with a point where the leading digit stands for `10 ^ (-5)` to `10 ^ 15`, and with
an exponent otherwise. A whole number in positional form ends in `.0`. -/
def Scaled.write (d : Scaled) : List Char :=
  let digits := Nat.toDigits 10 d.digits
  let whole : Int := digits.length + d.exponent
  if 0 ≤ d.exponent && whole ≤ 16 then
    digits ++ List.replicate d.exponent.toNat '0' ++ ['.', '0']
  else if 0 < whole && whole ≤ 16 then
    digits.take whole.toNat ++ '.' :: digits.drop whole.toNat
  else if -5 < whole && whole ≤ 0 then
    '0' :: '.' :: List.replicate (-whole).toNat '0' ++ digits
  else
    let mark := 'e' :: (if whole - 1 < 0 then ['-'] else []) ++ Nat.toDigits 10 (whole - 1).natAbs
    match digits with
    | [] => mark
    | [d] => d :: mark
    | d :: more => d :: '.' :: more ++ mark

def ofFloat (x : Float) : String :=
  let (negative, magnitude) := ofBits x.toBits.toNat
  let text := match magnitude with
    | none => ['0', '.', '0']
    | some b => b.shortest.write
  .ofList (if negative then '-' :: text else text)

end ProofPanel.Decimal
