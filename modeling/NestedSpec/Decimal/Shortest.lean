/-!
# The shortest decimal that reads back

A positive binary number stands for an interval of reals that round to it. Its shortest decimal is
a point of that interval on the coarsest decimal grid that has one; of two such points the nearer
is taken, and of two equally near points the one with the even last digit.
-/

namespace NestedSpec.Decimal

/-- A positive binary floating-point number `mantissa · 2 ^ exponent`. -/
structure Binary where
  mantissa : Nat
  exponent : Int
  /-- The next smaller number is only half as far away as the next larger one. -/
  lowerHalf : Bool
deriving Repr, DecidableEq

/-- The decimal `digits · 10 ^ exponent`. -/
structure Digits where
  digits : Nat
  exponent : Int
deriving Repr, DecidableEq

structure Ratio where
  num : Nat
  den : Nat

/-- The fraction `n · base ^ exponent`. -/
def Ratio.scaled (n base : Nat) (exponent : Int) : Ratio :=
  if 0 ≤ exponent then ⟨n * base.pow exponent.toNat, 1⟩ else ⟨n, base.pow exponent.natAbs⟩

def Ratio.less (a b : Ratio) : Bool :=
  a.num * b.den < b.num * a.den

def Ratio.distance (a b : Ratio) : Ratio :=
  ⟨(a.num * b.den - b.num * a.den) + (b.num * a.den - a.num * b.den), a.den * b.den⟩

namespace Binary

/-- The value, in quarters of its last place, so that half places stay whole. -/
def quarters (x : Binary) (offset : Int) : Ratio :=
  Ratio.scaled (4 * (x.mantissa : Int) + offset).toNat 2 (x.exponent - 2)

def value (x : Binary) : Ratio := x.quarters 0

/-- Whether a fraction rounds to the number; the ends of the interval belong to even mantissas. -/
def contains (x : Binary) (r : Ratio) : Bool :=
  let low := x.quarters (if x.lowerHalf then -1 else -2)
  let high := x.quarters 2
  if x.mantissa % 2 = 0 then !r.less low && !high.less r
  else low.less r && r.less high

/-- The point at or below the number on the grid of multiples of `10 ^ grid`. -/
def below (x : Binary) (grid : Int) : Nat :=
  let v := x.value
  if 0 ≤ grid then v.num / (v.den * Nat.pow 10 grid.toNat)
  else v.num * Nat.pow 10 grid.natAbs / v.den

/-- The point of the grid that reads back, if there is one. -/
def onGrid (x : Binary) (grid : Int) : Option Digits :=
  let down := x.below grid
  let up := down + 1
  let point (n : Nat) : Ratio := Ratio.scaled n 10 grid
  let fits (n : Nat) : Bool := n ≠ 0 && x.contains (point n)
  match fits down, fits up with
  | false, false => none
  | true, false => some ⟨down, grid⟩
  | false, true => some ⟨up, grid⟩
  | true, true =>
    let toDown := (x.value).distance (point down)
    let toUp := (x.value).distance (point up)
    if toDown.less toUp then some ⟨down, grid⟩
    else if toUp.less toDown then some ⟨up, grid⟩
    else some ⟨if down % 2 = 0 then down else up, grid⟩

def search (x : Binary) (grid : Int) : Nat → Option Digits
  | 0 => none
  | steps + 1 => (x.onGrid grid).or (x.search (grid - 1) steps)

end Binary

/-- A decimal without zeros at the end of its digits. -/
def Digits.normal (d : Digits) : Nat → Digits
  | 0 => d
  | steps + 1 =>
    if d.digits % 10 = 0 ∧ d.digits ≠ 0 then
      Digits.normal ⟨d.digits / 10, d.exponent + 1⟩ steps
    else d

/-- The shortest decimal; its first grid is coarser than any double, and 700 places reach below
the finest one. -/
def Binary.shortest (x : Binary) : Digits :=
  ((x.search (start x) 700).getD ⟨0, 0⟩).normal 20
where
  /-- A grid at most two places coarser than the leading digit. -/
  start (x : Binary) : Int :=
    let bits : Int := (Nat.log2 x.mantissa : Int) + x.exponent
    bits * 30103 / 100000 + 2

inductive Double where
  | nan
  | infinite (negative : Bool)
  | zero (negative : Bool)
  | finite (negative : Bool) (magnitude : Binary)

def Double.ofBits (bits : Nat) : Double :=
  let negative := bits >>> 63 % 2 = 1
  let exponent : Nat := bits >>> 52 % 2048
  let fraction : Nat := bits % 1 <<< 52
  if exponent = 2047 then (if fraction = 0 then .infinite negative else .nan)
  else if exponent = 0 then
    if fraction = 0 then .zero negative else .finite negative ⟨fraction, -1074, false⟩
  else .finite negative ⟨fraction + 1 <<< 52, (exponent : Int) - 1075, fraction = 0 && exponent > 1⟩

def digitText (n : Nat) : String := Nat.repr n

/-- Positional text with at least one digit on each side of the point. -/
def Digits.positional (d : Digits) : String :=
  let text := digitText d.digits
  if 0 ≤ d.exponent then text ++ String.ofList (List.replicate d.exponent.toNat '0') ++ ".0"
  else
    let places := d.exponent.natAbs
    let padded := List.replicate (places + 1 - text.length) '0' ++ text.toList
    String.ofList (padded.take (padded.length - places)) ++ "." ++
      String.ofList (padded.drop (padded.length - places))

def Digits.scientific (d : Digits) : String :=
  let chars := (digitText d.digits).toList
  let exponent : Int := d.exponent + (chars.length : Int) - 1
  let tail := chars.drop 1
  String.ofList (chars.take 1) ++ (if tail.isEmpty then "" else "." ++ String.ofList tail) ++
    "e" ++ toString exponent

/-- A double is written positionally from 10 ^ -4 to below 10 ^ 16, and zero is `0.0`. -/
def doubleText (bits : Nat) : String :=
  let sign (negative : Bool) : String := if negative then "-" else ""
  match Double.ofBits bits with
  | .nan => "NaN"
  | .infinite negative => sign negative ++ "inf"
  | .zero negative => sign negative ++ "0.0"
  | .finite negative magnitude =>
    let d := magnitude.shortest
    let leading : Int := d.exponent + (digitText d.digits).length
    sign negative ++
      (if -3 ≤ leading ∧ leading ≤ 16 then d.positional else d.scientific)

end NestedSpec.Decimal
