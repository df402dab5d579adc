/-!
The fewest decimal digits that identify a binary floating-point value. Selection is by exact integer
arithmetic: a decimal identifies the value if it lies among the reals that round to it.
-/
namespace Dialogue

/-- `digits * 10 ^ exponent`. -/
structure Decimal where
  digits : Nat
  exponent : Int
  deriving DecidableEq, Repr

/-- A positive binary value `significand * 2 ^ exponent` in a format of fixed precision. -/
structure Dyadic where
  significand : Nat
  exponent : Int
  /-- The gap to the value below is half the gap to the value above. -/
  tightBelow : Bool

inductive Tie where
  | even
  | up

/-- Compares `a * 10 ^ i` with `n * 2 ^ j`. -/
def compareScaled (a : Nat) (i : Int) (n : Nat) (j : Int) : Ordering :=
  compare (a * Nat.pow 10 i.toNat * Nat.pow 2 (-j).toNat)
    (n * Nat.pow 2 j.toNat * Nat.pow 10 (-i).toNat)

namespace Dyadic

/-- The decimal lies between the midpoints to the two neighbours of the value. The midpoints count
exactly when the significand is even, as rounding goes to the even neighbour. -/
def isIdentifiedBy (x : Dyadic) (d : Decimal) : Bool :=
  let below := compareScaled d.digits d.exponent
    (4 * x.significand - if x.tightBelow then 1 else 2) (x.exponent - 2)
  let above := compareScaled d.digits d.exponent (4 * x.significand + 2) (x.exponent - 2)
  let closed := x.significand % 2 == 0
  (below == .gt || closed && below == .eq) && (above == .lt || closed && above == .eq)

/-- The largest multiple of `10 ^ grid` that is not above the value, as a count of `10 ^ grid`. -/
def floorOn (x : Dyadic) (grid : Int) : Nat :=
  (x.significand * Nat.pow 2 x.exponent.toNat * Nat.pow 10 (-grid).toNat) /
    (Nat.pow 2 (-x.exponent).toNat * Nat.pow 10 grid.toNat)

/-- The multiple of `10 ^ grid` nearest to the value among those that identify it. -/
def identifierOn (tie : Tie) (x : Dyadic) (grid : Int) : Option Decimal :=
  let low := x.floorOn grid
  let lower : Decimal := ⟨low, grid⟩
  let upper : Decimal := ⟨low + 1, grid⟩
  match x.isIdentifiedBy lower, x.isIdentifiedBy upper with
  | false, false => none
  | true, false => some lower
  | false, true => some upper
  | true, true =>
    match compareScaled (2 * low + 1) grid (2 * x.significand) x.exponent, tie with
    | .gt, _ => some lower
    | .lt, _ => some upper
    | .eq, .up => some upper
    | .eq, .even => if low % 2 == 0 then some lower else some upper

def toDecimal (x : Dyadic) : Decimal :=
  if 0 ≤ x.exponent then ⟨x.significand * Nat.pow 2 x.exponent.toNat, 0⟩
  else ⟨x.significand * Nat.pow 5 (-x.exponent).toNat, x.exponent⟩

/-- The identifying decimal on the coarsest of the grids `10 ^ top`, `10 ^ (top - 1)`, … that has
one; the exact value if none of `count` grids does. -/
def shortest (tie : Tie) (top : Int) (count : Nat) (x : Dyadic) : Decimal :=
  ((List.range count).findSome? fun (i : Nat) => x.identifierOn tie (top - i)).getD x.toDecimal

end Dyadic

namespace Decimal

/-- The digits with a point `place` digits after the first, zeros filling the gaps on both sides. -/
def positional (ds : List Char) (place : Int) : List Char × List Char :=
  if place ≤ 0 then (['0'], List.replicate (-place).toNat '0' ++ ds)
  else
    let whole := ds.take place.toNat
    (whole ++ List.replicate (place.toNat - whole.length) '0', ds.drop place.toNat)

def digitChars (d : Decimal) : List Char := Nat.toDigits 10 d.digits

/-- The exponent of the first digit, plus one: how many digits stand before the point. -/
def place (d : Decimal) : Int := d.digitChars.length + d.exponent

def plain (d : Decimal) : String :=
  match positional d.digitChars d.place with
  | (whole, []) => .ofList whole
  | (whole, fraction) => .ofList (whole ++ '.' :: fraction)

/-- Plain notation with at least one digit after the point from `0.00001` up to thirteen whole
digits; beyond that the first digit, the others after a point, and an exponent with its sign. -/
def scientific (d : Decimal) : String :=
  if -6 < d.place ∧ d.place ≤ 13 then
    match positional d.digitChars d.place with
    | (whole, []) => .ofList (whole ++ ['.', '0'])
    | (whole, fraction) => .ofList (whole ++ '.' :: fraction)
  else
    let mantissa := match d.digitChars with
      | first :: second :: rest => first :: '.' :: second :: rest
      | ds => ds
    let mark := if 0 < d.place then "e+" else "e"
    .ofList mantissa ++ mark ++ toString (d.place - 1)

example : (⟨12, -9⟩ : Decimal).scientific = "1.2e-8" := by decide +kernel
example : (⟨1, 12⟩ : Decimal).scientific = "1000000000000.0" := by decide +kernel
example : (⟨1, 13⟩ : Decimal).scientific = "1e+13" := by decide +kernel
example : (⟨15, -1⟩ : Decimal).plain = "1.5" := by decide +kernel

end Decimal
end Dialogue
