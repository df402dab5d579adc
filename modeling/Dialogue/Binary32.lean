import Dialogue.Decimal.Shortest

/-!
Floating-point numbers of 32 bits, given by their bits. Order and equality are those of the numbers:
both zeros are equal, and NaN is neither equal to, below nor above anything. They are read off an
integer key, so no floating-point operation is needed to compare.
-/
namespace Dialogue

/-- A binary32 number. Structural equality tells the two zeros apart; `==` does not. -/
structure Binary32 where
  bits : UInt32
  deriving DecidableEq

namespace Binary32

def magnitude (x : Binary32) : Nat := x.bits.toNat % 0x80000000
def isNegative (x : Binary32) : Bool := 0x80000000 ≤ x.bits.toNat
def isNaN (x : Binary32) : Bool := 0x7F800000 < x.magnitude
def isFinite (x : Binary32) : Bool := x.magnitude < 0x7F800000

/-- An integer that orders the numbers as their values; NaN has none. -/
def key? (x : Binary32) : Option Int :=
  if x.isNaN then none else some (if x.isNegative then -(x.magnitude : Int) else x.magnitude)

def lt (x y : Binary32) : Bool :=
  match x.key?, y.key? with
  | some a, some b => a < b
  | _, _ => false

def le (x y : Binary32) : Bool :=
  match x.key?, y.key? with
  | some a, some b => a ≤ b
  | _, _ => false

/-- Equality of the values. -/
instance : BEq Binary32 where
  beq x y :=
    match x.key?, y.key? with
    | some a, some b => a == b
    | _, _ => false

def zero : Binary32 := ⟨0⟩
def one : Binary32 := ⟨0x3F800000⟩
def nan : Binary32 := ⟨0x7FC00000⟩
def infinity : Binary32 := ⟨0x7F800000⟩
def negInfinity : Binary32 := ⟨0xFF800000⟩

/-- The nearest point of the interval from 0 to 1. NaN stays as it is. -/
def clampUnit (x : Binary32) : Binary32 :=
  if x.lt zero then zero else if one.lt x then one else x

/-- `n / 2 ^ k` rounded to the nearest integer, and to the even one of two that are equally near. -/
def roundShift (n k : Nat) : Nat :=
  let below := n / Nat.pow 2 k
  match compare (2 * (n % Nat.pow 2 k)) (Nat.pow 2 k) with
  | .lt => below
  | .eq => below + below % 2
  | .gt => below + 1

def ofFloat (x : Float) : Binary32 :=
  let bits : Nat := x.toBits.toNat
  let biased : Nat := bits / 0x10000000000000 % 0x800
  let fraction : Nat := bits % 0x10000000000000
  let significand : Nat := if biased = 0 then fraction else 0x10000000000000 + fraction
  -- a carry out of the significand counts up the exponent
  let magnitude : Nat :=
    if biased = 0x7FF then (if fraction = 0 then 0x7F800000 else 0x7FC00000)
    else if biased ≤ 896 then roundShift significand (926 - biased)
    else min 0x7F800000 ((biased - 897) * 0x800000 + roundShift significand 29)
  ⟨.ofNat (bits / 0x8000000000000000 * 0x80000000 + magnitude)⟩

def ofInt (n : Int) : Binary32 :=
  if 0 ≤ n then ⟨(UInt64.ofNat n.toNat).toFloat32.toBits⟩ else ⟨(Int64.ofInt n).toFloat32.toBits⟩

/-- The value of a number that is finite and not zero, without its sign. -/
def toDyadic (x : Binary32) : Dyadic :=
  let biased : Nat := x.magnitude / 0x800000
  let fraction : Nat := x.magnitude % 0x800000
  if biased = 0 then ⟨fraction, -149, false⟩
  else ⟨0x800000 + fraction, (biased : Int) - 150, fraction == 0 && biased != 1⟩

def toDecimal (tie : Tie) (x : Binary32) : Decimal := x.toDyadic.shortest tie 39 100

def signText (x : Binary32) : String := if x.isNegative then "-" else ""

def dataText (x : Binary32) : String :=
  x.signText ++ if x.magnitude = 0 then "0.0" else (x.toDecimal .even).scientific

def messageText (x : Binary32) : String :=
  if x.isNaN then "NaN"
  else x.signText ++
    if x.magnitude = 0 then "0"
    else if x.isFinite then (x.toDecimal .up).plain
    else "inf"

end Binary32
end Dialogue
