import Dialogue.Datum.Basic

/-!
Numbers in JSON texts. An integer of 64 bits is kept exactly. Any other number is computed in 64-bit
floating point from its leading digits and a power of ten, one rounded operation each, and then
rounded to 32 bits.
-/
namespace Dialogue.Json

def splitDigits (s : List Char) : List Char × List Char :=
  (s.takeWhile Char.isDigit, s.dropWhile Char.isDigit)

def digitValue (c : Char) : Nat := c.toNat - '0'.toNat

def maxSignificand : Nat := 0xFFFFFFFFFFFFFFFF

/-- Appends digits to a significand as long as it stays within 64 bits; also gives how many digits
were appended. -/
def accumulate (significand : Nat) : List Char → Nat × Nat
  | [] => (significand, 0)
  | c :: rest =>
    let next := significand * 10 + digitValue c
    if next ≤ maxSignificand then
      let (total, count) := accumulate next rest
      (total, count + 1)
    else (significand, 0)

def powerOfTen (n : Nat) : Float := Float.ofScientific 1 false n

/-- `x * 10 ^ exponent`; powers of ten beyond `10 ^ 308` are taken in two steps. An infinite result
is none. -/
def scale (x : Float) (exponent : Int) : Option Float :=
  if x == 0 then some x
  else if 308 < exponent then none
  else if 0 ≤ exponent then
    let product := x * powerOfTen exponent.toNat
    if product.isInf then none else some product
  else if -308 ≤ exponent then some (x / powerOfTen (-exponent).toNat)
  else
    let reduced := x / powerOfTen 308
    if exponent < -616 then some 0 else some (reduced / powerOfTen (-exponent - 308).toNat)

/-- The sign, and the texts of the whole part, the fraction and the exponent, of which the last two
may be absent; the rest of the text. -/
structure Literal where
  negative : Bool
  whole : List Char
  fraction : Option (List Char)
  exponent : Option (Bool × List Char)

def fraction? : List Char → Option (Option (List Char) × List Char)
  | '.' :: s =>
    let (ds, s) := splitDigits s
    if ds = [] then none else some (some ds, s)
  | s => some (none, s)

/-- Whether there is a minus at the front, and the rest after a sign of either kind. -/
def splitSign : List Char → Bool × List Char
  | '-' :: s => (true, s)
  | '+' :: s => (false, s)
  | s => (false, s)

/-- The sign and the digits after an exponent mark at the front of a text, if there is one. -/
def exponent? : List Char → Option (Option (Bool × List Char) × List Char)
  | mark :: s =>
    if mark = 'e' ∨ mark = 'E' then
      let (below, s) := splitSign s
      let (ds, s) := splitDigits s
      if ds = [] then none else some (some (below, ds), s)
    else some (none, mark :: s)
  | [] => some (none, [])

/-- A number after its sign, at the front of a text. The whole part has no leading zeros, and where
a point or an exponent mark stands, digits follow. -/
def unsigned? (negative : Bool) (s : List Char) : Option (Literal × List Char) := do
  let (whole, s) := splitDigits s
  if whole = [] ∨ (whole.head? = some '0' ∧ whole ≠ ['0']) then none
  let (fraction, s) ← fraction? s
  let (exponent, s) ← exponent? s
  return ({ negative, whole, fraction, exponent }, s)

def literal? : List Char → Option (Literal × List Char)
  | '-' :: s => unsigned? true s
  | s => unsigned? false s

def natOfDigits (ds : List Char) : Nat := ds.foldl (fun n c => n * 10 + digitValue c) 0

def Literal.toDatum? (l : Literal) : Option Datum :=
  let n := natOfDigits l.whole
  if l.fraction.isNone ∧ l.exponent.isNone ∧
      (if l.negative then 0 < n ∧ n ≤ 0x8000000000000000 else n ≤ maxSignificand) then
    some (.int (if l.negative then -n else n))
  else do
    let (significand, taken) := accumulate 0 l.whole
    let fraction := l.fraction.getD []
    let (significand, appended) := accumulate significand fraction
    let shift : Int := (l.whole.length : Int) - taken - appended
    let given : Int := match l.exponent with
      | some (true, ds) => -natOfDigits ds
      | some (false, ds) => natOfDigits ds
      | none => 0
    let x ← scale (Float.ofNat significand) (shift + given)
    return .real (.ofFloat (if l.negative then -x else x))

end Dialogue.Json
