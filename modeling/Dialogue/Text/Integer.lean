import Dialogue.Text.Blank

/-!
Integers of 64 bits as texts: decimal digits of any number after an optional sign.
-/
namespace Dialogue.Text

/-- The number written by decimal digits; a text without digits, or with anything else in it, is
no number. -/
def digits? (s : List Char) : Option Nat :=
  if s ≠ [] ∧ s.all Char.isDigit then
    some (s.foldl (fun n c => n * 10 + (c.toNat - '0'.toNat)) 0)
  else none

def int64? (s : List Char) : Option Int64 := do
  let n : Int ← match s with
    | '-' :: s => (digits? s).map fun n => -(n : Int)
    | '+' :: s => (digits? s).map fun n => (n : Int)
    | s => (digits? s).map fun n => (n : Int)
  if Int64.minValue.toInt ≤ n ∧ n ≤ Int64.maxValue.toInt then some (.ofInt n) else none

def ofInt64 (n : Int64) : String := toString n.toInt

example : int64? "-0042".toList = some (-42) := by decide +kernel
example : int64? "9223372036854775808".toList = none := by decide +kernel

end Dialogue.Text
