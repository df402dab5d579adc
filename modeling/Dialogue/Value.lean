import Dialogue.Datum.Basic
import Dialogue.Text.Normal
import Dialogue.Text.Integer

/-!
Semantic values, and propositions, which say of a predicate that it has a value. Both are totally
ordered, so that sets of propositions are always listed in one order.
-/
namespace Dialogue

inductive Value where
  | bool (b : Bool)
  | int (n : Int64)
  | text (s : String)
  deriving DecidableEq

namespace Value

def isEmpty : Value → Bool
  | text s => Text.isBlankText s
  | _ => false

def wording : Value → String
  | bool true => "yes"
  | bool false => "no"
  | int n => Text.ofInt64 n
  | text s => s

def rank : Value → Nat
  | bool _ => 0
  | int _ => 1
  | text _ => 2

def number : Value → Int
  | bool b => b.toNat
  | int n => n.toInt
  | text _ => 0

def letters : Value → String
  | text s => s
  | _ => ""

theorem eq_of_keys {a b : Value} (rank : a.rank = b.rank) (number : a.number = b.number)
    (letters : a.letters = b.letters) : a = b := by
  cases a <;> cases b <;> simp_all [Value.rank, Value.number, Value.letters, Int64.toInt_inj]
  rename_i a b
  cases a <;> cases b <;> simp_all

/-- Truth values come before integers and integers before texts. -/
abbrev order : Value → Value → Ordering :=
  compareLex (compareOn rank) (compareLex (compareOn number) (compareOn letters))

instance : Ord Value := ⟨order⟩

instance : Std.TransOrd Value := inferInstanceAs (Std.TransCmp order)

instance : Std.LawfulEqOrd Value where
  compare_self := (inferInstance : Std.ReflCmp order).compare_self
  eq_of_compare h := by
    have ⟨ranks, keys⟩ := Ordering.then_eq_eq.mp h
    have ⟨numbers, texts⟩ := Ordering.then_eq_eq.mp keys
    exact eq_of_keys (Std.LawfulEqCmp.eq_of_compare ranks)
      (Std.LawfulEqCmp.eq_of_compare numbers) (Std.LawfulEqCmp.eq_of_compare texts)

/-- Only numbers of 64 bits without a fraction are values. -/
instance : Storable Value where
  toDatum
    | bool b => toDatum b
    | int n => toDatum n
    | text s => toDatum s
  readDatum?
    | _, .bool b => some (bool b)
    | mode, .int n => (readDatum? mode (.int n)).map int
    | _, .text s => some (text s)
    | _, _ => none

def trueWords : List String :=
  ["yes", "y", "yeah", "yep", "true", "sure", "correct", "right", "affirmative"]

def falseWords : List String := ["no", "n", "nope", "false", "wrong", "incorrect", "negative"]

/-- The truth value that a text stands for, in any case and with full stops and exclamation marks at
its end. -/
def truthOfText (s : String) : Option Bool :=
  let token := Text.dropEndWhile (fun c => c == '.' || c == '!') (Text.normalChars s.toList)
  if String.ofList token ∈ trueWords then some true
  else if String.ofList token ∈ falseWords then some false
  else none

def truth : Value → Option Bool
  | bool b => some b
  | int _ => none
  | text s => truthOfText s

end Value

structure Proposition where
  predicate : String
  value : Value
  deriving DecidableEq

namespace Proposition

def wording (p : Proposition) : String := p.predicate ++ "(" ++ p.value.wording ++ ")"

/-- By predicate first, then by value. -/
abbrev order : Proposition → Proposition → Ordering :=
  compareLex (compareOn Proposition.predicate) (compareOn Proposition.value)

instance : Ord Proposition := ⟨order⟩

instance : Std.TransOrd Proposition := inferInstanceAs (Std.TransCmp order)

instance : Std.LawfulEqOrd Proposition where
  compare_self := (inferInstance : Std.ReflCmp order).compare_self
  eq_of_compare {a b} h := by
    have ⟨first, second⟩ := Ordering.then_eq_eq.mp h
    have same_predicate : a.predicate = b.predicate := Std.LawfulEqCmp.eq_of_compare first
    have same_value : a.value = b.value := Std.LawfulEqCmp.eq_of_compare second
    cases a; cases b; simp_all

instance : Storable Proposition where
  toDatum p := .record [("predicate", toDatum p.predicate), ("value", toDatum p.value)]
  readDatum? mode d := do
    let [predicate, value] ← Datum.fields? ["predicate", "value"] d | none
    return ⟨← Datum.required mode predicate, ← Datum.required mode value⟩

end Proposition
end Dialogue
