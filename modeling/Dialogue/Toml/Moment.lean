/-!
Dates and times in TOML texts. Each is checked against the calendar and given back in one uniform
notation.
-/
namespace Dialogue.Toml

def fixedDigits? (count : Nat) (s : List Char) : Option (Nat × List Char) :=
  let ds := s.take count
  if ds.length = count ∧ ds.all Char.isDigit then
    some (ds.foldl (fun n c => n * 10 + (c.toNat - '0'.toNat)) 0, s.drop count)
  else none

def padded (width n : Nat) : String :=
  let ds := Nat.toDigits 10 n
  .ofList (List.replicate (width - ds.length) '0' ++ ds)

def daysInMonth (year month : Nat) : Nat :=
  if month = 2 then
    if year % 4 = 0 ∧ (year % 100 ≠ 0 ∨ year % 400 = 0) then 29 else 28
  else if month = 4 ∨ month = 6 ∨ month = 9 ∨ month = 11 then 30
  else 31

def date? (s : List Char) : Option (String × List Char) := do
  let (year, s) ← fixedDigits? 4 s
  let '-' :: s := s | none
  let (month, s) ← fixedDigits? 2 s
  let '-' :: s := s | none
  let (day, s) ← fixedDigits? 2 s
  if 1 ≤ month ∧ month ≤ 12 ∧ 1 ≤ day ∧ day ≤ daysInMonth year month then
    return (padded 4 year ++ "-" ++ padded 2 month ++ "-" ++ padded 2 day, s)
  else none

/-- The digits of a second's fraction that count, nine at most, without zeros at the end. -/
def fractionText (ds : List Char) : String :=
  match ((ds.take 9).reverse.dropWhile (· == '0')).reverse with
  | [] => ""
  | kept => .ofList ('.' :: kept)

def time? (s : List Char) : Option (String × List Char) := do
  let (hour, s) ← fixedDigits? 2 s
  let ':' :: s := s | none
  let (minute, s) ← fixedDigits? 2 s
  let ':' :: s := s | none
  let (second, s) ← fixedDigits? 2 s
  if 23 < hour ∨ 59 < minute ∨ 60 < second then none
  let clock := padded 2 hour ++ ":" ++ padded 2 minute ++ ":" ++ padded 2 second
  match s with
  | '.' :: rest =>
    match rest.takeWhile Char.isDigit with
    | [] => return (clock, s)
    | ds => return (clock ++ fractionText ds, rest.dropWhile Char.isDigit)
  | _ => return (clock, s)

/-- The distance from universal time, if one stands at the front. No distance at all is written with
a plus sign. -/
def offset? (s : List Char) : Option (String × List Char) := do
  match s with
  | 'Z' :: s | 'z' :: s => return ("Z", s)
  | sign :: s =>
    if sign ≠ '+' ∧ sign ≠ '-' then none
    let (hour, s) ← fixedDigits? 2 s
    let ':' :: s := s | none
    let (minute, s) ← fixedDigits? 2 s
    if 23 < hour ∨ 59 < minute then none
    let sign := if hour = 0 ∧ minute = 0 then '+' else sign
    return (String.singleton sign ++ padded 2 hour ++ ":" ++ padded 2 minute, s)
  | [] => none

def moment? (s : List Char) : Option (String × List Char) :=
  match date? s with
  | some (day, rest) =>
    match rest with
    | mark :: after =>
      if mark = 'T' ∨ mark = 't' ∨ mark = ' ' then
        match time? after with
        | some (clock, after) =>
          match offset? after with
          | some (offset, after) => some (day ++ "T" ++ clock ++ offset, after)
          | none => some (day ++ "T" ++ clock, after)
        | none => some (day, rest)
      else some (day, rest)
    | [] => some (day, [])
  | none => time? s

end Dialogue.Toml
