import Dialogue.Datum.Basic

/-!
Numbers in TOML texts: integers of 64 bits in four bases and floating-point numbers, with single
underscores allowed between digits.
-/
namespace Dialogue.Toml

/-- Digits of one kind at the front, with single underscores between them dropped. -/
def digitRun? (isDigit : Char → Bool) : Nat → List Char → Option (List Char × List Char)
  | 0, _ => none
  | fuel + 1, s =>
    match s with
    | c :: rest =>
      if isDigit c then
        match rest with
        | '_' :: after => (digitRun? isDigit fuel after).map fun (ds, s) => (c :: ds, s)
        | next :: _ =>
          if isDigit next then (digitRun? isDigit fuel rest).map fun (ds, s) => (c :: ds, s)
          else some ([c], rest)
        | [] => some ([c], [])
      else none
    | [] => none

def decimalRun? (s : List Char) : Option (List Char × List Char) :=
  digitRun? Char.isDigit (s.length + 1) s

def baseDigit? (base : Nat) (c : Char) : Option Nat :=
  let value :=
    if '0' ≤ c ∧ c ≤ '9' then c.toNat - '0'.toNat
    else if 'a' ≤ c ∧ c ≤ 'f' then c.toNat - 'a'.toNat + 10
    else if 'A' ≤ c ∧ c ≤ 'F' then c.toNat - 'A'.toNat + 10
    else 16
  if value < base then some value else none

def natInBase (base : Nat) (ds : List Char) : Nat :=
  ds.foldl (fun n c => n * base + (baseDigit? base c).getD 0) 0

def base? : Char → Option Nat
  | 'x' => some 16
  | 'o' => some 8
  | 'b' => some 2
  | _ => none

def sign? : List Char → Option Bool × List Char
  | '-' :: s => (some true, s)
  | '+' :: s => (some false, s)
  | s => (none, s)

/-- The digits of a whole part: a single zero, or digits that do not start with one. -/
def wholePart? (s : List Char) : Option (List Char × List Char) :=
  match s with
  | '0' :: rest => some (['0'], rest)
  | _ => decimalRun? s

def integer? (s : List Char) : Option (Datum × List Char) :=
  let (sign, body) := sign? s
  let found : Option (Nat × List Char) :=
    match sign, body with
    | none, '0' :: letter :: rest =>
      match base? letter with
      | some base =>
        (digitRun? (fun c => (baseDigit? base c).isSome) (rest.length + 1) rest).map
          fun (ds, s) => (natInBase base ds, s)
      | none => some (0, letter :: rest)
    | _, _ => (wholePart? body).map fun (ds, s) => (natInBase 10 ds, s)
  found.bind fun (n, s) =>
    let value : Int := if sign = some true then -n else n
    if -0x8000000000000000 ≤ value ∧ value < 0x8000000000000000 then some (.int value, s) else none

/-- The exponent at the front, if a mark and digits stand there; a mark without them is refused. -/
def exponent? (s : List Char) : Option (Option Int × List Char) :=
  match s with
  | mark :: rest =>
    if mark = 'e' ∨ mark = 'E' then
      let (sign, body) := sign? rest
      (decimalRun? body).map fun (ds, s) =>
        (some (if sign = some true then -(natInBase 10 ds : Int) else natInBase 10 ds), s)
    else some (none, s)
  | [] => some (none, [])

/-- `digits * 10 ^ exponent`, rounded to the nearest number of 64 bits. Exponents that leave the
range of that format whatever the digits are cut off. -/
def nearest (digits : List Char) (exponent : Int) : Float :=
  let n := natInBase 10 digits
  let bound : Int := digits.length + 400
  let exponent := max (-bound) (min bound exponent)
  if n = 0 then 0 else Float.ofScientific n (exponent < 0) exponent.natAbs

def decimal? (s : List Char) : Option (Float × List Char) := do
  let (whole, s) ← wholePart? s
  match s with
  | '.' :: rest =>
    let (fraction, s) ← decimalRun? rest
    let (exponent, s) ← exponent? s
    return (nearest (whole ++ fraction) (exponent.getD 0 - fraction.length), s)
  | _ =>
    let (some exponent, s) ← exponent? s | none
    return (nearest whole exponent, s)

/-- A floating-point number, finite or not. One that is written with digits is not above the
greatest finite number. -/
def real? (s : List Char) : Option (Datum × List Char) :=
  let (sign, body) := sign? s
  let signed (x : Float) : Datum := .real (.ofFloat (if sign = some true then -x else x))
  match body with
  | 'i' :: 'n' :: 'f' :: rest => some (signed (1 / 0), rest)
  | 'n' :: 'a' :: 'n' :: rest => some (.real .nan, rest)
  | _ => do
    let (x, rest) ← decimal? body
    if x.isInf ∧ sign ≠ some true then none else some (signed x, rest)

end Dialogue.Toml
