import Dialogue.Json.Number

/-!
JSON texts as data trees. The grammar is the standard one, with four blank characters and no control
characters inside strings. Numbers out of range, strings with half a surrogate pair, and arrays and
objects nested 128 deep or deeper are well formed but have no value.
-/
namespace Dialogue.Json

def isSpace (c : Char) : Bool := c == ' ' || c == '\n' || c == '\t' || c == '\r'

def skipSpace (s : List Char) : List Char := s.dropWhile isSpace

def hexValue? (c : Char) : Option Nat :=
  if '0' ≤ c ∧ c ≤ '9' then some (c.toNat - '0'.toNat)
  else if 'a' ≤ c ∧ c ≤ 'f' then some (c.toNat - 'a'.toNat + 10)
  else if 'A' ≤ c ∧ c ≤ 'F' then some (c.toNat - 'A'.toNat + 10)
  else none

def hex4? : List Char → Option (Nat × List Char)
  | a :: b :: c :: d :: s => do
    let n := ((← hexValue? a) * 16 + (← hexValue? b)) * 256 + (← hexValue? c) * 16 + (← hexValue? d)
    return (n, s)
  | _ => none

/-- The character written by the digits after `\u`: one unit, or a high and a low surrogate. Half a
pair is no character. -/
def unicodeEscape? (s : List Char) : Option (Option Char × List Char) := do
  let (unit, s) ← hex4? s
  if unit < 0xD800 ∨ 0xE000 ≤ unit then return (some (Char.ofNat unit), s)
  else if 0xDC00 ≤ unit then return (none, s)
  else
    let '\\' :: 'u' :: rest := s | return (none, s)
    let (low, rest) ← hex4? rest
    if 0xDC00 ≤ low ∧ low < 0xE000 then
      return (some (Char.ofNat (0x10000 + (unit - 0xD800) * 0x400 + (low - 0xDC00))), rest)
    else return (none, s)

/-- The character that stands after a backslash, unless it is a `\u` escape. -/
def simpleEscape? : Char → Option Char
  | '"' => some '"'
  | '\\' => some '\\'
  | '/' => some '/'
  | 'b' => some '\u0008'
  | 'f' => some '\u000c'
  | 'n' => some '\n'
  | 'r' => some '\r'
  | 't' => some '\t'
  | _ => none

/-- The text of a string up to its closing quote, if it has one; `read` holds the characters before,
backwards, unless one of them is missing. -/
def stringBody : Nat → Option (List Char) → List Char → Option (Option String × List Char)
  | 0, _, _ => none
  | fuel + 1, read, s =>
    match s with
    | '"' :: s => some (read.map fun cs => .ofList cs.reverse, s)
    | '\\' :: 'u' :: s => do
      let (c, s) ← unicodeEscape? s
      stringBody fuel (read.bind fun cs => c.map (· :: cs)) s
    | '\\' :: e :: s => do
      let c ← simpleEscape? e
      stringBody fuel (read.map (c :: ·)) s
    | c :: s =>
      if c = '\\' ∨ c.toNat < 0x20 then none else stringBody fuel (read.map (c :: ·)) s
    | [] => none

def keyword? (word : String) (s : List Char) : Option (List Char) :=
  if word.toList.isPrefixOf s then some (s.drop word.length) else none

def maxDepth : Nat := 128

def skipLeaf? (fuel : Nat) (s : List Char) : Option (List Char) :=
  match s with
  | '"' :: s => (stringBody fuel none s).map (·.2)
  | 'n' :: s => keyword? "ull" s
  | 't' :: s => keyword? "rue" s
  | 'f' :: s => keyword? "alse" s
  | s => (literal? s).map (·.2)

def skipName? (fuel : Nat) (s : List Char) : Option (List Char) := do
  let '"' :: s := skipSpace s | none
  let (_, s) ← stringBody fuel none s
  let ':' :: s := skipSpace s | none
  return s

/-- What may come next while arrays and objects are skipped: a value, a member of an object, or what
follows a value. -/
inductive Expected where
  | value
  | member
  | more

/-- What is left after a value that is skipped. The arrays and objects around it are given by their
closing brackets, from the inside out; they may be nested to any depth. Each call but the last reads
a character, so fuel beyond the length of the text is never needed. -/
def skip : Nat → Expected → List Char → List Char → Option (List Char)
  | 0, _, _, _ => none
  | fuel + 1, .value, outer, s =>
    match skipSpace s with
    | '[' :: s =>
      match skipSpace s with
      | ']' :: s => skip fuel .more outer s
      | s => skip fuel .value (']' :: outer) s
    | '\x7b' :: s =>
      match skipSpace s with
      | '\x7d' :: s => skip fuel .more outer s
      | s => skip fuel .member ('\x7d' :: outer) s
    | s => do skip fuel .more outer (← skipLeaf? fuel s)
  | fuel + 1, .member, outer, s => do skip fuel .value outer (← skipName? fuel s)
  | fuel + 1, .more, outer, s =>
    match outer with
    | [] => some s
    | close :: around =>
      match skipSpace s with
      | ',' :: s => skip fuel (if close = ']' then .value else .member) outer s
      | c :: s => if c = close then skip fuel .more around s else none
      | [] => none

def meaningless? (s : List Char) : Option (Datum × List Char) :=
  (skip (s.length + 1) .value [] s).map fun s => (.meaningless, s)

def object (members : List (Option String × Datum)) : Datum :=
  match members.mapM fun m => m.1.map (·, m.2) with
  | some fields => .record fields
  | none => .meaningless

mutual

/-- A value at the front of a text, `depth` arrays and objects deep. Each call reads a character, so
fuel beyond twice the length of the text is never needed. -/
def value : Nat → Nat → List Char → Option (Datum × List Char)
  | 0, _, _ => none
  | fuel + 1, depth, s =>
    match skipSpace s with
    | '"' :: s =>
      (stringBody fuel (some []) s).map fun (t, s) => ((t.map Datum.text).getD .meaningless, s)
    | '[' :: s =>
      if depth + 1 < maxDepth then
        match skipSpace s with
        | ']' :: s => some (.list [], s)
        | s => (items fuel (depth + 1) s).map fun (xs, s) => (.list xs, s)
      else meaningless? ('[' :: s)
    | '\x7b' :: s =>
      if depth + 1 < maxDepth then
        match skipSpace s with
        | '\x7d' :: s => some (.record [], s)
        | s => (members fuel (depth + 1) s).map fun (ms, s) => (object ms, s)
      else meaningless? ('\x7b' :: s)
    | 'n' :: s => (keyword? "ull" s).map fun s => (.null, s)
    | 't' :: s => (keyword? "rue" s).map fun s => (.bool true, s)
    | 'f' :: s => (keyword? "alse" s).map fun s => (.bool false, s)
    | s => do
      let (l, s) ← literal? s
      return (l.toDatum?.getD .meaningless, s)

def items : Nat → Nat → List Char → Option (List Datum × List Char)
  | 0, _, _ => none
  | fuel + 1, depth, s => do
    let (x, s) ← value fuel depth s
    match skipSpace s with
    | ']' :: s => return ([x], s)
    | ',' :: s =>
      let (xs, s) ← items fuel depth s
      return (x :: xs, s)
    | _ => none

def members : Nat → Nat → List Char → Option (List (Option String × Datum) × List Char)
  | 0, _, _ => none
  | fuel + 1, depth, s => do
    let '"' :: s := skipSpace s | none
    let (name, s) ← stringBody fuel (some []) s
    let ':' :: s := skipSpace s | none
    let (x, s) ← value fuel depth s
    match skipSpace s with
    | '\x7d' :: s => return ([(name, x)], s)
    | ',' :: s =>
      let (ms, s) ← members fuel depth s
      return ((name, x) :: ms, s)
    | _ => none

end

def parse? (text : String) : Option Datum := do
  let s := text.toList
  let (x, rest) ← value (2 * s.length + 2) 0 s
  if skipSpace rest = [] then some x else none

example : (parse? "[null, \"\\ud834\"]").map Datum.isMeaningful = some false := by decide +kernel
example : (parse? "[null, \"\\ud834\\udd1e\"]").map Datum.isMeaningful = some true := by
  decide +kernel
example : (parse? "[null, \"\\ud8\"]").isNone := by decide +kernel

end Dialogue.Json
