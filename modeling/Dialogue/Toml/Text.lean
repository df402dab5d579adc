import Dialogue.Json.Parser

/-!
Strings and keys of TOML texts, in the four quoted forms and the bare one. Every reader takes its
piece from the front of a text and gives the rest.
-/
namespace Dialogue.Toml

/-- A line break at the front: a line feed, or a carriage return before one. -/
def lineBreak? : List Char → Option (List Char)
  | '\n' :: s => some s
  | '\r' :: '\n' :: s => some s
  | _ => none

def isSpace (c : Char) : Bool := c == ' ' || c == '\t'

def skipSpace (s : List Char) : List Char := s.dropWhile isSpace

/-- Printable characters, the tab and everything beyond ASCII; quotes and backslashes are for the
string forms to exclude. -/
def isPlain (c : Char) : Bool := c == '\t' || (0x20 ≤ c.toNat && c.toNat ≠ 0x7F)

def hexDigits? : Nat → Nat → List Char → Option (Nat × List Char)
  | 0, n, s => some (n, s)
  | count + 1, n, c :: s => do hexDigits? count (n * 16 + (← Json.hexValue? c)) s
  | _ + 1, _, [] => none

/-- A code point that is a character, written by `count` hexadecimal digits. -/
def codePoint? (count : Nat) (s : List Char) : Option (Char × List Char) := do
  let (n, s) ← hexDigits? count 0 s
  if n < 0xD800 ∨ (0xE000 ≤ n ∧ n < 0x110000) then return (Char.ofNat n, s) else none

def escape? : List Char → Option (Char × List Char)
  | 'u' :: s => codePoint? 4 s
  | 'U' :: s => codePoint? 8 s
  | '/' :: _ => none
  | c :: s => (Json.simpleEscape? c).map (·, s)
  | [] => none

/-- The characters of a basic string up to its quote; `read` holds those before, backwards. -/
def basicBody : Nat → List Char → List Char → Option (String × List Char)
  | 0, _, _ => none
  | fuel + 1, read, s =>
    match s with
    | '"' :: s => some (.ofList read.reverse, s)
    | '\\' :: s => do
      let (c, s) ← escape? s
      basicBody fuel (c :: read) s
    | c :: s => if isPlain c then basicBody fuel (c :: read) s else none
    | [] => none

def literalBody (s : List Char) : Option (String × List Char) :=
  match s.dropWhile fun c => isPlain c && c != '\'' with
  | '\'' :: rest => some (.ofList (s.takeWhile fun c => isPlain c && c != '\''), rest)
  | _ => none

def skipBlankLines : Nat → List Char → List Char
  | 0, s => s
  | fuel + 1, s =>
    match lineBreak? s with
    | some rest => skipBlankLines fuel rest
    | none => match s with
      | c :: rest => if isSpace c then skipBlankLines fuel rest else s
      | [] => []

/-- The characters of a string of several lines, up to three of its quotes. Up to two further quotes
stand for themselves before the closing three. A backslash starts an escape if `escapes` is set, and
at the end of a line it drops the line break and the blanks that follow. -/
def linesBody (quote : Char) (escapes : Bool) :
    Nat → List Char → List Char → Option (String × List Char)
  | 0, _, _ => none
  | fuel + 1, read, s =>
    match lineBreak? s with
    | some rest => linesBody quote escapes fuel ('\n' :: read) rest
    | none =>
      match s with
      | [] => none
      | c :: rest =>
        if c = quote then
          let run := s.takeWhile (· == quote)
          if run.length < 3 then linesBody quote escapes fuel (c :: read) rest
          else
            let kept := min (run.length - 3) 2
            some (.ofList ((List.replicate kept quote ++ read).reverse), s.drop (3 + kept))
        else if c = '\\' ∧ escapes then
          match lineBreak? (skipSpace rest) with
          | some next => linesBody quote escapes fuel read (skipBlankLines next.length next)
          | none => do
            let (e, rest) ← escape? rest
            linesBody quote escapes fuel (e :: read) rest
        else if isPlain c then linesBody quote escapes fuel (c :: read) rest
        else none

def dropFirstBreak (s : List Char) : List Char := (lineBreak? s).getD s

def lineString? : List Char → Option (String × List Char)
  | '"' :: s => basicBody (s.length + 1) [] s
  | '\'' :: s => literalBody s
  | _ => none

def string? : List Char → Option (String × List Char)
  | '"' :: '"' :: '"' :: s => linesBody '"' true (s.length + 1) [] (dropFirstBreak s)
  | '\'' :: '\'' :: '\'' :: s => linesBody '\'' false (s.length + 1) [] (dropFirstBreak s)
  | s => lineString? s

def isBareKeyChar (c : Char) : Bool :=
  c.isAlphanum || c == '_' || c == '-'

def keyPart? (s : List Char) : Option (String × List Char) :=
  match s with
  | '"' :: _ | '\'' :: _ => lineString? s
  | _ =>
    match s.takeWhile isBareKeyChar with
    | [] => none
    | bare => some (.ofList bare, s.dropWhile isBareKeyChar)

def keyParts? : Nat → List Char → Option (List String × List Char)
  | 0, _ => none
  | fuel + 1, s => do
    let (part, s) ← keyPart? (skipSpace s)
    match skipSpace s with
    | '.' :: s =>
      let (parts, s) ← keyParts? fuel s
      return (part :: parts, s)
    | s => return ([part], s)

/-- How deep values nest and how many parts a key has stay below this. -/
def maxDepth : Nat := 80

def key? (s : List Char) : Option (List String × List Char) := do
  let (parts, s) ← keyParts? (s.length + 1) s
  if parts.length < maxDepth then return (parts, s) else none

end Dialogue.Toml
