import Dialogue.Datum.Basic

/-!
Data trees as JSON texts, on one line without blanks or over several lines with two blanks for each
level.
-/
namespace Dialogue.Json

def hexDigit (n : Nat) : Char := if n < 10 then Char.ofNat (48 + n) else Char.ofNat (87 + n)

def escaped (c : Char) : List Char :=
  match c with
  | '"' => ['\\', '"']
  | '\\' => ['\\', '\\']
  | '\n' => ['\\', 'n']
  | '\r' => ['\\', 'r']
  | '\t' => ['\\', 't']
  | '\u0008' => ['\\', 'b']
  | '\u000c' => ['\\', 'f']
  | c =>
    if c.toNat < 0x20 then
      ['\\', 'u', '0', '0', hexDigit (c.toNat / 16), hexDigit (c.toNat % 16)]
    else [c]

def quoted (s : String) : String :=
  .ofList ('"' :: s.toList.flatMap escaped ++ ['"'])

/-- The text of a tree without parts. Null stands for what has no value. -/
def leafText : Datum → String
  | .null | .meaningless => "null"
  | .bool true => "true"
  | .bool false => "false"
  | .int n => toString n
  | .real x => x.dataText
  | .text s => quoted s
  | .list _ => "[]"
  | .record _ => "\x7b\x7d"

mutual

def compact : Datum → String
  | .list (x :: xs) => "[" ++ compact x ++ compactItems xs ++ "]"
  | .record ((name, x) :: fields) =>
    "\x7b" ++ quoted name ++ ":" ++ compact x ++ compactFields fields ++ "\x7d"
  | leaf => leafText leaf

def compactItems : List Datum → String
  | [] => ""
  | x :: xs => "," ++ compact x ++ compactItems xs

def compactFields : List (String × Datum) → String
  | [] => ""
  | (name, x) :: fields => "," ++ quoted name ++ ":" ++ compact x ++ compactFields fields

end

def newLine (level : Nat) : String := .ofList ('\n' :: List.replicate (2 * level) ' ')

mutual

def indented (level : Nat) : Datum → String
  | .list (x :: xs) =>
    "[" ++ newLine (level + 1) ++ indented (level + 1) x ++ indentedItems (level + 1) xs ++
      newLine level ++ "]"
  | .record ((name, x) :: fields) =>
    "\x7b" ++ newLine (level + 1) ++ quoted name ++ ": " ++ indented (level + 1) x ++
      indentedFields (level + 1) fields ++ newLine level ++ "\x7d"
  | leaf => leafText leaf

def indentedItems (level : Nat) : List Datum → String
  | [] => ""
  | x :: xs => "," ++ newLine level ++ indented level x ++ indentedItems level xs

def indentedFields (level : Nat) : List (String × Datum) → String
  | [] => ""
  | (name, x) :: fields =>
    "," ++ newLine level ++ quoted name ++ ": " ++ indented level x ++ indentedFields level fields

end

def pretty (x : Datum) : String := indented 0 x

end Dialogue.Json
