import Dialogue.Toml.Text
import Dialogue.Toml.Moment
import Dialogue.Toml.Number
import Dialogue.Toml.Table

/-!
TOML texts as data trees. Tables become records, and a date or time becomes a record with one
reserved field that holds its text.
-/
namespace Dialogue.Toml

def momentField : String := "$__toml_private_datetime"

/-- Drops a comment at the front. It ends before the first control character other than a tab. -/
def skipComment : List Char → List Char
  | '#' :: s => s.dropWhile isPlain
  | s => s

def skipLines : Nat → List Char → List Char
  | 0, s => s
  | fuel + 1, s =>
    let s := skipComment (skipSpace s)
    match lineBreak? s with
    | some rest => skipLines fuel rest
    | none => s

/-- What is left after the end of a line: blanks, perhaps a comment, then a line break or the end of
the text. -/
def lineEnd? (s : List Char) : Option (List Char) :=
  match skipComment (skipSpace s) with
  | [] => some []
  | s => lineBreak? s

def scalar? (s : List Char) : Option (Datum × List Char) :=
  match moment? s with
  | some (text, s) => some (.record [(momentField, .text text)], s)
  | none => (real? s).or (integer? s)

mutual

def value : Nat → Nat → List Char → Option (Datum × List Char)
  | 0, _, _ => none
  | fuel + 1, depth, s =>
    match s with
    | '"' :: _ | '\'' :: _ => (string? s).map fun (t, s) => (.text t, s)
    | '[' :: rest =>
      if depth + 1 < maxDepth then
        match skipLines rest.length rest with
        | ']' :: s => some (.list [], s)
        | s => (items fuel (depth + 1) s).map fun (xs, s) => (.list xs, s)
      else none
    | '\x7b' :: rest =>
      if depth + 1 < maxDepth then
        match skipSpace rest with
        | '\x7d' :: s => some (.record [], s)
        | s =>
          (members fuel (depth + 1) [] s).map fun (entries, s) =>
            (.record (Node.entriesToDatum entries), s)
      else none
    | 't' :: rest => (Json.keyword? "rue" rest).map fun s => (.bool true, s)
    | 'f' :: rest => (Json.keyword? "alse" rest).map fun s => (.bool false, s)
    | _ => scalar? s

/-- The elements of an array, at least one, with the closing bracket; a comma may follow the
last. -/
def items : Nat → Nat → List Char → Option (List Datum × List Char)
  | 0, _, _ => none
  | fuel + 1, depth, s => do
    let (x, s) ← value fuel depth s
    match skipLines s.length s with
    | ']' :: s => return ([x], s)
    | ',' :: s =>
      match skipLines s.length s with
      | ']' :: s => return ([x], s)
      | s =>
        let (xs, s) ← items fuel depth s
        return (x :: xs, s)
    | _ => none

/-- The members of an inline table, at least one, added to those read before; with the closing
brace. -/
def members : Nat → Nat → List (String × Node) → List Char →
    Option (List (String × Node) × List Char)
  | 0, _, _, _ => none
  | fuel + 1, depth, read, s => do
    let (key, s) ← key? s
    let '=' :: s := s | none
    let (x, s) ← value fuel depth (skipSpace s)
    let read ← Node.addValue key x read
    match skipSpace s with
    | '\x7d' :: s => return (read, s)
    | ',' :: s => members fuel depth read s
    | _ => none

end

def addBelow (here key : List String) (d : Datum) (entries : List (String × Node)) :
    Option (List (String × Node)) :=
  Node.change .passed (fun _ inner => Node.addValue key d inner) here .header entries

/-- Reads the lines of a document into its root table; `here` is the path of the last header. -/
def lines : Nat → List String → List (String × Node) → List Char → Option (List (String × Node))
  | 0, _, _, _ => none
  | fuel + 1, here, root, s =>
    match skipComment (skipSpace s) with
    | [] => some root
    | '[' :: '[' :: s => do
      let (path, s) ← key? s
      let ']' :: ']' :: s := s | none
      lines fuel path (← Node.openElement path root) (← lineEnd? s)
    | '[' :: s => do
      let (path, s) ← key? s
      let ']' :: s := s | none
      lines fuel path (← Node.openTable path root) (← lineEnd? s)
    | s =>
      match lineBreak? s with
      | some rest => lines fuel here root rest
      | none => do
        let (key, s) ← key? s
        let '=' :: s := s | none
        let (x, s) ← value (s.length + 1) 0 (skipSpace s)
        lines fuel here (← addBelow here key x root) (← lineEnd? s)

/-- The data tree of a TOML document. A byte order mark may stand in front. -/
def parse? (text : String) : Option Datum :=
  let s := match text.toList with
    | '\ufeff' :: s => s
    | s => s
  (lines (s.length + 1) [] [] s).map fun root => .record (Node.entriesToDatum root)

end Dialogue.Toml
