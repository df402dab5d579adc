import Dialogue.Text.Blank
import Dialogue.Text.CaseTable

/-!
Default case conversion. Conversion works on whole texts: a character may become several, and a
capital sigma becomes the final form at the end of a word.
-/
namespace Dialogue.Text

def mapByRuns (runs : List (Nat × Nat × Nat × Int)) (code : Nat) : Nat :=
  match runs.find? fun (first, last, step, _) =>
      first ≤ code && code ≤ last && (code - first) % step == 0 with
  | some (_, _, _, shift) => (code + shift).toNat
  | none => code

/-- The lower case of a character outside any context. The dotted capital I keeps its dot as a
combining character of its own. -/
def lowerChar (c : Char) : List Char :=
  if c.toNat < 0x80 then [c.toLower]
  else if c = 'İ' then ['i', '\u0307']
  else [Char.ofNat (mapByRuns lowerRuns c.toNat)]

def upperChar (c : Char) : List Char :=
  if c.toNat < 0x80 then [c.toUpper]
  else match upperSequences.find? fun e => e.1 == c.toNat with
    | some e => e.2.map Char.ofNat
    | none => [Char.ofNat (mapByRuns upperRuns c.toNat)]

def isCased (c : Char) : Bool := inRanges casedRanges c.toNat
def isCaseIgnorable (c : Char) : Bool := inRanges caseIgnorableRanges c.toNat

def startsCased (s : List Char) : Bool :=
  match s.dropWhile isCaseIgnorable with
  | c :: _ => isCased c
  | [] => false

/-- Lower case of a text that follows the characters of `before`, given backwards. A capital sigma
is final when a cased letter stands before it and none after it in the same word. -/
def lowerAfter (before : List Char) : List Char → List Char
  | [] => []
  | c :: rest =>
    let image := if c = 'Σ' then
        if startsCased before && !startsCased rest then ['ς'] else ['σ']
      else lowerChar c
    image ++ lowerAfter (c :: before) rest

def lowerChars (s : List Char) : List Char := lowerAfter [] s

def capitaliseChars : List Char → List Char
  | [] => []
  | c :: rest => upperChar c ++ rest

def lower (s : String) : String := .ofList (lowerChars s.toList)
def capitalise (s : String) : String := .ofList (capitaliseChars s.toList)

example : lower "ΟΔΟΣ ΣΑΣ." = "οδος σας." := by decide +kernel
example : capitalise "ßa" = "SSa" := by decide +kernel

end Dialogue.Text
