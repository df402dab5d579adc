import Dialogue.Text.Case

/-!
The normal form under which texts are compared: single spaces between words, none at the ends, and
lower case throughout.
-/
namespace Dialogue.Text

def normalChars (s : List Char) : List Char := lowerChars (singleSpaced s)

def normalize (s : String) : String := .ofList (normalChars s.toList)

def spaced (s : String) : String := .ofList (s.toList.map fun c => if c = '_' then ' ' else c)

def occursIn (part whole : List Char) : Bool :=
  match whole with
  | [] => part.isEmpty
  | c :: rest => part.isPrefixOf (c :: rest) || occursIn part rest

example : normalize "  New\tYORK " = "new york" := by decide +kernel
example : occursIn "bc".toList "abcd".toList = true := by decide +kernel

end Dialogue.Text
