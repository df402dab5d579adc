/-!
Blanks: the characters with the Unicode property White_Space. Trimming drops them at both ends of a
text, and the words of a text are what stands between them.
-/
namespace Dialogue.Text

/-- The blank characters as closed ranges of code points, ascending and apart. -/
def blankRanges : List (Nat × Nat) :=
  [(0x09, 0x0D), (0x20, 0x20), (0x85, 0x85), (0xA0, 0xA0), (0x1680, 0x1680), (0x2000, 0x200A),
   (0x2028, 0x2029), (0x202F, 0x202F), (0x205F, 0x205F), (0x3000, 0x3000)]

def inRanges (ranges : List (Nat × Nat)) (code : Nat) : Bool :=
  ranges.any fun r => r.1 ≤ code && code ≤ r.2

def isBlank (c : Char) : Bool := inRanges blankRanges c.toNat

example : (blankRanges.map fun r => r.2 + 1 - r.1).sum = 25 := by decide

/-- Drops the longest end of the text whose characters all satisfy `p`. -/
def dropEndWhile (p : Char → Bool) (s : List Char) : List Char :=
  (s.reverse.dropWhile p).reverse

def trimChars (s : List Char) : List Char :=
  dropEndWhile isBlank (s.dropWhile isBlank)

/-- The longest stretches of characters that are not blank, in order. -/
def words (s : List Char) : List (List Char) :=
  (s.splitOnP isBlank).filter fun w => !w.isEmpty

def singleSpaced (s : List Char) : List Char :=
  [' '].intercalate (words s)

def trim (s : String) : String := .ofList (trimChars s.toList)

def isBlankText (s : String) : Bool := s.toList.all isBlank

example : trim " \ta b\u00a0 " = "a b" := by decide +kernel
example : singleSpaced "  to \n be\u3000".toList = "to be".toList := by decide +kernel

end Dialogue.Text
