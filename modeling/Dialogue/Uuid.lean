import Dialogue.Datum.Basic

/-!
Universally unique identifiers: numbers of 128 bits, written as 32 hexadecimal digits. The written
form has hyphens after 8, 12, 16 and 20 digits; reading also takes the digits alone, the hyphenated
form in braces, and the hyphenated form with `urn:uuid:` in front. Letters count in either case.
-/
namespace Dialogue

structure Uuid where
  bits : BitVec 128
  deriving DecidableEq

namespace Uuid

abbrev order : Uuid → Uuid → Ordering := compareOn fun u => u.bits.toNat

instance : Ord Uuid := ⟨order⟩

instance : Std.TransOrd Uuid := inferInstanceAs (Std.TransCmp order)

instance : Std.LawfulEqOrd Uuid where
  compare_self := (inferInstance : Std.ReflCmp order).compare_self
  eq_of_compare {a b} h := by
    have same : a.bits = b.bits := BitVec.eq_of_toNat_eq (Nat.compare_eq_eq.mp h)
    cases a; cases b; simp_all

def hexDigit (n : Nat) : Char := if n < 10 then Char.ofNat (48 + n) else Char.ofNat (87 + n)

def hexValue? (c : Char) : Option Nat :=
  if '0' ≤ c ∧ c ≤ '9' then some (c.toNat - '0'.toNat)
  else if 'a' ≤ c ∧ c ≤ 'f' then some (c.toNat - 'a'.toNat + 10)
  else if 'A' ≤ c ∧ c ≤ 'F' then some (c.toNat - 'A'.toNat + 10)
  else none

def hexDigits (n : Nat) : Nat → List Char
  | 0 => []
  | count + 1 => hexDigits (n / 16) count ++ [hexDigit (n % 16)]

def hyphenated (ds : List Char) : List Char :=
  ds.take 8 ++ '-' :: (ds.drop 8).take 4 ++ '-' :: (ds.drop 12).take 4 ++
    '-' :: (ds.drop 16).take 4 ++ '-' :: ds.drop 20

def toText (u : Uuid) : String := .ofList (hyphenated (hexDigits u.bits.toNat 32))

def ofDigits? (ds : List Char) : Option Uuid := do
  let values ← ds.mapM hexValue?
  if ds.length = 32 then some ⟨.ofNat 128 (values.foldl (fun n d => n * 16 + d) 0)⟩ else none

def ofHyphenated? (s : List Char) : Option Uuid :=
  let ds := s.take 8 ++ (s.drop 9).take 4 ++ (s.drop 14).take 4 ++ (s.drop 19).take 4 ++ s.drop 24
  if s = hyphenated ds then ofDigits? ds else none

def urnPrefix : List Char := "urn:uuid:".toList

def parse? (text : String) : Option Uuid :=
  let s := text.toList
  if s.length = 32 then ofDigits? s
  else if s.length = 36 then ofHyphenated? s
  else if s.length = 38 ∧ s.head? = some '\x7b' ∧ s.getLast? = some '\x7d' then
    ofHyphenated? (s.drop 1).dropLast
  else if s.length = 45 ∧ (s.take 9).map Char.toLower = urnPrefix then ofHyphenated? (s.drop 9)
  else none

def version (u : Uuid) : Nat := (u.bits >>> 76).toNat % 16

/-- The identifier of version 4 made of random bits: six of them are overwritten by the version and
the variant. -/
def ofRandom (bits : BitVec 128) : Uuid :=
  let kept := bits &&& ~~~(0xF#128 <<< 76) &&& ~~~(0x3#128 <<< 62)
  ⟨kept ||| 0x4#128 <<< 76 ||| 0x2#128 <<< 62⟩

instance : Inhabited Uuid := ⟨⟨0#128⟩⟩

instance : Storable Uuid where
  toDatum u := .text u.toText
  readDatum? | _, .text s => parse? s | _, _ => none

example : (parse? "A0EEBC999C0B4EF8BB6D6BB9BD380A11").map toText =
    some "a0eebc99-9c0b-4ef8-bb6d-6bb9bd380a11" := by decide +kernel
example : parse? "URN:Uuid:00000000-0000-0000-0000-000000000000" = some default := by decide +kernel
example : (ofRandom 0).version = 4 := by decide +kernel

end Uuid
end Dialogue
