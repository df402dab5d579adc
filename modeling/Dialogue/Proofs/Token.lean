import Mathlib.Data.List.Basic
import Mathlib.Data.List.TakeWhile
import Dialogue.Json.Parser
import Dialogue.Json.Printer

/-!
Numbers and strings in JSON texts. Integers and strings are read as they were written, and so is any
other number that the reader computes from its text again, whatever follows in the text.
-/
namespace Dialogue.Json

variable {s t : List Char} {c : Char}

/-! Numbers. A number ends where no digit, point or exponent mark follows. -/

/-- A number before this text is not continued by it. -/
def Ends (t : List Char) : Prop :=
  ∀ c, t.head? = some c → c.isDigit = false ∧ c ≠ '.' ∧ c ≠ 'e' ∧ c ≠ 'E'

theorem splitDigits_append (ends : Ends t) :
    splitDigits (s ++ t) = ((splitDigits s).1, (splitDigits s).2 ++ t) := by
  induction s with
  | nil =>
    cases t with
    | nil => rfl
    | cons c t => simp [splitDigits, (ends c rfl).1]
  | cons c s ih =>
    simp only [splitDigits, Prod.mk.injEq] at ih
    by_cases digit : c.isDigit = true <;> simp [splitDigits, digit, ih]

theorem fraction?_append {s' : List Char} {ds : Option (List Char)}
    (read : fraction? s = some (ds, s')) (ends : Ends t) :
    fraction? (s ++ t) = some (ds, s' ++ t) := by
  have without {c : Char} {s : List Char} (other : c ≠ '.') :
      fraction? (c :: s) = some (none, c :: s) := by
    unfold fraction?
    split <;> simp_all
  cases s with
  | nil =>
    cases read
    cases t with
    | nil => rfl
    | cons c t => exact without (ends c rfl).2.1
  | cons c s =>
    by_cases point : c = '.'
    · subst point
      simp only [fraction?, List.cons_append, splitDigits_append ends] at read ⊢
      split at read <;> simp_all
    · rw [without point] at read
      cases read
      exact without point

theorem splitSign_append (some : s ≠ []) :
    splitSign (s ++ t) = ((splitSign s).1, (splitSign s).2 ++ t) := by
  obtain ⟨c, s, rfl⟩ := List.exists_cons_of_ne_nil some
  simp only [List.cons_append]
  unfold splitSign
  split <;> split <;> simp_all

theorem exponent?_append {s' : List Char} {e : Option (Bool × List Char)}
    (read : exponent? s = some (e, s')) (ends : Ends t) :
    exponent? (s ++ t) = some (e, s' ++ t) := by
  cases s with
  | nil =>
    cases read
    cases t with
    | nil => rfl
    | cons c t =>
      have other := (ends c rfl).2.2
      simp [exponent?, other]
  | cons mark s =>
    by_cases marks : mark = 'e' ∨ mark = 'E'
    · simp only [exponent?, if_pos marks, List.cons_append] at read ⊢
      have digits : s ≠ [] := by
        rintro rfl
        simp [splitSign, splitDigits] at read
      simp only [splitSign_append digits, splitDigits_append ends]
      split at read <;> simp_all
    · simp only [exponent?, if_neg marks, List.cons_append] at read ⊢
      cases read
      rfl

/-- A number without its sign. -/
theorem unsigned?_append {s' : List Char} {l : Literal} {negative : Bool}
    (read : unsigned? negative s = some (l, s')) (ends : Ends t) :
    unsigned? negative (s ++ t) = some (l, s' ++ t) := by
  simp only [unsigned?, Option.bind_eq_bind] at read ⊢
  simp only [splitDigits_append ends]
  split at read
  · contradiction
  · rename_i whole
    obtain ⟨⟨ds, s₁⟩, fraction, read⟩ := Option.bind_eq_some_iff.mp read
    obtain ⟨⟨e, s₂⟩, exponent, read⟩ := Option.bind_eq_some_iff.mp read
    cases read
    simp only [if_neg whole, fraction?_append fraction ends, exponent?_append exponent ends,
      Option.bind_some]
    rfl

theorem unsigned?_head {l : Literal} {negative : Bool} (read : unsigned? negative s = some (l, t)) :
    ∃ c rest, s = c :: rest ∧ c.isDigit = true := by
  cases s with
  | nil => simp [unsigned?, splitDigits] at read
  | cons c s =>
    refine ⟨c, s, rfl, ?_⟩
    by_contra other
    simp [unsigned?, splitDigits, other] at read

theorem literal?_of_head (other : c ≠ '-') : literal? (c :: s) = unsigned? false (c :: s) := by
  unfold literal?
  split <;> simp_all

/-- A number starts with a minus or a digit. -/
theorem literal?_head {l : Literal} (read : literal? s = some (l, t)) :
    ∃ c rest, s = c :: rest ∧ (c = '-' ∨ c.isDigit = true) := by
  unfold literal? at read
  split at read
  · exact ⟨_, _, rfl, .inl rfl⟩
  · obtain ⟨c, rest, rfl, digit⟩ := unsigned?_head read
    exact ⟨c, rest, rfl, .inr digit⟩

/-- A number is read as it is, whatever follows that does not continue it. -/
theorem literal?_append {s' : List Char} {l : Literal} (read : literal? s = some (l, s'))
    (ends : Ends t) : literal? (s ++ t) = some (l, s' ++ t) := by
  obtain ⟨c, s, rfl, _⟩ := literal?_head read
  by_cases minus : c = '-'
  · subst minus
    exact unsigned?_append (s := s) read ends
  · rw [literal?_of_head minus] at read
    rw [List.cons_append, literal?_of_head minus, ← List.cons_append]
    exact unsigned?_append read ends

/-- Decimal notation has no leading zeros. -/
theorem toDigits_of_head? {n : Nat} (zero : (Nat.toDigits 10 n).head? = some '0') :
    Nat.toDigits 10 n = ['0'] := by
  induction n using Nat.strongRecOn with
  | ind n ih =>
    rcases Nat.lt_or_ge n 10 with small | large
    · rw [Nat.toDigits_of_lt_base small] at zero ⊢
      simpa using zero
    · rw [Nat.toDigits_of_base_le (by decide) large,
        List.head?_append_of_ne_nil _ Nat.toDigits_ne_nil]
        at zero
      have front := ih (n / 10) (by omega) zero
      have value := Nat.ofDigitChars_ten_toDigits (n := n / 10)
      rw [front] at value
      have : n / 10 = 0 := by rw [← value]; rfl
      omega

theorem natOfDigits_toDigits (n : Nat) : natOfDigits (Nat.toDigits 10 n) = n := by
  have value := Nat.ofDigitChars_ten_toDigits (n := n)
  simp only [Nat.ofDigitChars_eq_foldl, Nat.mul_comm 10] at value
  exact value

theorem unsigned?_toDigits (negative : Bool) (n : Nat) :
    unsigned? negative (Nat.toDigits 10 n) =
      some (⟨negative, Nat.toDigits 10 n, none, none⟩, []) := by
  have digits : ∀ c ∈ Nat.toDigits 10 n, c.isDigit = true := fun c member =>
    Nat.isDigit_of_mem_toDigits (by decide) (by decide) member
  have split : splitDigits (Nat.toDigits 10 n) = (Nat.toDigits 10 n, []) := by
    simp only [splitDigits, List.takeWhile_eq_self_iff.mpr digits,
      List.dropWhile_eq_nil_iff.mpr digits]
  simpa [unsigned?, split, fraction?, exponent?] using toDigits_of_head?

/-- An integer within the range of the reader is read from its decimal notation. -/
theorem literal?_int {i : Int} (low : -0x8000000000000000 ≤ i) (high : i ≤ 0xFFFFFFFFFFFFFFFF) :
    ∃ l, literal? (toString i).toList = some (l, []) ∧ l.toDatum? = some (.int i) := by
  rw [Int.toString_eq_repr, Int.repr_eq_if]
  by_cases sign : 0 ≤ i
  · have read := unsigned?_toDigits false i.toNat
    obtain ⟨c, rest, shape, digit⟩ := unsigned?_head read
    have plain : literal? (Nat.toDigits 10 i.toNat) =
        unsigned? false (Nat.toDigits 10 i.toNat) := by
      rw [shape]
      exact literal?_of_head (by rintro rfl; exact absurd digit (by decide))
    refine ⟨_, by simpa [sign, plain] using read, ?_⟩
    have fits : i.toNat ≤ maxSignificand := by unfold maxSignificand; omega
    simp [Literal.toDatum?, natOfDigits_toDigits, fits, Int.max_eq_left sign]
  · have read := unsigned?_toDigits true (-i).toNat
    refine ⟨⟨true, Nat.toDigits 10 (-i).toNat, none, none⟩,
      by simpa [sign, literal?] using read, ?_⟩
    have fits : 0 < (-i).toNat ∧ (-i).toNat ≤ 0x8000000000000000 := by omega
    have value : -(((-i).toNat : Nat) : Int) = i := by omega
    simp only [Literal.toDatum?, natOfDigits_toDigits, Option.isNone_none, if_true, fits, and_self,
      value]

def real? (s : List Char) : Option Binary32 :=
  match literal? s with
  | some (l, []) =>
    match l.toDatum? with
    | some (.real x) => some x
    | _ => none
  | _ => none

/-- The reader gets the number back from its text. -/
def Exact (x : Binary32) : Prop := real? x.dataText.toList = some x

instance (x : Binary32) : Decidable (Exact x) := inferInstanceAs (Decidable (_ = _))

theorem Exact.literal {x : Binary32} (exact : Exact x) :
    ∃ l, literal? x.dataText.toList = some (l, []) ∧ l.toDatum? = some (.real x) := by
  unfold Exact real? at exact
  split at exact
  · rename_i l read
    split at exact
    · rename_i y stands
      cases exact
      exact ⟨l, read, stands⟩
    · contradiction
  · contradiction

/-! Strings. -/

theorem hexValue?_hexDigit {d : Nat} (small : d < 16) : hexValue? (hexDigit d) = some d := by
  revert d
  decide

theorem unicodeEscape?_control (control : c.toNat < 0x20) :
    unicodeEscape? ('0' :: '0' :: hexDigit (c.toNat / 16) :: hexDigit (c.toNat % 16) :: s) =
      some (some c, s) := by
  have zero : hexValue? '0' = some 0 := by decide
  have high := hexValue?_hexDigit (d := c.toNat / 16) (by omega)
  have low := hexValue?_hexDigit (d := c.toNat % 16) (by omega)
  have unit : c.toNat / 16 * 16 + c.toNat % 16 = c.toNat := by omega
  have small : c.toNat < 0xD800 := by omega
  simp [unicodeEscape?, hex4?, zero, high, low, unit, small]

/-- What stands for a character in a string is read as the character. -/
theorem stringBody_escaped (fuel : Nat) (read : List Char) :
    stringBody (fuel + 1) (some read) (escaped c ++ s) = stringBody fuel (some (c :: read)) s := by
  unfold escaped
  split
  iterate 7 rfl
  split
  · rename_i control
    simp [stringBody, unicodeEscape?_control control]
  · -- a character that stands for itself is neither a quote nor a backslash
    rename_i visible
    rw [List.singleton_append, stringBody.eq_def]
    simp only
    split
    case h_4 =>
      rename_i front
      cases front
      have plain : c ≠ '\\' := by assumption
      rw [if_neg (not_or.mpr ⟨plain, visible⟩)]
      rfl
    all_goals simp_all

theorem stringBody_quoted (fuel : Nat) (x : String) (t : List Char)
    (enough : x.toList.length < fuel) :
    stringBody fuel (some []) (x.toList.flatMap escaped ++ '"' :: t) = some (some x, t) := by
  have general (chars read : List Char) (fuel : Nat) (enough : chars.length < fuel) :
      stringBody fuel (some read) (chars.flatMap escaped ++ '"' :: t) =
        some (some (.ofList (read.reverse ++ chars)), t) := by
    induction chars generalizing fuel read with
    | nil =>
      obtain ⟨fuel, rfl⟩ := Nat.exists_eq_add_one.mpr enough
      simp [stringBody]
    | cons c chars ih =>
      obtain ⟨fuel, rfl⟩ := Nat.exists_eq_add_one_of_ne_zero (Nat.ne_zero_of_lt enough)
      rw [List.flatMap_cons, List.append_assoc, stringBody_escaped, ih _ _ (by simpa using enough)]
      simp
  simpa using general x.toList [] fuel enough

end Dialogue.Json
