import Mathlib.Data.List.DropRight
import Mathlib.Data.List.Infix
import Dialogue.Text.Normal
import Dialogue.Text.Integer

/-!
Laws of texts. Trimming is idempotent and keeps every character that is not blank. A text with the
normal form of a decimal number is that number between blanks, as lower case turns no other
character into a digit or a sign.
-/
namespace Dialogue.Text

variable {s t : List Char} {c : Char}

/-- What holds of all characters of a text is decided over the text, not over all characters there
are. -/
instance decidableAll {p : Char → Prop} [DecidablePred p] (s : List Char) :
    Decidable (∀ c ∈ s, p c) :=
  List.decidableBAll p s

theorem dropEndWhile_eq (p : Char → Bool) (s : List Char) :
    dropEndWhile p s = s.rdropWhile p := rfl

theorem all_dropWhile (p : Char → Bool) (s : List Char) : (s.dropWhile p).all p = s.all p := by
  induction s with
  | nil => rfl
  | cons c s ih => cases h : p c <;> simp [h, ih]

theorem all_trimChars (s : List Char) : (trimChars s).all isBlank = s.all isBlank := by
  simp only [trimChars, dropEndWhile, List.all_reverse, all_dropWhile]

/-- What stays after dropping blanks at the end still starts with no blank. -/
theorem dropWhile_rdropWhile (h : s.dropWhile isBlank = s) :
    (s.rdropWhile isBlank).dropWhile isBlank = s.rdropWhile isBlank := by
  obtain ⟨dropped, split⟩ := List.rdropWhile_prefix (p := isBlank) (l := s)
  cases kept : s.rdropWhile isBlank with
  | nil => rfl
  | cons c rest =>
    rw [kept, List.cons_append] at split
    subst split
    have solid : isBlank c = false := by
      by_contra blank
      have shorter := congrArg List.length h
      have bound := List.length_dropWhile_le isBlank (rest ++ dropped)
      simp only [List.dropWhile_cons, Bool.not_eq_false _ ▸ blank, if_true,
        List.length_cons] at shorter
      omega
    simp [solid]

theorem trimChars_trimChars (s : List Char) : trimChars (trimChars s) = trimChars s := by
  simp only [trimChars, dropEndWhile_eq]
  rw [dropWhile_rdropWhile (List.dropWhile_idempotent isBlank s), List.rdropWhile_idempotent]

@[simp] theorem trim_trim (s : String) : trim (trim s) = trim s := by
  simp [trim, trimChars_trimChars]

@[simp] theorem isBlankText_trim (s : String) : isBlankText (trim s) = isBlankText s := by
  simp [trim, isBlankText, all_trimChars]

theorem occursIn_iff {part whole : List Char} : occursIn part whole = true ↔ part <:+: whole := by
  induction whole with
  | nil => simp [occursIn]
  | cons c rest ih =>
    rw [occursIn, Bool.or_eq_true, ih, List.isPrefixOf_iff_prefix, List.infix_cons_iff]

/-! Words. -/

theorem words_append_blank (h : isBlank c = true) (s t : List Char) :
    words (s ++ c :: t) = words s ++ words t := by
  rw [words, List.splitOnP_append_cons s t h, List.filter_append]
  rfl

@[simp] theorem words_nil : words [] = [] := by simp [words, List.splitOnP_nil]

theorem words_cons_blank (h : isBlank c = true) (s : List Char) : words (c :: s) = words s := by
  simpa using words_append_blank h [] s

theorem words_solid (nonempty : s ≠ []) (solid : ∀ c ∈ s, isBlank c = false) : words s = [s] := by
  simp [words, List.splitOnP_eq_singleton solid, nonempty]

theorem words_cons_ne_nil (h : isBlank c = false) (s : List Char) : words (c :: s) ≠ [] := by
  obtain ⟨first, rest, split⟩ := List.exists_cons_of_ne_nil (List.splitOnP_ne_nil isBlank s)
  simp [words, List.splitOnP_cons_eq_if_modifyHead, h, split]

theorem words_eq_nil : words s = [] ↔ s.all isBlank = true := by
  induction s with
  | nil => simp
  | cons c s ih =>
    cases h : isBlank c with
    | false => simp [words_cons_ne_nil h, h]
    | true => simp [words_cons_blank h, h, ih]

theorem trimChars_word (solid : ∀ c ∈ s, isBlank c = false) (blank : t.all isBlank = true) :
    trimChars (s ++ t) = s := by
  have fromRight : (s ++ t).rdropWhile isBlank = s := by
    rw [List.rdropWhile, List.reverse_append, List.dropWhile_append_of_pos (by simpa using blank)]
    have kept : s.reverse.dropWhile isBlank = s.reverse := by
      cases r : s.reverse with
      | nil => rfl
      | cons c rest =>
        have := solid c (List.mem_reverse.mp (r ▸ List.mem_cons_self))
        simp [this]
    rw [kept, List.reverse_reverse]
  cases s with
  | nil =>
    have dropped : t.dropWhile isBlank = [] := List.dropWhile_eq_nil_iff.mpr (by simpa using blank)
    simp [trimChars, dropEndWhile, dropped]
  | cons c rest =>
    have first : ((c :: rest) ++ t).dropWhile isBlank = (c :: rest) ++ t := by
      simp [solid c List.mem_cons_self]
    rw [trimChars, first, dropEndWhile_eq, fromRight]

theorem trimChars_eq_nil : trimChars s = [] ↔ s.all isBlank = true := by
  constructor
  · intro h
    rw [← all_trimChars, h]
    rfl
  · intro h
    simpa using trimChars_word (s := []) (by simp) h

/-- A text that starts with no blank is a word and what follows it. -/
theorem exists_first_word (h : isBlank c = false) (s : List Char) :
    ∃ word rest, c :: s = word ++ rest ∧ word ≠ [] ∧ (∀ x ∈ word, isBlank x = false) ∧
      ∀ x, rest.head? = some x → isBlank x = true := by
  refine ⟨(c :: s).takeWhile (!isBlank ·), (c :: s).dropWhile (!isBlank ·),
    List.takeWhile_append_dropWhile.symm, by simp [h], fun x hx => ?_, fun x hx => ?_⟩
  · simpa using List.mem_takeWhile_imp hx
  · have last := List.head?_dropWhile_not (fun x => !isBlank x) (c :: s)
    rw [hx] at last
    simpa using last

/-- Single spacing of a text with blanks inside has a space. -/
theorem trimChars_of_singleSpaced (solid : ∀ c ∈ singleSpaced s, isBlank c = false) :
    trimChars s = singleSpaced s := by
  induction s with
  | nil => simp [trimChars, dropEndWhile, singleSpaced]
  | cons c s ih =>
    cases h : isBlank c with
    | true =>
      have same : singleSpaced (c :: s) = singleSpaced s := by
        rw [singleSpaced, words_cons_blank h, singleSpaced]
      rw [same] at solid ⊢
      simpa [trimChars, h] using ih solid
    | false =>
      obtain ⟨word, rest, split, nonempty, whole, ends⟩ := exists_first_word h s
      rw [split] at solid ⊢
      cases rest with
      | nil =>
        rw [trimChars_word whole rfl, singleSpaced, List.append_nil, words_solid nonempty whole]
        simp
      | cons b rest =>
        have blank := ends b rfl
        have pieces : words (word ++ b :: rest) = word :: words rest := by
          rw [words_append_blank blank, words_solid nonempty whole, List.singleton_append]
        cases others : words rest with
        | nil =>
          have tail : (b :: rest).all isBlank = true := by
            simpa [blank] using words_eq_nil.mp others
          rw [trimChars_word whole tail, singleSpaced, pieces, others]
          simp
        | cons next more =>
          have space : ' ' ∈ singleSpaced (word ++ b :: rest) := by
            simp [singleSpaced, pieces, others, List.intercalate]
          exact absurd (solid ' ' space) (by decide)

/-! Lower case. -/

def isNumeral (c : Char) : Bool := 0x2D ≤ c.toNat && c.toNat ≤ 0x39

theorem mapByRuns_lowerRuns_above {code : Nat} (h : 0x80 ≤ code) :
    0x39 < mapByRuns lowerRuns code := by
  have above : ∀ r ∈ lowerRuns, 0x39 < (r.1 : Int) + r.2.2.2 := by decide +kernel
  unfold mapByRuns
  split
  · rename_i first last step shift found
    have bound := above _ (List.mem_of_find?_eq_some found)
    have within := List.find?_some found
    simp only [Bool.and_eq_true, decide_eq_true_eq] at within bound
    omega
  · omega

theorem isNumeral_iff : isNumeral c = true ↔ 0x2D ≤ c.toNat ∧ c.toNat ≤ 0x39 := by
  simp [isNumeral]

theorem toNat_ofNat_of_valid {n : Nat} (valid : n.isValidChar) : (Char.ofNat n).toNat = n := by
  rw [Char.ofNat, dif_pos valid]
  rfl

theorem toNat_ofNat_cases (n : Nat) : (Char.ofNat n).toNat = n ∨ (Char.ofNat n).toNat = 0 := by
  by_cases valid : n.isValidChar
  · exact .inl (toNat_ofNat_of_valid valid)
  · rw [Char.ofNat, dif_neg valid]
    exact .inr rfl

theorem toLower_cases (c : Char) :
    c.toLower = c ∨
      (0x41 ≤ c.toNat ∧ c.toNat ≤ 0x5A) ∧ c.toLower.toNat = c.toNat + 32 := by
  unfold Char.toLower
  split
  · rename_i capital
    have low : 0x41 ≤ c.val.toNat := UInt32.le_iff_toNat_le.mp capital.1
    have high : c.val.toNat ≤ 0x5A := UInt32.le_iff_toNat_le.mp capital.2
    have shifted : (c.val + 32).toNat = (c.val.toNat + 32) % 2 ^ 32 := UInt32.toNat_add ..
    refine .inr ⟨⟨low, high⟩, ?_⟩
    change (c.val + 32).toNat = c.val.toNat + 32
    omega
  · exact .inl rfl

theorem toLower_of_isNumeral (h : isNumeral c = true) : c.toLower = c := by
  have := isNumeral_iff.mp h
  rcases toLower_cases c with same | ⟨capital, _⟩
  · exact same
  · omega

theorem isNumeral_of_toLower (h : isNumeral c.toLower = true) : isNumeral c = true := by
  rcases toLower_cases c with same | ⟨capital, image⟩
  · rwa [same] at h
  · rw [isNumeral_iff, image] at h
    omega

theorem lowerChar_of_isNumeral (h : isNumeral c = true) : lowerChar c = [c] := by
  have small : c.toNat < 0x80 := by
    have := isNumeral_iff.mp h
    omega
  rw [lowerChar, if_pos small, toLower_of_isNumeral h]

theorem isNumeral_of_lowerChar (h : ∀ x ∈ lowerChar c, isNumeral x = true) :
    isNumeral c = true := by
  unfold lowerChar at h
  split at h
  · exact isNumeral_of_toLower (h _ (List.mem_singleton.mpr rfl))
  · rename_i large
    split at h
    · exact absurd (h 'i' List.mem_cons_self) (by decide)
    · have image := h _ (List.mem_singleton.mpr rfl)
      have above := mapByRuns_lowerRuns_above (Nat.not_lt.mp large)
      rw [isNumeral_iff] at image
      rcases toNat_ofNat_cases (mapByRuns lowerRuns c.toNat) with same | zero <;> omega

/-- Lower case turns nothing but numerals into numerals. -/
theorem isNumeral_of_lowerAfter {before : List Char}
    (h : ∀ x ∈ lowerAfter before s, isNumeral x = true) : ∀ x ∈ s, isNumeral x = true := by
  induction s generalizing before with
  | nil => simp
  | cons c s ih =>
    simp only [lowerAfter, List.mem_append] at h
    have first : isNumeral c = true := by
      by_cases sigma : c = 'Σ'
      · simp only [sigma, if_true] at h
        split at h
        · exact absurd (h 'ς' (.inl List.mem_cons_self)) (by decide)
        · exact absurd (h 'σ' (.inl List.mem_cons_self)) (by decide)
      · simp only [sigma, if_false] at h
        exact isNumeral_of_lowerChar fun x hx => h x (.inl hx)
    have rest := ih fun x hx => h x (.inr hx)
    exact List.forall_mem_cons.mpr ⟨first, rest⟩

theorem lowerAfter_of_isNumeral (before : List Char) (h : ∀ x ∈ s, isNumeral x = true) :
    lowerAfter before s = s := by
  induction s generalizing before with
  | nil => rfl
  | cons c s ih =>
    obtain ⟨first, rest⟩ := List.forall_mem_cons.mp h
    have plain : c ≠ 'Σ' := by
      rintro rfl
      exact absurd first (by decide)
    simp [lowerAfter, plain, lowerChar_of_isNumeral first, ih _ rest]

theorem isBlank_of_isNumeral (h : isNumeral c = true) : isBlank c = false := by
  have apart : ∀ r ∈ blankRanges, r.2 < 0x2D ∨ 0x39 < r.1 := by decide
  have := isNumeral_iff.mp h
  simp only [isBlank, inRanges, List.any_eq_false, Bool.and_eq_true, decide_eq_true_eq]
  intro r hr
  have := apart r hr
  omega

theorem singleSpaced_of_isNumeral (h : ∀ x ∈ s, isNumeral x = true) : singleSpaced s = s := by
  cases s with
  | nil => simp [singleSpaced]
  | cons c rest =>
    have solid := fun x hx => isBlank_of_isNumeral (h x hx)
    simp [singleSpaced, words_solid (List.cons_ne_nil c rest) solid]

/-- A text with the normal form of a numeral is that numeral between blanks. -/
theorem trimChars_of_normalChars (h : ∀ x ∈ t, isNumeral x = true)
    (same : normalChars s = normalChars t) : trimChars s = t := by
  have normal : normalChars t = t := by
    rw [normalChars, singleSpaced_of_isNumeral h, lowerChars, lowerAfter_of_isNumeral _ h]
  rw [normal] at same
  have spaced : ∀ x ∈ singleSpaced s, isNumeral x = true := by
    refine @isNumeral_of_lowerAfter _ [] fun x hx => h x ?_
    rw [← same]
    exact hx
  rw [trimChars_of_singleSpaced fun x hx => isBlank_of_isNumeral (spaced x hx), ← same,
    normalChars, lowerChars, lowerAfter_of_isNumeral _ spaced]

/-! Blank texts. -/

theorem lowerAfter_eq_nil {before : List Char} : lowerAfter before s = [] ↔ s = [] := by
  cases s with
  | nil => simp [lowerAfter]
  | cons c s =>
    have image : lowerChar c ≠ [] := by unfold lowerChar; split <;> [skip; split] <;> simp
    by_cases sigma : c = 'Σ'
    · simp only [lowerAfter, sigma, if_true]
      split <;> simp
    · simp [lowerAfter, sigma, image]

theorem normalChars_eq_nil : normalChars s = [] ↔ s.all isBlank = true := by
  rw [normalChars, lowerChars, lowerAfter_eq_nil, ← words_eq_nil]
  constructor
  · intro h
    cases split : words s with
    | nil => rfl
    | cons word rest =>
      have nonempty : word ≠ [] := by
        have member : word ∈ words s := split ▸ List.mem_cons_self
        simpa using List.of_mem_filter member
      cases rest <;> simp [singleSpaced, split, nonempty, List.intercalate] at h
  · intro h
    simp [singleSpaced, h]

/-- Blank texts are those whose normal form is empty. -/
theorem isBlankText_congr {s t : String} (same : normalize s = normalize t) :
    isBlankText s = isBlankText t := by
  have same : normalChars s.toList = normalChars t.toList := by
    simpa [normalize] using congrArg String.toList same
  rw [isBlankText, isBlankText, Bool.eq_iff_iff, ← normalChars_eq_nil, same, normalChars_eq_nil]

/-! Integers as texts. -/

theorem isNumeral_of_isDigit (h : c.isDigit = true) : isNumeral c = true := by
  simp only [Char.isDigit, Bool.and_eq_true, decide_eq_true_eq] at h
  have low : 0x30 ≤ c.val.toNat := UInt32.le_iff_toNat_le.mp h.1
  have high : c.val.toNat ≤ 0x39 := UInt32.le_iff_toNat_le.mp h.2
  exact isNumeral_iff.mpr ⟨by change 0x2D ≤ c.val.toNat; omega, high⟩

theorem digits?_toDigits (n : Nat) : digits? (Nat.toDigits 10 n) = some n := by
  have digits : (Nat.toDigits 10 n).all Char.isDigit = true :=
    List.all_eq_true.mpr fun c hc => Nat.isDigit_of_mem_toDigits (by decide) (by decide) hc
  have value := Nat.ofDigitChars_ten_toDigits (n := n)
  simp only [Nat.ofDigitChars_eq_foldl, Nat.mul_comm 10] at value
  rw [digits?, if_pos ⟨Nat.toDigits_ne_nil, digits⟩, value]

/-- The text of an integer is a sign, if it is negative, and digits. -/
theorem toList_ofInt64 (n : Int64) :
    (0 ≤ n.toInt ∧ (ofInt64 n).toList = Nat.toDigits 10 n.toInt.toNat) ∨
      (n.toInt < 0 ∧ (ofInt64 n).toList = '-' :: Nat.toDigits 10 (-n.toInt).toNat) := by
  rw [ofInt64, Int.toString_eq_repr, Int.repr_eq_if]
  by_cases h : 0 ≤ n.toInt
  · exact .inl ⟨h, by simp [h]⟩
  · exact .inr ⟨by omega, by simp [h]⟩

theorem isNumeral_of_mem_ofInt64 {n : Int64} (h : c ∈ (ofInt64 n).toList) : isNumeral c = true := by
  have digit {m : Nat} (hc : c ∈ Nat.toDigits 10 m) : isNumeral c = true :=
    isNumeral_of_isDigit (Nat.isDigit_of_mem_toDigits (by decide) (by decide) hc)
  rcases toList_ofInt64 n with ⟨_, text⟩ | ⟨_, text⟩ <;> rw [text] at h
  · exact digit h
  · rcases List.mem_cons.mp h with rfl | h
    · decide
    · exact digit h

theorem trimChars_ofInt64 (n : Int64) : trimChars (ofInt64 n).toList = (ofInt64 n).toList := by
  have solid : ∀ c ∈ (ofInt64 n).toList, isBlank c = false :=
    fun c hc => isBlank_of_isNumeral (isNumeral_of_mem_ofInt64 hc)
  simpa using trimChars_word (t := []) solid rfl

theorem isBlankText_ofInt64 (n : Int64) : isBlankText (ofInt64 n) = false := by
  rw [isBlankText, ← Bool.not_eq_true, ← trimChars_eq_nil, trimChars_ofInt64]
  rcases toList_ofInt64 n with ⟨_, text⟩ | ⟨_, text⟩ <;> rw [text]
  · exact Nat.toDigits_ne_nil
  · simp

/-- Digits without a sign are read as they are. -/
theorem int64?_of_digit (h : c.isDigit = true) (s : List Char) :
    int64? (c :: s) = (digits? (c :: s)).bind fun n =>
      if Int64.minValue.toInt ≤ (n : Int) ∧ (n : Int) ≤ Int64.maxValue.toInt
      then some (.ofInt n) else none := by
  have minus : c ≠ '-' := by rintro rfl; exact absurd h (by decide)
  have plus : c ≠ '+' := by rintro rfl; exact absurd h (by decide)
  unfold int64?
  split
  · simp_all
  · simp_all
  · cases digits? (c :: s) <;> rfl

/-- An integer is read back from its text. -/
theorem int64?_ofInt64 (n : Int64) : int64? (ofInt64 n).toList = some n := by
  have fits : Int64.minValue.toInt ≤ n.toInt ∧ n.toInt ≤ Int64.maxValue.toInt :=
    ⟨n.minValue_le_toInt, n.toInt_le⟩
  rcases toList_ofInt64 n with ⟨sign, text⟩ | ⟨sign, text⟩ <;> rw [text]
  · obtain ⟨c, rest, shape⟩ : ∃ c rest, Nat.toDigits 10 n.toInt.toNat = c :: rest :=
      List.exists_cons_of_ne_nil Nat.toDigits_ne_nil
    have digit : c.isDigit = true :=
      Nat.isDigit_of_mem_toDigits (by decide) (by decide) (shape ▸ List.mem_cons_self)
    rw [shape, int64?_of_digit digit, ← shape, digits?_toDigits]
    rw [Option.bind_some, Int.toNat_of_nonneg sign, if_pos fits, Int64.ofInt_toInt]
  · have value : -(((-n.toInt).toNat : Nat) : Int) = n.toInt := by omega
    simp only [int64?, digits?_toDigits, Option.pure_def, Option.map_some, Option.bind_eq_bind,
      Option.bind_some]
    rw [value, if_pos fits, Int64.ofInt_toInt]

end Dialogue.Text
