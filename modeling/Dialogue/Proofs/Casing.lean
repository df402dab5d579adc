import Dialogue.Proofs.Normal

/-!
Lower case in context. A capital sigma is the only character that looks at its neighbours, and it
sees no farther than the next character that is neither a letter nor skipped in words. So a text may
be taken apart at its spaces, and whatever is no letter may be put behind it. Where all characters
are below 128, lower case goes character by character.
-/
namespace Dialogue.Text

variable {s t before : List Char} {c : Char}

/-! What a sigma sees. -/

theorem startsCased_append (uncased : startsCased t = false) (s : List Char) :
    startsCased (s ++ t) = startsCased s := by
  induction s with
  | nil => exact uncased
  | cons c s ih =>
    unfold startsCased at ih ⊢
    by_cases skipped : isCaseIgnorable c = true
    · simpa [skipped] using ih
    · simp [skipped]

theorem startsCased_singleton (uncased : isCased c = false) : startsCased [c] = false := by
  unfold startsCased
  by_cases skipped : isCaseIgnorable c = true
  · simp [skipped]
  · simp [skipped, uncased]

theorem startsCased_space (s : List Char) : startsCased (' ' :: s) = false := by
  have stops : isCaseIgnorable ' ' = false := by decide +kernel
  have uncased : isCased ' ' = false := by decide +kernel
  simp [startsCased, stops, uncased]

theorem lowerAfter_append_of_uncased (uncased : startsCased t = false) (before s : List Char) :
    lowerAfter before (s ++ t) = lowerAfter before s ++ lowerAfter (s.reverse ++ before) t := by
  induction s generalizing before with
  | nil => rfl
  | cons c s ih =>
    simp only [List.cons_append, lowerAfter, startsCased_append uncased, ih, List.append_assoc,
      List.reverse_cons, List.nil_append]

/-- Nothing before the first space backwards counts. -/
theorem lowerAfter_of_uncased (uncased : startsCased before = false) (near s : List Char) :
    lowerAfter (near ++ before) s = lowerAfter near s := by
  induction s generalizing near with
  | nil => rfl
  | cons c s ih =>
    have rest := ih (c :: near)
    rw [List.cons_append] at rest
    simp only [lowerAfter, startsCased_append uncased, rest]

/-- Lower case goes word by word. -/
theorem lowerChars_space (s t : List Char) :
    lowerChars (s ++ ' ' :: t) = lowerChars s ++ ' ' :: lowerChars t := by
  have space : lowerChar ' ' = [' '] := by decide
  have other : ' ' ≠ 'Σ' := by decide
  have after := lowerAfter_of_uncased (startsCased_space (s.reverse ++ [])) [] t
  rw [List.nil_append] at after
  rw [lowerChars, lowerAfter_append_of_uncased (startsCased_space t)]
  simp only [lowerAfter, if_neg other, space, after, List.singleton_append, lowerChars]

/-- A character that is no letter stays as it is at the end. -/
theorem lowerChars_concat (uncased : isCased c = false) (fixed : lowerChar c = [c])
    (s : List Char) : lowerChars (s ++ [c]) = lowerChars s ++ [c] := by
  have kept : lowerAfter (s.reverse ++ []) [c] = [c] :=
    lowerAfter_of_fixed (List.forall_mem_singleton.mpr fixed)
  rw [lowerChars, lowerAfter_append_of_uncased (startsCased_singleton uncased), kept, lowerChars]

/-! Something at the end of a text. -/

/-- A trimmed text does not end with a blank. -/
theorem solid_of_getLast? (trimmed : trimChars s = s) (last : s.getLast? = some c) :
    isBlank c = false := by
  rw [← trimmed, trimChars, dropEndWhile_eq] at last
  have nonempty : (s.dropWhile isBlank).rdropWhile isBlank ≠ [] := fun empty => by
    simp [empty] at last
  have solid := List.rdropWhile_last_not isBlank _ nonempty
  rw [List.getLast?_eq_some_getLast nonempty, Option.some.injEq] at last
  simpa [last] using solid

theorem singleSpaced_concat (nonempty : s ≠ [])
    (ends : ∀ x, s.getLast? = some x → isBlank x = false) (solid : isBlank c = false) :
    singleSpaced (s ++ [c]) = singleSpaced s ++ [c] := by
  have marked {w : List Char} (whole : ∀ x ∈ w, isBlank x = false) :
      ∀ x ∈ w ++ [c], isBlank x = false :=
    List.forall_mem_append.mpr ⟨whole, List.forall_mem_singleton.mpr solid⟩
  induction s using word_induction with
  | nil => exact absurd rfl nonempty
  | blank b s blank ih =>
    cases s with
    | nil => simp [ends b rfl] at blank
    | cons x s =>
      rw [List.getLast?_cons_cons] at ends
      rw [List.cons_append, singleSpaced, words_cons_blank blank, singleSpaced,
        words_cons_blank blank]
      exact ih (List.cons_ne_nil x s) ends
  | last w _ whole =>
    rw [singleSpaced, singleSpaced, words_solid nonempty whole,
      words_solid (List.append_ne_nil_of_left_ne_nil nonempty [c]) (marked whole)]
    simp
  | word w b s full whole blank ih =>
    cases s with
    | nil => simp [ends b (by simp)] at blank
    | cons x s =>
      rw [getLast?_append_cons (List.cons_ne_nil x s)] at ends
      have last := List.getLast?_eq_some_getLast (List.cons_ne_nil x s)
      have several : words (x :: s) ≠ [] := by
        intro none
        have blanks := List.all_eq_true.mp (words_eq_nil.mp none) _ (List.mem_of_getLast? last)
        simp [ends _ last] at blanks
      have more : words (x :: s ++ [c]) ≠ [] := by
        intro none
        have blanks := List.all_eq_true.mp (words_eq_nil.mp none) c (by simp)
        simp [solid] at blanks
      have rest := ih (List.cons_ne_nil x s) ends
      rw [singleSpaced, singleSpaced] at rest
      rw [List.append_assoc, List.cons_append, singleSpaced, words_word full whole blank,
        intercalate_cons more, rest, singleSpaced, words_word full whole blank,
        intercalate_cons several]
      simp

theorem normalChars_concat (nonempty : s ≠ [])
    (ends : ∀ x, s.getLast? = some x → isBlank x = false) (solid : isBlank c = false)
    (uncased : isCased c = false) (fixed : lowerChar c = [c]) :
    normalChars (s ++ [c]) = normalChars s ++ [c] := by
  rw [normalChars, singleSpaced_concat nonempty ends solid, lowerChars_concat uncased fixed,
    normalChars]

/-- A word before a text goes before its normal form. -/
theorem normalChars_word {w : List Char} (nonempty : w ≠ []) (whole : ∀ c ∈ w, isBlank c = false)
    (more : words s ≠ []) : normalChars (w ++ ' ' :: s) = lowerChars w ++ ' ' :: normalChars s := by
  rw [normalChars, singleSpaced, words_word nonempty whole (by decide), intercalate_cons more,
    lowerChars_space]
  rfl

theorem mem_singleSpaced (member : c ∈ singleSpaced s) : c = ' ' ∨ c ∈ s := by
  induction s using word_induction with
  | nil => simp [singleSpaced] at member
  | blank b s blank ih =>
    rw [singleSpaced, words_cons_blank blank] at member
    exact (ih member).imp_right (List.mem_cons_of_mem b)
  | last w nonempty whole =>
    rw [singleSpaced, words_solid nonempty whole] at member
    exact .inr (by simpa using member)
  | word w b s nonempty whole blank ih =>
    rw [singleSpaced, words_word nonempty whole blank] at member
    by_cases alone : words s = []
    · rw [alone] at member
      have inside : c ∈ w := by simpa using member
      exact .inr (List.mem_append_left _ inside)
    · rw [intercalate_cons alone] at member
      rcases List.mem_append.mp member with inside | later
      · exact .inr (List.mem_append_left _ inside)
      · rcases List.mem_cons.mp later with space | rest
        · exact .inl space
        · exact (ih rest).imp_right fun inside =>
            List.mem_append_right _ (List.mem_cons_of_mem b inside)

theorem mem_singleSpaced_of_solid (member : c ∈ s) (solid : isBlank c = false) :
    c ∈ singleSpaced s := by
  induction s using word_induction with
  | nil => exact absurd member List.not_mem_nil
  | blank b s blank ih =>
    have later : c ∈ s := by
      refine (List.mem_cons.mp member).resolve_left ?_
      rintro rfl
      simp [solid] at blank
    rw [singleSpaced, words_cons_blank blank]
    exact ih later
  | last w nonempty whole =>
    rw [singleSpaced, words_solid nonempty whole]
    simpa using member
  | word w b s nonempty whole blank ih =>
    rw [singleSpaced, words_word nonempty whole blank]
    rcases List.mem_append.mp member with inside | later
    · cases words s <;> simp [inside]
    · have later : c ∈ s := by
        refine (List.mem_cons.mp later).resolve_left ?_
        rintro rfl
        simp [solid] at blank
      have rest := ih later
      have several : words s ≠ [] := by
        intro alone
        simp [singleSpaced, alone] at rest
      rw [intercalate_cons several]
      exact List.mem_append_right _ (List.mem_cons_of_mem _ rest)

theorem mem_lowerAfter_of_fixed (member : c ∈ s) (fixed : lowerChar c = [c]) :
    c ∈ lowerAfter before s := by
  obtain ⟨front, behind, rfl⟩ := List.append_of_mem member
  obtain ⟨image, lower, -, -⟩ := lowerAfter_append before front (c :: behind)
  have plain : c ≠ 'Σ' := by
    rintro rfl
    exact absurd fixed (by decide +kernel)
  simp [lower, lowerAfter, plain, fixed]

theorem mem_normalChars_of_fixed (member : c ∈ s) (solid : isBlank c = false)
    (fixed : lowerChar c = [c]) : c ∈ normalChars s :=
  mem_lowerAfter_of_fixed (mem_singleSpaced_of_solid member solid) fixed

/-- Each character of a normal form is a space, or one of the text that lower case leaves as it is,
or one that lower case has made. -/
theorem mem_normalChars (member : c ∈ normalChars s) : c = ' ' ∨ c ∈ s ∨ Lowered c := by
  obtain ⟨image, lower, -, each⟩ := lowerAfter_append [] (singleSpaced s) []
  have same : normalChars s = image := by simpa [normalChars, lowerChars, lowerAfter] using lower
  rcases each c (same ▸ member) with ⟨inside, -⟩ | lowered
  · exact (mem_singleSpaced inside).imp_right .inl
  · exact .inr (.inr lowered)

@[simp] theorem toList_normalize (s : String) : (normalize s).toList = normalChars s.toList :=
  String.toList_ofList

theorem normalize_ne_empty {s : String} :
    normalize s ≠ "" ↔ isBlankText s = false := by
  rw [Ne, ← String.toList_eq_nil_iff, toList_normalize, normalChars_eq_nil, Bool.not_eq_true]
  rfl

/-! Characters below 128. -/

def Ascii (s : List Char) : Prop := ∀ c ∈ s, c.toNat < 0x80

instance (s : List Char) : Decidable (Ascii s) :=
  inferInstanceAs (Decidable (∀ c ∈ s, c.toNat < 0x80))

theorem Ascii.append (hs : Ascii s) (ht : Ascii t) : Ascii (s ++ t) :=
  List.forall_mem_append.mpr ⟨hs, ht⟩

theorem lowerAfter_ascii_append (ascii : Ascii s) (before t : List Char) :
    lowerAfter before (s ++ t) = s.map Char.toLower ++ lowerAfter (s.reverse ++ before) t := by
  induction s generalizing before with
  | nil => rfl
  | cons c s ih =>
    obtain ⟨small, others⟩ := List.forall_mem_cons.mp ascii
    have plain : c ≠ 'Σ' := by
      rintro rfl
      exact absurd small (by decide)
    simp only [List.cons_append, lowerAfter, if_neg plain, lowerChar, if_pos small, ih others,
      List.map_cons, List.reverse_cons, List.append_assoc, List.nil_append]

theorem lowerChars_ascii (ascii : Ascii s) : lowerChars s = s.map Char.toLower := by
  simpa [lowerChars, lowerAfter] using lowerAfter_ascii_append ascii [] []

end Dialogue.Text
