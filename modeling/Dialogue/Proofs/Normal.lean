import Dialogue.Proofs.Text

/-!
Normal forms are normal. Single spacing leaves a text that it has made as it is, and so does lower
case, which moreover makes neither blanks nor punctuation out of anything else. So a text and its
normal form have the same normal form, and both end alike.
-/
namespace Dialogue.Text

variable {s t : List Char} {c : Char} {w : List Char} {ws : List (List Char)} {before : List Char}

/-! Single spacing. -/

/-- Words between blanks: none is empty, and none has a blank in it. -/
def Solid (ws : List (List Char)) : Prop := ∀ w ∈ ws, w ≠ [] ∧ ∀ c ∈ w, isBlank c = false

/-- Induction along the words of a text. -/
@[elab_as_elim]
theorem word_induction {motive : List Char → Prop} (nil : motive [])
    (blank : ∀ c s, isBlank c = true → motive s → motive (c :: s))
    (last : ∀ w, w ≠ [] → (∀ c ∈ w, isBlank c = false) → motive w)
    (word : ∀ w b s, w ≠ [] → (∀ c ∈ w, isBlank c = false) → isBlank b = true → motive s →
      motive (w ++ b :: s)) (s : List Char) : motive s := by
  induction length : s.length using Nat.strong_induction_on generalizing s with
  | _ n ih =>
    subst length
    cases s with
    | nil => exact nil
    | cons c s =>
      cases h : isBlank c with
      | true => exact blank c s h (ih _ (by simp) s rfl)
      | false =>
        obtain ⟨w, rest, split, nonempty, whole, ends⟩ := exists_first_word h s
        rw [split] at ih ⊢
        cases rest with
        | nil => simpa using last w nonempty whole
        | cons b rest =>
          exact word w b rest nonempty whole (ends b rfl) (ih _ (by simp; omega) rest rfl)

theorem words_word (nonempty : w ≠ []) (whole : ∀ c ∈ w, isBlank c = false)
    (blank : isBlank c = true) (s : List Char) : words (w ++ c :: s) = w :: words s := by
  rw [words_append_blank blank, words_solid nonempty whole, List.singleton_append]

theorem solid_words (s : List Char) : Solid (words s) := by
  induction s using word_induction with
  | nil => simp [Solid]
  | blank c s h ih => rwa [words_cons_blank h]
  | last w nonempty whole =>
    rw [words_solid nonempty whole]
    exact List.forall_mem_singleton.mpr ⟨nonempty, whole⟩
  | word w b s nonempty whole blank ih =>
    rw [words_word nonempty whole blank]
    exact List.forall_mem_cons.mpr ⟨⟨nonempty, whole⟩, ih⟩

theorem intercalate_cons (nonempty : ws ≠ []) (w : List Char) :
    [' '].intercalate (w :: ws) = w ++ ' ' :: [' '].intercalate ws := by
  obtain ⟨next, rest, rfl⟩ := List.exists_cons_of_ne_nil nonempty
  simp [List.intercalate]

theorem words_intercalate (h : Solid ws) : words ([' '].intercalate ws) = ws := by
  induction ws with
  | nil => simp [List.intercalate]
  | cons w rest ih =>
    obtain ⟨⟨nonempty, whole⟩, others⟩ := List.forall_mem_cons.mp h
    cases rest with
    | nil => simpa [List.intercalate] using words_solid nonempty whole
    | cons next more =>
      rw [intercalate_cons (List.cons_ne_nil next more), words_word nonempty whole (by decide),
        ih others]

theorem singleSpaced_singleSpaced (s : List Char) :
    singleSpaced (singleSpaced s) = singleSpaced s := by
  rw [singleSpaced, singleSpaced, words_intercalate (solid_words s)]

/-- A text is split at single spaces into its words. -/
theorem splitOn_singleSpaced (nonempty : words s ≠ []) :
    (singleSpaced s).splitOn ' ' = words s := by
  refine List.splitOn_intercalate ' ' (fun w member space => ?_) nonempty
  have solid := (solid_words s w member).2 ' ' space
  exact absurd solid (by decide)

theorem trimChars_eq_self (first : ∀ c, s.head? = some c → isBlank c = false)
    (last : ∀ c, s.getLast? = some c → isBlank c = false) : trimChars s = s := by
  have front : s.dropWhile isBlank = s := by
    cases s with
    | nil => rfl
    | cons c rest => simp [first c rfl]
  rw [trimChars, front, dropEndWhile_eq, List.rdropWhile_eq_self_iff]
  intro nonempty
  simp [last _ (List.getLast?_eq_some_getLast nonempty)]

theorem head?_intercalate (h : Solid ws) :
    ∀ c, ([' '].intercalate ws).head? = some c → isBlank c = false := by
  intro c first
  cases ws with
  | nil => simp [List.intercalate] at first
  | cons w rest =>
    obtain ⟨⟨nonempty, whole⟩, -⟩ := List.forall_mem_cons.mp h
    obtain ⟨x, more, rfl⟩ := List.exists_cons_of_ne_nil nonempty
    have same : x = c := by cases rest <;> simpa [List.intercalate] using first
    exact whole c (same ▸ List.mem_cons_self)

theorem intercalate_ne_nil (h : Solid ws) (nonempty : ws ≠ []) : [' '].intercalate ws ≠ [] := by
  intro empty
  have none := words_intercalate h
  rw [empty, words_nil] at none
  exact nonempty none.symm

theorem getLast?_append_cons (nonempty : t ≠ []) : (w ++ c :: t).getLast? = t.getLast? := by
  rw [List.getLast?_append_of_ne_nil _ (List.cons_ne_nil c t),
    List.getLast?_cons_of_ne_nil nonempty]

theorem getLast?_intercalate (h : Solid ws) :
    ∀ c, ([' '].intercalate ws).getLast? = some c → isBlank c = false := by
  induction ws with
  | nil => simp [List.intercalate]
  | cons w rest ih =>
    obtain ⟨⟨_, whole⟩, others⟩ := List.forall_mem_cons.mp h
    intro c last
    cases rest with
    | nil =>
      have last : w.getLast? = some c := by simpa [List.intercalate] using last
      exact whole c (List.mem_of_getLast? last)
    | cons next more =>
      have nonempty := intercalate_ne_nil others (List.cons_ne_nil next more)
      rw [intercalate_cons (List.cons_ne_nil next more), getLast?_append_cons nonempty] at last
      exact ih others c last

theorem trimChars_intercalate (h : Solid ws) :
    trimChars ([' '].intercalate ws) = [' '].intercalate ws :=
  trimChars_eq_self (head?_intercalate h) (getLast?_intercalate h)

/-- Single spacing keeps the end of a text that does not end with a blank. -/
theorem getLast?_singleSpaced (h : ∀ c, s.getLast? = some c → isBlank c = false) :
    (singleSpaced s).getLast? = s.getLast? := by
  induction s using word_induction with
  | nil => simp [singleSpaced, List.intercalate]
  | blank c s blank ih =>
    cases s with
    | nil => simp [h c rfl] at blank
    | cons x s =>
      rw [List.getLast?_cons_cons] at h ⊢
      rw [← ih h, singleSpaced, words_cons_blank blank, singleSpaced]
  | last w nonempty whole => simp [singleSpaced, words_solid nonempty whole, List.intercalate]
  | word w b s nonempty whole blank ih =>
    cases s with
    | nil => simp [h b (by simp)] at blank
    | cons x s =>
      rw [getLast?_append_cons (List.cons_ne_nil x s)] at h ⊢
      have others : words (x :: s) ≠ [] := fun none => by
        have ends := List.getLast?_eq_some_getLast (List.cons_ne_nil x s)
        have blank := List.all_eq_true.mp (words_eq_nil.mp none) _ (List.mem_of_getLast? ends)
        simp [h _ ends] at blank
      rw [singleSpaced, words_word nonempty whole blank, intercalate_cons others,
        getLast?_append_cons (intercalate_ne_nil (solid_words _) others)]
      exact ih h

/-! Lower case. -/

/-- A character that lower case makes of another. It is no blank and no punctuation, and lower case
leaves it as it is. -/
structure Lowered (c : Char) : Prop where
  above : 0x60 < c.toNat
  solid : isBlank c = false
  fixed : lowerChar c = [c]

theorem isBlank_eq_false : isBlank c = false ↔
    ∀ b ∈ blankRanges, c.toNat < b.1 ∨ b.2 < c.toNat := by
  simp only [isBlank, inRanges, List.any_eq_false, Bool.and_eq_true, decide_eq_true_eq]
  exact forall₂_congr fun b _ => by omega

theorem lowerChar_of_ascii (small : c.toNat < 0x80) (plain : ¬(0x41 ≤ c.toNat ∧ c.toNat ≤ 0x5A)) :
    lowerChar c = [c] := by
  have same : c.toLower = c := by
    unfold Char.toLower
    split
    · rename_i capital
      exact (plain ⟨UInt32.le_iff_toNat_le.mp capital.1, UInt32.le_iff_toNat_le.mp capital.2⟩).elim
    · rfl
  rw [lowerChar, if_pos small, same]

theorem lowered_of_ascii (above : 0x60 < c.toNat) (small : c.toNat < 0x80) : Lowered c := by
  have apart : ∀ b ∈ blankRanges, b.2 ≤ 0x60 ∨ 0x80 ≤ b.1 := by decide
  refine ⟨above, isBlank_eq_false.mpr fun b member => ?_, lowerChar_of_ascii small (by omega)⟩
  have := apart b member
  omega

/-- Runs move every code point or every second one, to code points of letters that are neither
blanks nor the dotted capital I. -/
theorem lowerRuns_shape : ∀ r ∈ lowerRuns,
    (r.2.2.1 = 1 ∨ r.2.2.1 = 2) ∧ 0x60 < (r.1 : Int) + r.2.2.2 ∧
      ((r.2.1 : Int) + r.2.2.2 < 0xD800 ∨
        0xDFFF < (r.1 : Int) + r.2.2.2 ∧ (r.2.1 : Int) + r.2.2.2 < 0x110000) ∧
      ((r.2.1 : Int) + r.2.2.2 < 0x130 ∨ 0x130 < (r.1 : Int) + r.2.2.2 ∨
        r.2.2.1 = 2 ∧ ((r.1 : Int) + r.2.2.2) % 2 = 1) ∧
      ∀ b ∈ blankRanges, (r.2.1 : Int) + r.2.2.2 < b.1 ∨ b.2 < (r.1 : Int) + r.2.2.2 := by
  decide +kernel

/-- The image of a run lies apart from all runs. Where it overlaps one, the two take turns, as one
holds the even and the other the odd code points. -/
theorem lowerRuns_apart : (lowerRuns.all fun r => lowerRuns.all fun t =>
    (r.2.1 + r.2.2.2).toNat.blt t.1 || t.2.1.blt (r.1 + r.2.2.2).toNat ||
      ((r.2.2.1 == 2 || r.1 == r.2.1) && t.2.2.1 == 2 &&
        ((r.1 + r.2.2.2).toNat + t.1) % 2 == 1)) = true := by
  decide +kernel

section

variable {code first last step image : Nat} {shift : Int}
  (run : (first, last, step, shift) ∈ lowerRuns) (low : first ≤ code) (high : code ≤ last)
  (hits : (code - first) % step = 0)
include run low high hits

/-- What a run makes of a code point is moved no further. -/
theorem mapByRuns_image (value : (image : Int) = code + shift) :
    mapByRuns lowerRuns image = image := by
  have apart := lowerRuns_apart
  simp only [List.all_eq_true, Bool.or_eq_true, Bool.and_eq_true, beq_iff_eq, Nat.blt_eq] at apart
  obtain ⟨steps, above, -⟩ := lowerRuns_shape _ run
  unfold mapByRuns
  split
  · rename_i other end' step' shift' found
    have within := List.find?_some found
    have clear := apart _ run _ (List.mem_of_find?_eq_some found)
    simp only [Bool.and_eq_true, decide_eq_true_eq, beq_iff_eq] at within
    dsimp only at clear steps above
    obtain ⟨⟨from', to'⟩, hits'⟩ := within
    rcases clear with (before | after) | ⟨⟨sparse, rfl⟩, odd⟩
    · omega
    · omega
    · rcases sparse with rfl | rfl <;> omega
  · rfl

theorem lowered_of_run : Lowered (.ofNat (code + shift).toNat) := by
  obtain ⟨steps, above, valid, dotless, solid⟩ := lowerRuns_shape _ run
  dsimp only at steps above valid dotless solid
  obtain ⟨image, value⟩ : ∃ image : Nat, (image : Int) = code + shift :=
    ⟨(code + shift).toNat, by omega⟩
  have unmoved := mapByRuns_image run low high hits value
  rw [← value, Int.toNat_natCast]
  have number : (Char.ofNat image).toNat = image :=
    toNat_ofNat_of_valid (valid.imp (by omega) (by omega))
  refine ⟨by rw [number]; omega, isBlank_eq_false.mpr fun b member => ?_, ?_⟩
  · have := solid b member
    rw [number]
    omega
  · by_cases small : image < 0x80
    · exact lowerChar_of_ascii (by rwa [number]) (by rw [number]; omega)
    · have dotted : Char.ofNat image ≠ 'İ' := fun same => by
        have code : image = 0x130 := number.symm.trans (congrArg Char.toNat same)
        rcases dotless with before | after | ⟨rfl, odd⟩ <;> omega
      rw [lowerChar, number, if_neg small, if_neg dotted, unmoved]

end

/-- What lower case makes of a character: itself, or characters that stay as they are. -/
def Lowers (c : Char) (image : List Char) : Prop :=
  image = [c] ∧ lowerChar c = [c] ∨ image ≠ [] ∧ ∀ x ∈ image, Lowered x

theorem lowers_lowerChar (c : Char) : Lowers c (lowerChar c) := by
  by_cases same : lowerChar c = [c]
  · exact .inl ⟨same, same⟩
  · refine .inr ?_
    by_cases small : c.toNat < 0x80
    · have capital : 0x41 ≤ c.toNat ∧ c.toNat ≤ 0x5A := by
        by_contra plain
        exact same (lowerChar_of_ascii small plain)
      rw [lowerChar, if_pos small] at same ⊢
      rcases toLower_cases c with stays | ⟨-, image⟩
      · exact (same (congrArg (fun x => [x]) stays)).elim
      · exact ⟨List.cons_ne_nil _ _, List.forall_mem_singleton.mpr
          (lowered_of_ascii (by omega) (by omega))⟩
    · by_cases dotted : c = 'İ'
      · have dot : Lowered '\u0307' := ⟨by decide, by decide +kernel, by decide +kernel⟩
        subst dotted
        exact ⟨by decide +kernel, fun x member => by
          have image : lowerChar 'İ' = ['i', '\u0307'] := by decide +kernel
          rw [image] at member
          rcases List.mem_pair.mp member with rfl | rfl
          · exact lowered_of_ascii (by decide) (by decide)
          · exact dot⟩
      · rw [lowerChar, if_neg small, if_neg dotted] at same ⊢
        refine ⟨List.cons_ne_nil _ _, List.forall_mem_singleton.mpr ?_⟩
        unfold mapByRuns at same ⊢
        split at same
        · rename_i first last step shift found
          have within := List.find?_some found
          simp only [Bool.and_eq_true, decide_eq_true_eq, beq_iff_eq] at within
          simpa [found] using
            lowered_of_run (List.mem_of_find?_eq_some found) within.1.1 within.1.2 within.2
        · exact (same (by simp)).elim

theorem lowerAfter_cons (before : List Char) (c : Char) (s : List Char) : ∃ image,
    lowerAfter before (c :: s) = image ++ lowerAfter (c :: before) s ∧ Lowers c image := by
  refine ⟨_, rfl, ?_⟩
  by_cases sigma : c = 'Σ'
  · have final : Lowered 'ς' := ⟨by decide, by decide +kernel, by decide +kernel⟩
    have medial : Lowered 'σ' := ⟨by decide, by decide +kernel, by decide +kernel⟩
    simp only [sigma, if_true]
    split
    · exact .inr ⟨List.cons_ne_nil _ _, List.forall_mem_singleton.mpr final⟩
    · exact .inr ⟨List.cons_ne_nil _ _, List.forall_mem_singleton.mpr medial⟩
  · simpa only [sigma, if_false] using lowers_lowerChar c

/-- Lower case goes through the parts of a text one after the other. -/
theorem lowerAfter_append (before s t : List Char) : ∃ image,
    lowerAfter before (s ++ t) = image ++ lowerAfter (s.reverse ++ before) t ∧
      (s ≠ [] → image ≠ []) ∧ ∀ x ∈ image, x ∈ s ∧ lowerChar x = [x] ∨ Lowered x := by
  induction s generalizing before with
  | nil => exact ⟨[], rfl, by simp, by simp⟩
  | cons c s ih =>
    obtain ⟨head, first, lowers⟩ := lowerAfter_cons before c (s ++ t)
    obtain ⟨image, rest, -, each⟩ := ih (c :: before)
    refine ⟨head ++ image, by simp [first, rest], ?_, List.forall_mem_append.mpr ⟨?_, ?_⟩⟩
    · rcases lowers with ⟨rfl, -⟩ | ⟨nonempty, -⟩ <;> simp [*]
    · rcases lowers with ⟨rfl, fixed⟩ | ⟨-, lowered⟩
      · exact List.forall_mem_singleton.mpr (.inl ⟨List.mem_cons_self, fixed⟩)
      · exact fun x member => .inr (lowered x member)
    · exact fun x member => (each x member).imp_left (And.imp_left (List.mem_cons_of_mem c))

/-- Lower case of words between single spaces are words between single spaces. -/
theorem lowerAfter_intercalate (h : Solid ws) (before : List Char) : ∃ images, Solid images ∧
    lowerAfter before ([' '].intercalate ws) = [' '].intercalate images ∧
      images.length = ws.length := by
  have word {w image : List Char} (nonempty : image ≠ []) (whole : ∀ c ∈ w, isBlank c = false)
      (each : ∀ x ∈ image, x ∈ w ∧ lowerChar x = [x] ∨ Lowered x) :
      image ≠ [] ∧ ∀ x ∈ image, isBlank x = false :=
    ⟨nonempty, fun x member => (each x member).elim (fun own => whole x own.1) (·.solid)⟩
  induction ws generalizing before with
  | nil => exact ⟨[], by simp [Solid], by simp [List.intercalate, lowerAfter], rfl⟩
  | cons w rest ih =>
    obtain ⟨⟨nonempty, whole⟩, others⟩ := List.forall_mem_cons.mp h
    cases rest with
    | nil =>
      obtain ⟨image, lower, kept, each⟩ := lowerAfter_append before w []
      refine ⟨[image], List.forall_mem_singleton.mpr (word (kept nonempty) whole each), ?_, rfl⟩
      simpa [List.intercalate, lowerAfter] using lower
    | cons next more =>
      obtain ⟨image, lower, kept, each⟩ :=
        lowerAfter_append before w (' ' :: [' '].intercalate (next :: more))
      obtain ⟨images, solid, rest, length⟩ := ih others (' ' :: (w.reverse ++ before))
      have space : lowerAfter (w.reverse ++ before) (' ' :: [' '].intercalate (next :: more)) =
          ' ' :: [' '].intercalate images := by
        have plain : lowerChar ' ' = [' '] := by decide
        simp [lowerAfter, plain, rest]
      have several : images ≠ [] := List.ne_nil_of_length_pos (by simp [length])
      refine ⟨image :: images, List.forall_mem_cons.mpr ⟨word (kept nonempty) whole each, solid⟩,
        ?_, by simp [length]⟩
      rw [intercalate_cons (List.cons_ne_nil next more), lower, space, intercalate_cons several]

theorem lowerAfter_of_fixed (fixed : ∀ x ∈ s, lowerChar x = [x]) : lowerAfter before s = s := by
  induction s generalizing before with
  | nil => rfl
  | cons c s ih =>
    obtain ⟨first, others⟩ := List.forall_mem_cons.mp fixed
    have plain : c ≠ 'Σ' := by
      rintro rfl
      exact absurd first (by decide +kernel)
    simp [lowerAfter, plain, first, ih others]

/-! Normal forms. -/

theorem normalChars_spaced (s : List Char) :
    ∃ ws, Solid ws ∧ normalChars s = [' '].intercalate ws := by
  obtain ⟨images, solid, lower, -⟩ := lowerAfter_intercalate (solid_words s) []
  exact ⟨images, solid, lower⟩

theorem trimChars_normalChars (s : List Char) : trimChars (normalChars s) = normalChars s := by
  obtain ⟨ws, solid, spaced⟩ := normalChars_spaced s
  rw [spaced, trimChars_intercalate solid]

theorem normalChars_singleSpaced (s : List Char) :
    normalChars (singleSpaced s) = normalChars s := by
  rw [normalChars, singleSpaced_singleSpaced, normalChars]

@[simp] theorem normalChars_normalChars (s : List Char) :
    normalChars (normalChars s) = normalChars s := by
  obtain ⟨ws, solid, spaced⟩ := normalChars_spaced s
  have single : singleSpaced (normalChars s) = normalChars s := by
    rw [spaced, singleSpaced, words_intercalate solid]
  obtain ⟨image, lower, -, each⟩ := lowerAfter_append [] (singleSpaced s) []
  have same : normalChars s = image := by simpa [normalChars, lowerChars, lowerAfter] using lower
  rw [normalChars, single, lowerChars, same]
  exact lowerAfter_of_fixed fun x member => (each x member).elim (·.2) (·.fixed)

@[simp] theorem normalize_normalize (s : String) : normalize (normalize s) = normalize s := by
  simp [normalize]

/-- The normal form ends as the text does, but for lower case. -/
theorem getLast?_normalChars (last : s.getLast? = some c) (solid : isBlank c = false) :
    ∃ x, (normalChars s).getLast? = some x ∧ (x = c ∨ Lowered x) := by
  have spaced : (singleSpaced s).getLast? = some c := by
    rw [getLast?_singleSpaced fun x ends => Option.some.inj (last.symm.trans ends) ▸ solid, last]
  obtain ⟨front, split⟩ := List.getLast?_eq_some_iff.mp spaced
  obtain ⟨image, lower, -, -⟩ := lowerAfter_append [] front [c]
  obtain ⟨tail, ends, lowers⟩ := lowerAfter_cons (front.reverse ++ []) c []
  have whole : normalChars s = image ++ tail := by
    rw [normalChars, split, lowerChars, lower, ends]
    simp [lowerAfter]
  rw [whole]
  rcases lowers with ⟨rfl, -⟩ | ⟨nonempty, lowered⟩
  · exact ⟨c, by simp, .inl rfl⟩
  · obtain ⟨x, final⟩ := Option.ne_none_iff_exists'.mp (mt List.getLast?_eq_none_iff.mp nonempty)
    refine ⟨x, ?_, .inr (lowered x (List.mem_of_getLast? final))⟩
    rw [List.getLast?_append_of_ne_nil _ nonempty, final]

end Dialogue.Text
