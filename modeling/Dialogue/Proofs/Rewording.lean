import Dialogue.Proofs.Vocabulary

/-!
Utterances that differ in case and spacing alone. Whatever the interpreter does to the words of an
utterance, to split them, to drop punctuation and to read a number, it does in the same way to the
words in small letters. Two utterances with one normal form are the same in small letters once they
are single-spaced, so they take the same way through the interpreter, and only the texts that are
kept as they were said can differ.
-/
namespace Dialogue

namespace Text

variable {s t : List Char} {c : Char} {p : Char → Bool} {f : Char → Char}

/-! Small letters. -/

/-- Small letters are made of capitals alone. -/
theorem toLower_capital (c : Char) : c.toLower = c ∨
    (0x41 ≤ c.toNat ∧ c.toNat ≤ 0x5A) ∧ 0x61 ≤ c.toLower.toNat ∧ c.toLower.toNat ≤ 0x7A := by
  rcases toLower_cases c with same | ⟨capital, image⟩
  · exact .inl same
  · exact .inr ⟨capital, by omega⟩

theorem toLower_toLower (c : Char) : c.toLower.toLower = c.toLower := by
  rcases toLower_capital c with same | ⟨-, small⟩
  · rw [same, same]
  · exact (toLower_cases c.toLower).resolve_right fun ⟨capital, _⟩ => by omega

/-- What holds of all letters below 128, or of none, is the same for a character and its small
letter. -/
theorem congr_toLower (letters : ∃ b, ∀ x : Char,
      (0x41 ≤ x.toNat ∧ x.toNat ≤ 0x5A) ∨ (0x61 ≤ x.toNat ∧ x.toNat ≤ 0x7A) → p x = b)
    (c : Char) : p c.toLower = p c := by
  obtain ⟨b, letters⟩ := letters
  rcases toLower_capital c with same | ⟨capital, small⟩
  · rw [same]
  · rw [letters c (.inl capital), letters c.toLower (.inr small)]

theorem isBlank_toLower (c : Char) : isBlank c.toLower = isBlank c := by
  refine congr_toLower (p := isBlank)
    ⟨false, fun x letter => isBlank_eq_false.mpr fun b member => ?_⟩ c
  have apart : ∀ b ∈ blankRanges, b.2 < 0x41 ∨ 0x7A < b.1 := by decide
  have := apart b member
  omega

theorem isCased_toLower (c : Char) : isCased c.toLower = isCased c := by
  refine congr_toLower (p := isCased) ⟨true, fun x letter => ?_⟩ c
  unfold isCased inRanges
  rw [List.any_eq_true]
  rcases letter with capital | small
  · exact ⟨(0x41, 0x5A), List.mem_cons_self, by simpa using capital⟩
  · exact ⟨(0x61, 0x7A), List.mem_cons_of_mem _ List.mem_cons_self, by simpa using small⟩

theorem isCaseIgnorable_toLower (c : Char) : isCaseIgnorable c.toLower = isCaseIgnorable c := by
  refine congr_toLower (p := isCaseIgnorable) ⟨false, fun x letter => ?_⟩ c
  have apart : ∀ r ∈ caseIgnorableRanges,
      r.2 < 0x41 ∨ (0x5A < r.1 ∧ r.2 < 0x61) ∨ 0x7A < r.1 := by decide +kernel
  simp only [isCaseIgnorable, inRanges, List.any_eq_false, Bool.and_eq_true, decide_eq_true_eq]
  intro r member
  have := apart r member
  omega

theorem isDigit_toLower (c : Char) : c.toLower.isDigit = c.isDigit := by
  refine congr_toLower (p := Char.isDigit) ⟨false, fun x letter => ?_⟩ c
  rw [← Bool.not_eq_true]
  intro digit
  have := isNumeral_iff.mp (isNumeral_of_isDigit digit)
  omega

/-- A character that is no letter below 128 is the small letter of itself alone. -/
theorem toLower_eq_iff {x : Char} (other : ¬(0x41 ≤ x.toNat ∧ x.toNat ≤ 0x5A))
    (small : ¬(0x61 ≤ x.toNat ∧ x.toNat ≤ 0x7A)) : c.toLower = x ↔ c = x := by
  rcases toLower_capital c with same | ⟨capital, image⟩
  · rw [same]
  · constructor
    · rintro rfl
      exact absurd image small
    · rintro rfl
      exact absurd capital other

/-! Small letters throughout a text. -/

theorem dropEndWhile_map (same : ∀ c, p (f c) = p c) (s : List Char) :
    dropEndWhile p (s.map f) = (dropEndWhile p s).map f := by
  have criterion : p ∘ f = p := funext same
  rw [dropEndWhile, ← List.map_reverse, List.dropWhile_map, criterion, ← List.map_reverse,
    dropEndWhile]

theorem trimChars_map_toLower (s : List Char) :
    trimChars (s.map Char.toLower) = (trimChars s).map Char.toLower := by
  have criterion : isBlank ∘ Char.toLower = isBlank := funext isBlank_toLower
  rw [trimChars, List.dropWhile_map, criterion, dropEndWhile_map isBlank_toLower, trimChars]

theorem splitOnP_map (same : ∀ c, p (f c) = p c) (s : List Char) :
    (s.map f).splitOnP p = (s.splitOnP p).map (List.map f) := by
  induction s with
  | nil => simp [List.splitOnP_nil]
  | cons c s ih =>
    obtain ⟨first, rest, split⟩ := List.exists_cons_of_ne_nil (List.splitOnP_ne_nil p s)
    rw [List.map_cons, List.splitOnP_cons_eq_if_modifyHead, List.splitOnP_cons_eq_if_modifyHead,
      same, ih, split]
    split <;> simp

theorem words_map_toLower (s : List Char) :
    words (s.map Char.toLower) = (words s).map (List.map Char.toLower) := by
  rw [words, splitOnP_map isBlank_toLower, List.filter_map, words]
  congr 1
  exact List.filter_congr fun w _ => by simp

theorem intercalate_map_toLower (ws : List (List Char)) :
    [' '].intercalate (ws.map (List.map Char.toLower)) =
      ([' '].intercalate ws).map Char.toLower := by
  have space : Char.toLower ' ' = ' ' := by decide
  induction ws with
  | nil => simp [List.intercalate]
  | cons w rest ih =>
    by_cases alone : rest = []
    · simp [alone, List.intercalate]
    · rw [List.map_cons, intercalate_cons (by simpa using alone), intercalate_cons alone, ih,
        List.map_append, List.map_cons, space]

theorem startsCased_map_toLower (s : List Char) :
    startsCased (s.map Char.toLower) = startsCased s := by
  have criterion : isCaseIgnorable ∘ Char.toLower = isCaseIgnorable :=
    funext isCaseIgnorable_toLower
  rw [startsCased, List.dropWhile_map, criterion, startsCased]
  cases s.dropWhile isCaseIgnorable with
  | nil => rfl
  | cons c rest => exact isCased_toLower c

theorem lowerChar_toLower (c : Char) : lowerChar c.toLower = lowerChar c := by
  rcases toLower_capital c with same | ⟨capital, small⟩
  · rw [same]
  · rw [lowerChar, lowerChar, if_pos (by omega), if_pos (by omega), toLower_toLower]

theorem lowerAfter_map_toLower (before s : List Char) :
    lowerAfter (before.map Char.toLower) (s.map Char.toLower) = lowerAfter before s := by
  induction s generalizing before with
  | nil => rfl
  | cons c s ih =>
    have sigma : c.toLower = 'Σ' ↔ c = 'Σ' := toLower_eq_iff (by decide) (by decide)
    have rest := ih (c :: before)
    rw [List.map_cons] at rest
    simp only [List.map_cons, lowerAfter, sigma, startsCased_map_toLower, lowerChar_toLower, rest]

/-- A text and the text in small letters have one normal form. -/
theorem normalChars_map_toLower (s : List Char) :
    normalChars (s.map Char.toLower) = normalChars s := by
  have lower := lowerAfter_map_toLower [] (singleSpaced s)
  rw [List.map_nil] at lower
  rw [normalChars, singleSpaced, words_map_toLower, intercalate_map_toLower, lowerChars,
    ← singleSpaced, lower]
  rfl

theorem digits?_map_toLower (s : List Char) : digits? (s.map Char.toLower) = digits? s := by
  have same : (s.map Char.toLower).all Char.isDigit = s.all Char.isDigit := by
    rw [List.all_map]
    exact List.all_congr rfl isDigit_toLower
  by_cases digits : s.all Char.isDigit = true
  · have fixed : s.map Char.toLower = s :=
      (List.map_congr_left fun c member => toLower_of_isNumeral
        (isNumeral_of_isDigit (List.all_eq_true.mp digits c member))).trans (List.map_id' s)
    rw [fixed]
  · simp [digits?, same, digits]

theorem int64?_map_toLower (s : List Char) : int64? (s.map Char.toLower) = int64? s := by
  cases s with
  | nil => rfl
  | cons c s =>
    have minus : c.toLower = '-' ↔ c = '-' := toLower_eq_iff (by decide) (by decide)
    have plus : c.toLower = '+' ↔ c = '+' := toLower_eq_iff (by decide) (by decide)
    have rest := digits?_map_toLower s
    have whole := digits?_map_toLower (c :: s)
    rw [List.map_cons] at whole ⊢
    by_cases negative : c = '-'
    · subst negative
      simp [int64?, minus.mpr rfl, rest]
    · by_cases signed : c = '+'
      · subst signed
        simp [int64?, plus.mpr rfl, rest]
      · simp [int64?, negative, signed, mt minus.mp negative, mt plus.mp signed, whole]

/-- Utterances below 128 with one normal form are the same in small letters, once they are
single-spaced. -/
theorem singleSpaced_of_normalChars (hs : Ascii s) (ht : Ascii t)
    (same : normalChars s = normalChars t) :
    (singleSpaced s).map Char.toLower = (singleSpaced t).map Char.toLower := by
  have spaced {s : List Char} (ascii : Ascii s) : Ascii (singleSpaced s) := by
    intro c member
    rcases mem_singleSpaced member with rfl | own
    · decide
    · exact ascii c own
  rwa [normalChars, normalChars, lowerChars_ascii (spaced hs), lowerChars_ascii (spaced ht)] at same

end Text

inductive Value.SameWords : Value → Value → Prop
  | refl (v : Value) : SameWords v v
  | text {s t : String} (same : Text.normalize s = Text.normalize t) : SameWords (.text s) (.text t)

inductive Act.SameWords : Act → Act → Prop
  | refl (a : Act) : SameWords a a
  | answer {v w : Value} (same : v.SameWords w) (predicate : Option String)
      (question : Option QuestionKey) :
      SameWords (.answer ⟨v, predicate, question⟩) (.answer ⟨w, predicate, question⟩)
  | assert {v w : Value} (same : v.SameWords w) (predicate : String) :
      SameWords (.assert ⟨predicate, v⟩) (.assert ⟨predicate, w⟩)

structure Move.SameWords (m n : Move) : Prop where
  speaker : m.speaker = n.speaker
  act : m.act.SameWords n.act
  addresses : m.addresses = n.addresses
  confidence : m.confidence = n.confidence

theorem Move.SameWords.refl (m : Move) : m.SameWords m := ⟨rfl, .refl _, rfl, rfl⟩

theorem Move.SameWords.withConfidence {m n : Move} (same : m.SameWords n) (c : Binary32) :
    (m.withConfidence c).SameWords (n.withConfidence c) :=
  ⟨same.speaker, same.act, same.addresses, rfl⟩

namespace Keywords

variable {s t : List Char}

/-- One error, or moves with one content. -/
inductive Agree : Except Misunderstanding Move → Except Misunderstanding Move → Prop
  | error (x : Misunderstanding) : Agree (.error x) (.error x)
  | ok {m n : Move} (same : m.SameWords n) : Agree (.ok m) (.ok n)

theorem Agree.refl (x : Except Misunderstanding Move) : Agree x x :=
  match x with
  | .error x => .error x
  | .ok m => .ok (.refl m)

/-! The interpreter on small letters. -/

theorem isPunctuation_toLower (c : Char) : isPunctuation c.toLower = isPunctuation c := by
  refine Text.congr_toLower (p := isPunctuation) ⟨false, fun x letter => ?_⟩ c
  rw [← Bool.not_eq_true]
  intro mark
  have := mark_below mark
  omega

theorem bared_map_toLower (s : List Char) :
    bared (s.map Char.toLower) = (bared s).map Char.toLower := by
  rw [bared, Text.dropEndWhile_map isPunctuation_toLower, Text.trimChars_map_toLower, bared]

theorem isCopula_map_toLower (w : List Char) : isCopula (w.map Char.toLower) = isCopula w := by
  simp only [isCopula, List.map_map, Function.comp_def, Text.toLower_toLower]

theorem splitOn_map_toLower (s : List Char) :
    (s.map Char.toLower).splitOn ' ' = (s.splitOn ' ').map (List.map Char.toLower) := by
  refine Text.splitOnP_map (fun c => ?_) s
  have space : c.toLower = ' ' ↔ c = ' ' := Text.toLower_eq_iff (by decide) (by decide)
  simp [beq_eq_decide, space]

/-- The small letters of an utterance split at the same word, into the same subject. -/
theorem copula?_map_toLower (s : List Char) :
    copula? (s.map Char.toLower) = (copula? s).map fun p => (p.1, p.2.map Char.toLower) := by
  have criterion : (fun w => !isCopula w) ∘ List.map Char.toLower = fun w => !isCopula w :=
    funext fun w => by simp [isCopula_map_toLower]
  simp only [copula?, splitOn_map_toLower, List.takeWhile_map, List.dropWhile_map, criterion,
    Text.intercalate_map_toLower, Text.normalChars_map_toLower]
  cases (s.splitOn ' ').dropWhile fun w => !isCopula w with
  | nil => rfl
  | cons copula after =>
    simp only [List.map_cons, Text.intercalate_map_toLower, List.map_eq_nil_iff]
    split <;> rfl

/-- Texts that are the same in small letters are read as values with the same words. -/
theorem valueOf_sameWords (same : s.map Char.toLower = t.map Char.toLower) :
    (valueOf s).SameWords (valueOf t) := by
  have number : Text.int64? s = Text.int64? t := by
    rw [← Text.int64?_map_toLower s, same, Text.int64?_map_toLower]
  have normal : Text.normalChars s = Text.normalChars t := by
    rw [← Text.normalChars_map_toLower s, same, Text.normalChars_map_toLower]
  rw [valueOf, valueOf, number]
  split
  · exact .refl _
  · exact .text (by simp [Text.normalize, normal])

theorem shortAnswer_sameWords (same : s.map Char.toLower = t.map Char.toLower) :
    (Move.answer .user (.short (valueOf s))).SameWords (.answer .user (.short (valueOf t))) :=
  ⟨rfl, .answer (valueOf_sameWords same) _ _, rfl, rfl⟩

theorem statement_sameWords (k : Keywords) (subject : List Char)
    (same : s.map Char.toLower = t.map Char.toLower) :
    (k.statement subject s).SameWords (k.statement subject t) := by
  rw [statement, statement]
  split
  · exact ⟨rfl, .answer (valueOf_sameWords same) _ _, rfl, rfl⟩
  · exact ⟨rfl, .assert (valueOf_sameWords same) _, rfl, rfl⟩

/-- Texts that are the same in small letters are sentences with one subject and one object, up to
case, or neither of them is a sentence. -/
theorem copula?_agree (same : s.map Char.toLower = t.map Char.toLower) :
    (copula? s = none ∧ copula? t = none) ∨
    ∃ subject x y, copula? s = some (subject, x) ∧ copula? t = some (subject, y) ∧
      x.map Char.toLower = y.map Char.toLower := by
  have images := (copula?_map_toLower s).symm.trans (same ▸ copula?_map_toLower t)
  cases left : copula? s with
  | none =>
    rw [left, Option.map_none, eq_comm, Option.map_eq_none_iff] at images
    exact .inl ⟨rfl, images⟩
  | some p =>
    cases right : copula? t with
    | none => simp [left, right] at images
    | some r =>
      rw [left, right, Option.map_some, Option.map_some, Option.some.injEq, Prod.mk.injEq] at images
      exact .inr ⟨p.1, p.2, r.2, rfl, by rw [images.1], images.2⟩

/-- Utterances below 128 that differ in case and spacing alone have one interpretation, up to case
and spacing of the text they give. -/
theorem parse_ignores_case_and_spacing (k : Keywords) {u v : String}
    (hu : Text.Ascii u.toList) (hv : Text.Ascii v.toList)
    (same : Text.normalize u = Text.normalize v) : Agree (k.parse u) (k.parse v) := by
  have text : Text.normalChars u.toList = Text.normalChars v.toList := by
    simpa using congrArg String.toList same
  have raw : (bared (Text.singleSpaced u.toList)).map Char.toLower =
      (bared (Text.singleSpaced v.toList)).map Char.toLower := by
    rw [← bared_map_toLower, Text.singleSpaced_of_normalChars hu hv text, bared_map_toLower]
  simp only [parse, text]
  -- up to the sentences, the interpreter looks at the normal form alone
  split
  · exact .refl _
  cases conventional? (.ofList (bared (Text.normalChars v.toList))) with
  | some m => exact .refl _
  | none =>
  cases k.triggers.find? (containsWords (bared (Text.normalChars v.toList))) with
  | some task => exact .refl _
  | none =>
  dsimp only
  split
  · exact .refl _
  cases Value.truthOfText (.ofList (bared (Text.normalChars v.toList))) with
  | some b => exact .refl _
  | none =>
  rcases copula?_agree raw with ⟨left, right⟩ | ⟨subject, x, y, left, right, object⟩
  · rw [left, right]
    exact .ok ((shortAnswer_sameWords raw).withConfidence shortAnswerConfidence)
  · rw [left, right]
    exact .ok (k.statement_sameWords subject object)

def journeys : Keywords := ({} : Keywords).withQuestion (.wh "x" "departure_city" ∅)

/-- The two values differ, and their normal forms do not. -/
theorem departure_reworded :
    (Text.Ascii "My Departure  City IS New\tYork.".toList ∧
      Text.Ascii "my departure city is NEW york.".toList ∧
      Text.normalize "My Departure  City IS New\tYork." =
        Text.normalize "my departure city is NEW york.") ∧
    journeys.parse "My Departure  City IS New\tYork." =
      .ok (.answer .user (.full "departure_city" (.text "New York"))) ∧
    journeys.parse "my departure city is NEW york." =
      .ok (.answer .user (.full "departure_city" (.text "NEW york"))) ∧
    Agree (journeys.parse "My Departure  City IS New\tYork.")
      (journeys.parse "my departure city is NEW york.") := by
  have first : Text.Ascii "My Departure  City IS New\tYork.".toList := by decide
  have second : Text.Ascii "my departure city is NEW york.".toList := by decide
  have same : Text.normalize "My Departure  City IS New\tYork." =
      Text.normalize "my departure city is NEW york." := by decide +kernel
  exact ⟨⟨first, second, same⟩, by decide +kernel, by decide +kernel,
    parse_ignores_case_and_spacing journeys first second same⟩

end Keywords
end Dialogue
