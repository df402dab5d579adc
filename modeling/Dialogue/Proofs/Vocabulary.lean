import Dialogue.Language.Keywords
import Dialogue.Proofs.Casing

/-!
The vocabulary of a domain, and how an utterance is prepared for it. The phrases stand in the order
of their lengths, each with a task or a question that goes by it, and the first one that occurs in
an utterance counts. Utterances lose the punctuation at their ends and have blanks for the rest of
it; phrases keep theirs.
-/
namespace Dialogue

namespace Lexicon

variable {α : Type} {l : Lexicon α} {phrase : String} {a : α} {entries : List (String × α)}
  {e : String × α} {p : String → Bool}

def Descending (entries : List (String × α)) : Prop :=
  entries.Pairwise fun e f => f.1.utf8ByteSize ≤ e.1.utf8ByteSize

theorem mem_insertEntry : e ∈ insertEntry phrase a entries ↔ e = (phrase, a) ∨ e ∈ entries := by
  induction entries with
  | nil => simp [insertEntry]
  | cons first rest ih =>
    simp only [insertEntry]
    split
    · exact List.mem_cons
    · rw [List.mem_cons, ih, List.mem_cons]
      exact or_left_comm

theorem Descending.insertEntry (h : Descending entries) :
    Descending (insertEntry phrase a entries) := by
  induction entries with
  | nil => exact List.pairwise_singleton _ _
  | cons first rest ih =>
    obtain ⟨longest, ordered⟩ := List.pairwise_cons.mp h
    simp only [Lexicon.insertEntry]
    split
    · rename_i shorter
      refine List.pairwise_cons.mpr ⟨fun e member => ?_, h⟩
      rcases List.mem_cons.mp member with rfl | later
      · exact Nat.le_of_lt shorter
      · exact Nat.le_trans (longest e later) (Nat.le_of_lt shorter)
    · rename_i enough
      refine List.pairwise_cons.mpr ⟨fun e member => ?_, ih ordered⟩
      rcases mem_insertEntry.mp member with rfl | later
      · exact Nat.not_lt.mp enough
      · exact longest e later

/-- What is found stands for a phrase with the property, and for one that is at least as long as any
other phrase with it. -/
theorem find?_of_mem (ordered : Descending l.entries) (member : e ∈ l.entries)
    (holds : p e.1 = true) : ∃ f ∈ l.entries, l.find? p = some f.2 ∧ p f.1 = true ∧
      e.1.utf8ByteSize ≤ f.1.utf8ByteSize := by
  obtain ⟨f, found⟩ : ∃ f, l.entries.find? (fun e => p e.1) = some f :=
    Option.isSome_iff_exists.mp (List.find?_isSome.mpr ⟨e, member, holds⟩)
  obtain ⟨passes, before, after, split, none⟩ := List.find?_eq_some_iff_append.mp found
  refine ⟨f, split ▸ by simp, by rw [find?, found, Option.map_some], by simpa using passes, ?_⟩
  rw [split] at member ordered
  rcases List.mem_append.mp member with earlier | later
  · have fails := none e earlier
    simp [holds] at fails
  · rcases List.mem_cons.mp later with rfl | behind
    · exact Nat.le_refl _
    · exact (List.pairwise_cons.mp (List.pairwise_append.mp ordered).2.1).1 e behind

theorem mem_of_find? (found : l.find? p = some a) : ∃ e ∈ l.entries, e.2 = a ∧ p e.1 = true := by
  obtain ⟨e, first, rfl⟩ := Option.map_eq_some_iff.mp found
  exact ⟨e, List.mem_of_find?_eq_some first, rfl, by simpa using List.find?_some first⟩

end Lexicon

/-- A phrase for the topic of the question, as it is written or with blanks for underscores. -/
def Question.GoesBy (q : Question) (phrase : String) : Prop :=
  phrase = Text.normalize q.topic ∨ phrase = Text.normalize (Text.spaced q.topic)

namespace Keywords

variable {d : Domain} {k : Keywords} {q : Question} {triggers : List (String × String)}
  {questions : List Question} {text s : List Char} {o : String} {c : Char}

/-- The vocabulary knows the tasks by their triggers and the questions by their topics, and nothing
else. -/
structure Spells (k : Keywords) (triggers : List (String × String)) (questions : List Question) :
    Prop where
  longerTriggers : Lexicon.Descending k.triggers.entries
  longerTopics : Lexicon.Descending k.topics.entries
  tasks : ∀ e, e ∈ k.triggers.entries ↔ ∃ t ∈ triggers, e = (Text.normalize t.2, t.1)
  topics : ∀ e, e ∈ k.topics.entries ↔ e.2 ∈ questions ∧ e.2.GoesBy e.1

theorem spells_nothing : Spells {} [] [] := by
  refine ⟨List.Pairwise.nil, List.Pairwise.nil, ?_, ?_⟩ <;> simp

theorem Spells.withTrigger (h : k.Spells triggers questions) (t : String × String) :
    (k.withTrigger t.1 t.2).Spells (triggers ++ [t]) questions := by
  refine ⟨h.longerTriggers.insertEntry, h.longerTopics, fun e => ?_, h.topics⟩
  have inserted : e ∈ (k.withTrigger t.1 t.2).triggers.entries ↔
      e = (Text.normalize t.2, t.1) ∨ e ∈ k.triggers.entries := Lexicon.mem_insertEntry
  rw [inserted, h.tasks]
  simp only [List.mem_append, List.mem_singleton, or_and_right, exists_or, exists_eq_left]
  exact or_comm

theorem spaced_eq_self {s : String} (plain : '_' ∉ s.toList) : Text.spaced s = s := by
  have same : s.toList.map (fun c => if c = '_' then ' ' else c) = s.toList :=
    (List.map_congr_left fun c member =>
      if_neg fun (underscore : c = '_') => plain (underscore ▸ member)).trans (List.map_id' _)
  rw [Text.spaced, same, String.ofList_toList]

theorem mem_topics_withQuestion {e : String × Question} :
    e ∈ (k.withQuestion q).topics.entries ↔ (e.2 = q ∧ q.GoesBy e.1) ∨ e ∈ k.topics.entries := by
  obtain ⟨phrase, asked⟩ := e
  by_cases underscored : '_' ∈ q.topic.toList
  · have both : (k.withQuestion q).topics =
        (k.topics.insert q.topic q).insert (Text.spaced q.topic) q := by
      rw [withQuestion, if_pos underscored]
      rfl
    rw [both, Lexicon.insert, Lexicon.mem_insertEntry, Lexicon.insert, Lexicon.mem_insertEntry,
      Question.GoesBy]
    simp only [Prod.mk.injEq]
    grind
  · have one : (k.withQuestion q).topics = k.topics.insert q.topic q := by
      rw [withQuestion, if_neg underscored]
      rfl
    rw [one, Lexicon.insert, Lexicon.mem_insertEntry, Question.GoesBy, spaced_eq_self underscored]
    simp only [Prod.mk.injEq]
    grind

theorem withQuestion_triggers : (k.withQuestion q).triggers = k.triggers := by
  unfold withQuestion
  dsimp only
  split <;> rfl

theorem Spells.withQuestion (h : k.Spells triggers questions) (q : Question) :
    (k.withQuestion q).Spells triggers (questions ++ [q]) := by
  have known := withQuestion_triggers (k := k) (q := q)
  refine ⟨known ▸ h.longerTriggers, ?_, known ▸ h.tasks, fun e => ?_⟩
  · unfold Keywords.withQuestion
    dsimp only
    split
    · exact h.longerTopics.insertEntry.insertEntry
    · exact h.longerTopics.insertEntry
  · rw [mem_topics_withQuestion, h.topics, List.mem_append, List.mem_singleton]
    constructor
    · rintro (⟨rfl, goes⟩ | ⟨member, goes⟩)
      · exact ⟨.inr rfl, goes⟩
      · exact ⟨.inl member, goes⟩
    · rintro ⟨member | rfl, goes⟩
      · exact .inr ⟨member, goes⟩
      · exact .inl ⟨rfl, goes⟩

theorem Spells.withTriggers (h : k.Spells triggers questions) (more : List (String × String)) :
    (more.foldl (fun k t => k.withTrigger t.1 t.2) k).Spells (triggers ++ more) questions := by
  induction more generalizing k triggers with
  | nil => rwa [List.append_nil]
  | cons t more ih => simpa using ih (h.withTrigger t)

theorem Spells.withQuestions (h : k.Spells triggers questions) (more : List Question) :
    (more.foldl Keywords.withQuestion k).Spells triggers (questions ++ more) := by
  induction more generalizing k questions with
  | nil => rwa [List.append_nil]
  | cons q more ih => simpa using ih (h.withQuestion q)

theorem ofDomain_spells (d : Domain) : (ofDomain d).Spells d.triggers d.questions :=
  (spells_nothing.withTriggers d.triggers).withQuestions d.questions

/-- An utterance without the trigger of a task in it requests none. -/
theorem find?_triggers_eq_none
    (free : ∀ t ∈ d.triggers, containsWords text (Text.normalize t.2) = false) :
    (ofDomain d).triggers.find? (containsWords text) = none := by
  rw [Lexicon.find?, Option.map_eq_none_iff, List.find?_eq_none]
  intro e member
  obtain ⟨t, among, rfl⟩ := ((ofDomain_spells d).tasks e).mp member
  simp [free t among]

/-! Utterances without the punctuation at their ends. -/

theorem bared_eq_self (trimmed : Text.trimChars s = s)
    (last : ∀ c, s.getLast? = some c → isPunctuation c = false) : bared s = s := by
  have kept : Text.dropEndWhile isPunctuation s = s := by
    rw [Text.dropEndWhile_eq, List.rdropWhile_eq_self_iff]
    intro nonempty
    simp [last _ (List.getLast?_eq_some_getLast nonempty)]
  rw [bared, kept, trimmed]

theorem bared_concat (mark : isPunctuation c = true) (s : List Char) :
    bared (s ++ [c]) = bared s := by
  rw [bared, bared, Text.dropEndWhile_eq, Text.dropEndWhile_eq,
    List.rdropWhile_concat_pos _ _ _ mark]

/-- Punctuation comes before all letters. -/
theorem mark_below (mark : isPunctuation c = true) : c.toNat < 0x41 := by
  have each : ∀ c ∈ ['.', '!', '?', ','], c.toNat < 0x41 := by decide
  exact each c (of_decide_eq_true mark)

/-- What is not punctuation does not become any in lower case. -/
theorem isPunctuation_of_lowered (h : Text.Lowered c) : isPunctuation c = false := by
  have above := h.above
  rw [← Bool.not_eq_true]
  intro mark
  have := mark_below mark
  omega

/-- The normal form of a trimmed text without punctuation at its end does not end with any. -/
theorem unpunctuated_normalChars (trimmed : Text.trimChars s = s)
    (last : ∀ c, s.getLast? = some c → isPunctuation c = false) :
    ∀ c, (Text.normalChars s).getLast? = some c → isPunctuation c = false := by
  intro c final
  cases own : s.getLast? with
  | none =>
    rw [List.getLast?_eq_none_iff] at own
    cases own
    cases final
  | some x =>
    obtain ⟨y, final', same | lowered⟩ :=
      Text.getLast?_normalChars own (Text.solid_of_getLast? trimmed own)
    · cases final.symm.trans final'
      exact same ▸ last x own
    · cases final.symm.trans final'
      exact isPunctuation_of_lowered lowered

theorem bared_normalChars (trimmed : Text.trimChars s = s)
    (last : ∀ c, s.getLast? = some c → isPunctuation c = false) :
    bared (Text.normalChars s) = Text.normalChars s :=
  bared_eq_self (Text.trimChars_normalChars s) (unpunctuated_normalChars trimmed last)

theorem bared_singleSpaced (trimmed : Text.trimChars s = s)
    (last : ∀ c, s.getLast? = some c → isPunctuation c = false) :
    bared (Text.singleSpaced s) = Text.singleSpaced s := by
  refine bared_eq_self (Text.trimChars_intercalate (Text.solid_words s)) fun c final => ?_
  rw [Text.getLast?_singleSpaced fun c => Text.solid_of_getLast? trimmed] at final
  exact last c final

/-- Punctuation belongs to no word, and lower case leaves it as it is. -/
theorem mark_plain (mark : isPunctuation c = true) :
    Text.isBlank c = false ∧ Text.isCased c = false ∧ Text.lowerChar c = [c] := by
  have each : ∀ c ∈ ['.', '!', '?', ','],
      Text.isBlank c = false ∧ Text.isCased c = false ∧ Text.lowerChar c = [c] := by
    decide +kernel
  exact each c (of_decide_eq_true mark)

/-- A mark at the end of what is said stays in its normal form, and goes from it with the other
punctuation there. -/
theorem prepared_marked (nonempty : s ≠ []) (trimmed : Text.trimChars s = s)
    (last : ∀ c, s.getLast? = some c → isPunctuation c = false) (mark : isPunctuation c = true) :
    Text.normalChars (s ++ [c]) = Text.normalChars s ++ [c] ∧
      bared (Text.normalChars (s ++ [c])) = Text.normalChars s ∧
      bared (Text.singleSpaced (s ++ [c])) = Text.singleSpaced s := by
  obtain ⟨solid, uncased, fixed⟩ := mark_plain mark
  have ends : ∀ x, s.getLast? = some x → Text.isBlank x = false :=
    fun x => Text.solid_of_getLast? trimmed
  have text := Text.normalChars_concat nonempty ends solid uncased fixed
  refine ⟨text, ?_, ?_⟩
  · rw [text, bared_concat mark, bared_normalChars trimmed last]
  · rw [Text.singleSpaced_concat nonempty ends solid, bared_concat mark,
      bared_singleSpaced trimmed last]

theorem conventional?_eq_none
    (h : o ∉ greetings ++ farewells ++ notUnderstood ++ acknowledgements) :
    conventional? o = none := by
  simp only [List.mem_append, not_or] at h
  obtain ⟨⟨⟨greeting, farewell⟩, lost⟩, acknowledged⟩ := h
  simp [conventional?, greeting, farewell, lost, acknowledged]

end Keywords
end Dialogue
