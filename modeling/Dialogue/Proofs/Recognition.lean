import Dialogue.Proofs.Consistency
import Dialogue.Proofs.Residual
import Dialogue.Proofs.Vocabulary

/-!
What of a vocabulary is recognised. A phrase without punctuation that is said by itself is found,
and nothing longer is, so it is understood as what it stands for. A phrase that holds punctuation is
found in no utterance: there blanks stand for the punctuation, but not in the phrase.
-/
namespace Dialogue

theorem Text.eq_of_infix {part whole : List Char} (inside : part <:+: whole)
    (size : (String.ofList whole).utf8ByteSize ≤ (String.ofList part).utf8ByteSize) :
    part = whole := by
  obtain ⟨front, behind, rfl⟩ := inside
  simp only [String.ofList_append, String.utf8ByteSize_append] at size
  have noFront : (String.ofList front).utf8ByteSize = 0 := by omega
  have noneBehind : (String.ofList behind).utf8ByteSize = 0 := by omega
  rw [String.utf8ByteSize_eq_zero_iff, String.ofList_eq_empty_iff] at noFront noneBehind
  rw [noFront, noneBehind, List.nil_append, List.append_nil]

namespace Keywords

variable {d : Domain} {k : Keywords} {q : Question} {text : List Char}
  {phrase utterance task : String} {m : Move}

def Unpunctuated (s : String) : Prop := ∀ c ∈ s.toList, isPunctuation c = false

instance (s : String) : Decidable (Unpunctuated s) :=
  inferInstanceAs (Decidable (∀ c ∈ s.toList, isPunctuation c = false))

/-! Phrases in texts. -/

theorem containsWords_iff : containsWords text phrase = true ↔
    phrase ≠ "" ∧ ' ' :: phrase.toList ++ [' '] <:+:
      ' ' :: text.map (fun c => if isPunctuation c then ' ' else c) ++ [' '] := by
  simp [containsWords, Text.occursIn_iff]

theorem map_unpunctuated (clear : ∀ c ∈ text, isPunctuation c = false) :
    text.map (fun c => if isPunctuation c then ' ' else c) = text :=
  (List.map_congr_left fun c member => by simp [clear c member]).trans (List.map_id' _)

theorem containsWords_self (worded : phrase ≠ "") (clear : Unpunctuated phrase) :
    containsWords phrase.toList phrase = true := by
  rw [containsWords_iff, map_unpunctuated clear]
  exact ⟨worded, List.infix_refl _⟩

/-- A phrase in a text without punctuation that is no longer than the phrase is the whole text. -/
theorem eq_of_containsWords {whole : String} (clear : Unpunctuated whole)
    (contained : containsWords whole.toList phrase = true)
    (size : whole.utf8ByteSize ≤ phrase.utf8ByteSize) : phrase = whole := by
  obtain ⟨-, inside⟩ := containsWords_iff.mp contained
  rw [map_unpunctuated clear] at inside
  have same := Text.eq_of_infix inside (by
    simp only [List.cons_append, String.ofList_cons, String.ofList_append, String.ofList_toList,
      String.utf8ByteSize_append]
    omega)
  rw [List.append_cancel_right_eq, List.cons_inj_right] at same
  exact String.toList_inj.mp same

theorem unpunctuated_of_containsWords (contained : containsWords text phrase = true) :
    Unpunctuated phrase := by
  obtain ⟨-, inside⟩ := containsWords_iff.mp contained
  have space : isPunctuation ' ' = false := by decide
  intro c member
  have padded : c ∈ ' ' :: phrase.toList ++ [' '] := by simp [member]
  have found := inside.subset padded
  simp only [List.cons_append, List.mem_cons, List.mem_append, List.mem_map, List.not_mem_nil,
    or_false] at found
  rcases found with rfl | ⟨x, -, rfl⟩ | rfl
  · exact space
  · by_cases marked : isPunctuation x = true
    · simp [marked, space]
    · simp [marked]
  · exact space

/-! Punctuation in phrases. -/

theorem unpunctuated_normalize {s : String} : Unpunctuated (Text.normalize s) ↔ Unpunctuated s := by
  have space : isPunctuation ' ' = false := by decide
  simp only [Unpunctuated, Text.normalize, String.toList_ofList]
  constructor
  · intro clear c member
    by_contra marked
    obtain ⟨solid, -, fixed⟩ := mark_plain (Bool.not_eq_false _ ▸ marked)
    exact marked (clear c (Text.mem_normalChars_of_fixed member solid fixed))
  · intro clear c member
    rcases Text.mem_normalChars member with rfl | own | lowered
    · exact space
    · exact clear c own
    · exact isPunctuation_of_lowered lowered

theorem unpunctuated_spaced {s : String} : Unpunctuated (Text.spaced s) ↔ Unpunctuated s := by
  have space : isPunctuation ' ' = false := by decide
  have underscore : isPunctuation '_' = false := by decide
  simp only [Unpunctuated, Text.spaced, String.toList_ofList, List.forall_mem_map]
  refine forall₂_congr fun c _ => ?_
  by_cases under : c = '_'
  · simp [under, space, underscore]
  · simp [under]

theorem unpunctuated_of_goesBy (goes : q.GoesBy phrase) (clear : Unpunctuated phrase) :
    Unpunctuated q.topic := by
  rcases goes with rfl | rfl
  · exact unpunctuated_normalize.mp clear
  · exact unpunctuated_spaced.mp (unpunctuated_normalize.mp clear)

/-! From the phrase to the move. -/

/-- A phrase that is said by itself is found, and nothing longer is. -/
theorem find?_verbatim {α : Type} {l : Lexicon α} {a : α}
    (ordered : Lexicon.Descending l.entries) (entry : (phrase, a) ∈ l.entries)
    (worded : phrase ≠ "") (clear : Unpunctuated phrase) :
    ∃ b, (phrase, b) ∈ l.entries ∧ l.find? (containsWords phrase.toList) = some b := by
  obtain ⟨e, among, first, contained, longer⟩ :=
    Lexicon.find?_of_mem ordered entry (containsWords_self worded clear)
  have same : e.1 = phrase := eq_of_containsWords clear contained longer
  exact ⟨e.2, same ▸ among, first⟩

section

variable (bare : bared (Text.normalChars utterance.toList) = phrase.toList) (worded : phrase ≠ "")
  (unconventional : phrase ∉ greetings ++ farewells ++ notUnderstood ++ acknowledgements)
include bare worded unconventional

theorem parse_of_trigger (triggered : k.triggers.find? (containsWords phrase.toList) = some task) :
    k.parse utterance = .ok (.request .user task) := by
  have nonempty : phrase.toList ≠ [] := mt String.toList_eq_nil_iff.mp worded
  simp only [parse, bare, if_neg nonempty, String.ofList_toList,
    conventional?_eq_none unconventional, triggered]
  rfl

theorem parse_of_topic (untriggered : k.triggers.find? (containsWords phrase.toList) = none)
    (asks : (Text.normalChars utterance.toList).getLast? = some '?')
    (named : k.topics.find? (containsWords phrase.toList) = some q) :
    k.parse utterance = .ok (.ask .user q) := by
  have nonempty : phrase.toList ≠ [] := mt String.toList_eq_nil_iff.mp worded
  simp only [parse, bare, if_neg nonempty, String.ofList_toList,
    conventional?_eq_none unconventional, untriggered, if_pos asks, named]
  rfl

end

theorem act_of_conventional? (conventional : conventional? phrase = some m) :
    (∀ task, m.act ≠ .request task) ∧ ∀ q, m.act ≠ .ask q := by
  unfold conventional? at conventional
  split_ifs at conventional <;> cases conventional <;> exact ⟨nofun, nofun⟩

theorem act_of_statement (subject object : List Char) :
    (∀ task, (k.statement subject object).act ≠ .request task) ∧
      ∀ q, (k.statement subject object).act ≠ .ask q := by
  unfold statement
  split <;> exact ⟨nofun, nofun⟩

/-- Only a phrase in the utterance makes a request or a question of it. -/
theorem phrase_of_parse (heard : k.parse utterance = .ok m) :
    (∀ task, m.act = .request task →
      ∃ e ∈ k.triggers.entries, e.2 = task ∧ Unpunctuated e.1) ∧
    ∀ q, m.act = .ask q → ∃ e ∈ k.topics.entries, e.2 = q ∧ Unpunctuated e.1 := by
  have clear {α : Type} {l : Lexicon α} {a : α} {text : List Char}
      (found : l.find? (containsWords text) = some a) :
      ∃ e ∈ l.entries, e.2 = a ∧ Unpunctuated e.1 := by
    obtain ⟨e, member, stands, contained⟩ := Lexicon.mem_of_find? found
    exact ⟨e, member, stands, unpunctuated_of_containsWords contained⟩
  have neither {m : Move} (other : (∀ task, m.act ≠ .request task) ∧ ∀ q, m.act ≠ .ask q) :
      (∀ task, m.act = .request task →
        ∃ e ∈ k.triggers.entries, e.2 = task ∧ Unpunctuated e.1) ∧
      ∀ q, m.act = .ask q → ∃ e ∈ k.topics.entries, e.2 = q ∧ Unpunctuated e.1 :=
    ⟨fun task requests => absurd requests (other.1 task),
      fun q asks => absurd asks (other.2 q)⟩
  unfold parse at heard
  dsimp only at heard
  split at heard
  · cases heard
  split at heard
  · rename_i conventional
    cases heard
    exact neither (act_of_conventional? conventional)
  split at heard
  · rename_i task triggered
    cases heard
    refine ⟨?_, nofun⟩
    rintro _ ⟨⟩
    exact clear triggered
  split at heard
  · split at heard
    · rename_i q named
      cases heard
      refine ⟨nofun, ?_⟩
      rintro _ ⟨⟩
      exact clear named
    · cases heard
  split at heard
  · cases heard
    exact neither ⟨nofun, nofun⟩
  split at heard <;> cases heard
  · exact neither (act_of_statement _ _)
  · exact neither ⟨nofun, nofun⟩

/-- A trigger that is said by itself. -/
theorem trigger_recognised {t : String × String} (member : t ∈ d.triggers)
    (clear : Unpunctuated t.2) (worded : Text.isBlankText t.2 = false)
    (unconventional :
      Text.normalize t.2 ∉ greetings ++ farewells ++ notUnderstood ++ acknowledgements) :
    ∃ u ∈ d.triggers, Text.normalize u.2 = Text.normalize t.2 ∧
      (ofDomain d).parse t.2 = .ok (.request .user u.1) := by
  have spelled := ofDomain_spells d
  have normal : Unpunctuated (Text.normalize t.2) := unpunctuated_normalize.mpr clear
  have bare : bared (Text.normalChars t.2.toList) = (Text.normalize t.2).toList := by
    rw [← Text.toList_normalize]
    refine bared_eq_self ?_ fun c last => normal c (List.mem_of_getLast? last)
    rw [Text.toList_normalize, Text.trimChars_normalChars]
  obtain ⟨task, among, found⟩ := find?_verbatim spelled.longerTriggers
    ((spelled.tasks _).mpr ⟨t, member, rfl⟩) (Text.normalize_ne_empty.mpr worded) normal
  obtain ⟨u, other, same⟩ := (spelled.tasks _).mp among
  obtain ⟨phrase, rfl⟩ := Prod.mk.inj same
  exact ⟨u, other, phrase.symm,
    parse_of_trigger bare (Text.normalize_ne_empty.mpr worded) unconventional found⟩

/-- A topic that is said by itself, with a question mark. -/
theorem topic_recognised (built : q.Built) (member : q ∈ d.questions) (clear : Unpunctuated q.topic)
    (unconventional :
      Text.normalize q.topic ∉ greetings ++ farewells ++ notUnderstood ++ acknowledgements)
    (untriggered : ∀ t ∈ d.triggers,
      containsWords (Text.normalChars q.topic.toList) (Text.normalize t.2) = false) :
    ∃ r ∈ d.questions, r.GoesBy (Text.normalize q.topic) ∧
      (ofDomain d).parse (q.topic ++ "?") = .ok (.ask .user r) := by
  have spelled := ofDomain_spells d
  have normal : Unpunctuated (Text.normalize q.topic) := unpunctuated_normalize.mpr clear
  have nonempty : q.topic.toList ≠ [] := mt String.toList_eq_nil_iff.mp built.topic_ne
  have trimmed : Text.trimChars q.topic.toList = q.topic.toList := by
    simpa [Text.trim] using congrArg String.toList built.tidy.topic
  have worded : Text.normalize q.topic ≠ "" := by
    rw [Text.normalize_ne_empty, ← Bool.not_eq_true, Text.isBlankText, ← Text.trimChars_eq_nil,
      trimmed]
    exact nonempty
  have last : ∀ c, q.topic.toList.getLast? = some c → isPunctuation c = false :=
    fun c final => clear c (List.mem_of_getLast? final)
  obtain ⟨text, bare, -⟩ :=
    prepared_marked nonempty trimmed last (show isPunctuation '?' = true by decide)
  rw [← Text.toList_normalize] at bare
  obtain ⟨r, among, found⟩ := find?_verbatim spelled.longerTopics
    ((spelled.topics _).mpr ⟨member, .inl rfl⟩) worded normal
  obtain ⟨other, goes⟩ := (spelled.topics _).mp among
  refine ⟨r, other, goes, parse_of_topic ?_ worded unconventional ?_ ?_ found⟩
  · rw [String.toList_append]
    exact bare
  · rw [Text.toList_normalize]
    exact find?_triggers_eq_none untriggered
  · rw [String.toList_append]
    exact text ▸ List.getLast?_concat

/-- Registered vocabulary is recognised when it is uttered verbatim, as far as it is free of
punctuation. In a domain that was loaded from a file, whoever says a trigger by itself requests a
task with that very trigger, and whoever says a topic with a question mark asks a question that goes
by that very phrase, if nothing else in it is understood first. No utterance requests a task unless
one of its triggers is without punctuation, and none asks a question whose topic holds any. -/
theorem vocabulary_recognised {file : String} (loaded : Domain.ofToml file = .ok d) :
    (∀ t ∈ d.triggers, Unpunctuated t.2 → Text.isBlankText t.2 = false →
      Text.normalize t.2 ∉ greetings ++ farewells ++ notUnderstood ++ acknowledgements →
      ∃ u ∈ d.triggers, Text.normalize u.2 = Text.normalize t.2 ∧
        (ofDomain d).parse t.2 = .ok (.request .user u.1)) ∧
    (∀ q ∈ d.questions, Unpunctuated q.topic →
      Text.normalize q.topic ∉ greetings ++ farewells ++ notUnderstood ++ acknowledgements →
      (∀ t ∈ d.triggers,
        containsWords (Text.normalChars q.topic.toList) (Text.normalize t.2) = false) →
      ∃ r ∈ d.questions, r.GoesBy (Text.normalize q.topic) ∧
        (ofDomain d).parse (q.topic ++ "?") = .ok (.ask .user r)) ∧
    (∀ utterance task, (ofDomain d).parse utterance = .ok (.request .user task) →
      ∃ t ∈ d.triggers, t.1 = task ∧ Unpunctuated t.2) ∧
    ∀ utterance r, (ofDomain d).parse utterance = .ok (.ask .user r) →
      r ∈ d.questions ∧ Unpunctuated r.topic := by
  have spelled := ofDomain_spells d
  refine ⟨fun t => trigger_recognised, fun q member => ?_, fun utterance task heard => ?_,
    fun utterance r heard => ?_⟩
  · exact topic_recognised (Domain.built_of_ofToml loaded q member) member
  · obtain ⟨e, member, stands, clear⟩ := (phrase_of_parse heard).1 task rfl
    obtain ⟨t, among, rfl⟩ := (spelled.tasks e).mp member
    exact ⟨t, among, stands, unpunctuated_normalize.mp clear⟩
  · obtain ⟨e, member, rfl, clear⟩ := (phrase_of_parse heard).2 r rfl
    obtain ⟨among, goes⟩ := (spelled.topics e).mp member
    exact ⟨among, unpunctuated_of_goesBy goes clear⟩

/-- A trigger that is part of another one, and a trigger and a topic with punctuation in them. -/
def clinicFile : String := "name = \"clinic\"
[[questions]]
topic = \"hours\"
kind = \"wh\"
[[questions]]
topic = \"dr. lee\"
kind = \"yes_no\"
[[tasks]]
id = \"ring\"
triggers = [\"doctor\", \"help, please\", \"See a  Doctor\"]
steps = [\x7b raise = \"hours\" \x7d]
"

def hours : Question := .wh "x" "hours" ∅

def drLee : Question := .yesNo "dr. lee"

def clinic : Domain where
  name := "clinic"
  questions := [hours, drLee]
  distinct_topics := by decide
  tasks := .ofList
    [("ring", ⟨["doctor", "help, please", "See a  Doctor"], true, [.raise hours]⟩)]

theorem clinic_loaded : Domain.ofToml clinicFile = .ok clinic := by
  obtain ⟨d, loaded, rfl⟩ := exists_ok_of_decide (x := Domain.ofToml clinicFile) (P := (· = clinic))
    (by decide +kernel)
  exact loaded

theorem doctor_recognised : Domain.ofToml clinicFile = .ok clinic ∧
    ("ring", "See a  Doctor") ∈ clinic.triggers ∧ Unpunctuated "See a  Doctor" ∧
    (∃ u ∈ clinic.triggers, Text.normalize u.2 = "see a doctor" ∧
      (ofDomain clinic).parse "See a  Doctor" = .ok (.request .user u.1)) ∧
    hours ∈ clinic.questions ∧ Unpunctuated "hours" ∧
    (∃ r ∈ clinic.questions, r.GoesBy "hours" ∧
      (ofDomain clinic).parse "hours?" = .ok (.ask .user r)) ∧
    (ofDomain clinic).parse "I need a doctor, please" = .ok (.request .user "ring") ∧
    ∃ t ∈ clinic.triggers, t.1 = "ring" ∧ Unpunctuated t.2 := by
  obtain ⟨triggers, topics, requested, -⟩ := vocabulary_recognised clinic_loaded
  have trigger : ("ring", "See a  Doctor") ∈ clinic.triggers := by decide +kernel
  have asked : hours ∈ clinic.questions := by decide
  have seen := triggers _ trigger (by decide +kernel) (by decide +kernel) (by decide +kernel)
  have told := topics _ asked (by decide +kernel) (by decide +kernel) (by decide +kernel)
  have normal : Text.normalize "See a  Doctor" = "see a doctor" := by decide +kernel
  have topic : Text.normalize "hours" = "hours" := by decide +kernel
  have heard : (ofDomain clinic).parse "I need a doctor, please" = .ok (.request .user "ring") := by
    decide +kernel
  exact ⟨clinic_loaded, trigger, by decide +kernel, normal ▸ seen, asked, by decide +kernel,
    topic ▸ told, heard, requested _ _ heard⟩

/-- A trigger and a topic that are said verbatim and not recognised, although nothing else is. -/
theorem punctuated_vocabulary_missed : Domain.ofToml clinicFile = .ok clinic ∧
    (("ring", "help, please") ∈ clinic.triggers ∧
      Text.normalize "help, please" ∉ greetings ++ farewells ++ notUnderstood ++ acknowledgements ∧
      (ofDomain clinic).parse "help, please" =
        .ok ((Move.answer .user (.short (.text "help, please"))).withConfidence
          shortAnswerConfidence)) ∧
    drLee ∈ clinic.questions ∧
      Text.normalize "dr. lee" ∉ greetings ++ farewells ++ notUnderstood ++ acknowledgements ∧
      (∀ t ∈ clinic.triggers,
        containsWords (Text.normalChars "dr. lee".toList) (Text.normalize t.2) = false) ∧
      (ofDomain clinic).parse "dr. lee?" = .error .unknownTopic := by
  have listed : ("ring", "help, please") ∈ clinic.triggers := by decide +kernel
  have asked : drLee ∈ clinic.questions := by decide
  exact ⟨clinic_loaded, ⟨listed, by decide +kernel, by decide +kernel⟩, asked, by decide +kernel,
    by decide +kernel, by decide +kernel⟩

end Keywords
end Dialogue
