import Dialogue.Language.Templates
import Dialogue.Proofs.Resolution
import Dialogue.Proofs.Vocabulary

/-!
Facts that are said back. The wording that the system has for a fact, "The ... is ...", is a
sentence that the interpreter takes apart again: the first word "is" is the one that the system has
put there, the article goes, and what is left in front is the phrase of the topic. A truth value
comes back as a word for it, any other value as it is.
-/
namespace Dialogue

/-- The value is read as it is worded, or as a word for the same truth value: a text is
single-spaced, does not end with punctuation and does not write an integer. -/
inductive Value.Sayable : Value → Prop
  | bool (b : Bool) : Sayable (.bool b)
  | int (n : Int64) : Sayable (.int n)
  | text {s : String} (spaced : Text.singleSpaced s.toList = s.toList)
      (unpunctuated : ∀ c, s.toList.getLast? = some c → Keywords.isPunctuation c = false)
      (uncounted : Text.int64? s.toList = none) : Sayable (.text s)

namespace Keywords

variable {d : Domain} {k : Keywords} {q : Question} {a : Answer} {p : Proposition} {v : Value}
  {utterance : String} {raw bare subject object topic : List Char}

/-! Wordings of values. -/

theorem last_ofInt64 {n : Int64} {c : Char} (last : (Text.ofInt64 n).toList.getLast? = some c) :
    isPunctuation c = false := by
  have digit {m : Nat} (member : c ∈ Nat.toDigits 10 m) : isPunctuation c = false := by
    have is : c.isDigit = true := Nat.isDigit_of_mem_toDigits (by decide) (by decide) member
    have none : ∀ p ∈ ['.', '!', '?', ','], p.isDigit = false := by decide
    refine decide_eq_false fun mark => ?_
    rw [none c mark] at is
    contradiction
  rcases Text.toList_ofInt64 n with ⟨_, text⟩ | ⟨_, text⟩ <;> rw [text] at last
  · exact digit (List.mem_of_getLast? last)
  · rw [List.getLast?_cons_of_ne_nil Nat.toDigits_ne_nil] at last
    exact digit (List.mem_of_getLast? last)

/-- What is said of a value: words between single spaces, without punctuation at the end. -/
theorem wording_of_sayable (sayable : v.Sayable) :
    Text.singleSpaced v.wording.toList = v.wording.toList ∧
      ∀ c, v.wording.toList.getLast? = some c → isPunctuation c = false := by
  cases sayable with
  | bool b =>
    cases b <;> exact ⟨by decide +kernel, by simp [Value.wording, isPunctuation]⟩
  | int n =>
    exact ⟨Text.singleSpaced_of_isNumeral fun c member => Text.isNumeral_of_mem_ofInt64 member,
      fun c => last_ofInt64⟩
  | text spaced unpunctuated uncounted => exact ⟨spaced, unpunctuated⟩

/-- What settles a question by a truth value, a word for that truth value settles in the same
way. -/
theorem bind?_word {b : Bool} (binds : q.bind? v = some (.bool b)) :
    q.bind? (.text (Value.bool b).wording) = some (.bool b) := by
  have word : (Value.text (Value.bool b).wording).truth = some b := Question.truth_of_normalize rfl
  have trimmed : Question.trimmed (.text (Value.bool b).wording) =
      .text (Value.bool b).wording := by cases b <;> decide +kernel
  cases q with
  | wh var predicate constraints =>
    obtain ⟨u, typed, listed⟩ := Option.bind_eq_some_iff.mp binds
    have unlisted : constraints.get? Question.oneOfConstraint = none := by
      cases listing : constraints.get? Question.oneOfConstraint with
      | none => rfl
      | some options => simp [Question.underOptions, listing] at listed
    simp only [Question.underOptions, unlisted, Option.some.injEq] at listed
    subst listed
    cases typing : constraints.get? Question.typeConstraint with
    | none => cases given : Question.trimmed v <;> simp [Question.underType, typing, given] at typed
    | some type =>
      simp only [Question.underType, typing] at typed
      have kind : type = "bool" := by
        unfold Question.typed at typed
        split at typed <;> simp_all
      subst kind
      simp [Question.bind?, trimmed, Question.underType, typing, Question.typed, word,
        Question.underOptions, unlisted]
  | yesNo predicate => simp [Question.bind?, word]
  | alt predicate alternatives =>
    obtain ⟨_, _, wrong⟩ := Option.map_eq_some_iff.mp binds
    cases wrong

theorem resolution_of_sayable (settles : q.resolution a = some p) (sayable : p.value.Sayable) :
    q.resolution (.full q.topic (valueOf p.value.wording.toList)) = some p := by
  have again := Question.resolution_ofProposition settles
  obtain ⟨-, solid, topic, binds⟩ := Question.resolution_eq_some.mp again
  have same : Answer.ofProposition p = .full q.topic p.value := by rw [Answer.ofProposition, topic]
  obtain ⟨predicate, value⟩ := p
  cases sayable with
  | bool b =>
    have text : valueOf (Value.bool b).wording.toList = .text (Value.bool b).wording := by
      cases b <;> decide +kernel
    refine Question.resolution_eq_some.mpr ⟨by simp [Answer.addresses, Answer.full], ?_, topic, ?_⟩
    · rw [text]
      exact Question.isBlankText_wording (v := .bool b) rfl
    · rw [text]
      exact bind?_word binds
  | int n =>
    have number : valueOf (Value.int n).wording.toList = .int n := by
      simp [valueOf, Value.wording, Text.int64?_ofInt64]
    rw [number]
    exact same ▸ again
  | @text s spaced unpunctuated uncounted =>
    have text : valueOf (Value.text s).wording.toList = .text s := by
      simp [valueOf, Value.wording, uncounted]
    rw [text]
    exact same ▸ again

/-! The sentence. -/

def sentence (topic object : List Char) : List Char :=
  "The".toList ++ ' ' :: (topic ++ ' ' :: ("is".toList ++ ' ' :: object))

theorem solid_the : ∀ c ∈ "The".toList, Text.isBlank c = false := by decide

theorem solid_is : ∀ c ∈ "is".toList, Text.isBlank c = false := by decide

theorem words_sentence (topic object : List Char) : Text.words (sentence topic object) =
    "The".toList :: (Text.words topic ++ "is".toList :: Text.words object) := by
  have space : Text.isBlank ' ' = true := by decide
  rw [sentence, Text.words_word (by decide) solid_the space, Text.words_append_blank space,
    Text.words_word (by decide) solid_is space]

theorem copula?_eq_some {before after : List (List Char)} {word : List Char}
    (split : raw.splitOn ' ' = before ++ word :: after)
    (plain : ∀ w ∈ before, isCopula w = false) (copula : isCopula word = true)
    (named : stripDeterminer (Text.normalChars ([' '].intercalate before)) ≠ [])
    (valued : [' '].intercalate after ≠ []) :
    copula? raw = some (stripDeterminer (Text.normalChars ([' '].intercalate before)),
      [' '].intercalate after) := by
  have front : ∀ w ∈ before, (!isCopula w) = true := fun w member => by simp [plain w member]
  have first : (before ++ word :: after).takeWhile (!isCopula ·) = before := by
    simp [List.takeWhile_append_of_pos front, copula]
  have rest : (before ++ word :: after).dropWhile (!isCopula ·) = word :: after := by
    simp [List.dropWhile_append_of_pos front, copula]
  simp only [copula?, split, first, rest, named, valued, or_self, if_false]

theorem stripDeterminer_the (trimmed : Text.trimChars subject = subject) (nonempty : subject ≠ []) :
    stripDeterminer ("the ".toList ++ subject) = subject := by
  have first : ∀ c, ("the ".toList ++ subject).head? = some c → Text.isBlank c = false := by
    intro c head
    cases head
    decide
  have last : ∀ c, ("the ".toList ++ subject).getLast? = some c → Text.isBlank c = false := by
    intro c last
    rw [List.getLast?_append_of_ne_nil _ nonempty] at last
    exact Text.solid_of_getLast? trimmed last
  have article : determiners.find? (fun w => w.toList.isPrefixOf ("the ".toList ++ subject)) =
      some "the " := by
    rw [determiners, List.find?_cons_of_pos]
    exact List.isPrefixOf_iff_prefix.mpr (List.prefix_append _ _)
  simp only [stripDeterminer, Text.trimChars_eq_self first last, article]
  rw [List.drop_left, trimmed]

/-- The first word "is" in the sentence is the one between topic and value. -/
theorem copula?_sentence (worded : Text.words topic ≠ [])
    (plain : ∀ w ∈ Text.words topic, isCopula w = false) (solid : Text.words object ≠ []) :
    copula? (Text.singleSpaced (sentence topic object)) =
      some (Text.normalChars topic, Text.singleSpaced object) := by
  have split : (Text.singleSpaced (sentence topic object)).splitOn ' ' =
      ("The".toList :: Text.words topic) ++ "is".toList :: Text.words object := by
    rw [Text.splitOn_singleSpaced (by simp [words_sentence]), words_sentence, List.cons_append]
  have joined : [' '].intercalate ("The".toList :: Text.words topic) =
      Text.singleSpaced ("The".toList ++ ' ' :: topic) := by
    rw [Text.singleSpaced, Text.words_word (by decide) solid_the (by decide)]
  have before : Text.normalChars ([' '].intercalate ("The".toList :: Text.words topic)) =
      "the ".toList ++ Text.normalChars topic := by
    rw [joined, Text.normalChars_singleSpaced, Text.normalChars_word (by decide) solid_the worded]
    rfl
  have phrase : Text.normalChars topic ≠ [] := by
    rw [Ne, Text.normalChars_eq_nil, ← Text.words_eq_nil]
    exact worded
  have subject := stripDeterminer_the (Text.trimChars_normalChars topic) phrase
  rw [← before] at subject
  have first : ∀ w ∈ "The".toList :: Text.words topic, isCopula w = false :=
    List.forall_mem_cons.mpr ⟨by decide, plain⟩
  have stated := copula?_eq_some split first (by decide) (subject ▸ phrase)
    (Text.intercalate_ne_nil (Text.solid_words object) solid)
  rw [stated, subject, Text.singleSpaced]

theorem normalChars_sentence (topic object : List Char) :
    ∃ rest, Text.normalChars (sentence topic object) = "the ".toList ++ rest := by
  have more : Text.words (topic ++ ' ' :: ("is".toList ++ ' ' :: object)) ≠ [] := by
    rw [Text.words_append_blank (by decide), Text.words_word (by decide) solid_is (by decide)]
    simp
  exact ⟨_, Text.normalChars_word (by decide) solid_the more⟩

/-- No convention and no word for a truth value begins with an article. -/
theorem not_mem_of_article (rest : List Char) :
    String.ofList ("the ".toList ++ rest) ∉
      greetings ++ farewells ++ notUnderstood ++ acknowledgements ++
        Value.trueWords ++ Value.falseWords := by
  have none : ∀ w ∈ greetings ++ farewells ++ notUnderstood ++ acknowledgements ++
      Value.trueWords ++ Value.falseWords, "the ".toList.isPrefixOf w.toList = false := by decide
  intro member
  have begins := none _ member
  rw [← Bool.not_eq_true, List.isPrefixOf_iff_prefix] at begins
  exact begins ⟨rest, String.toList_ofList.symm⟩

/-- A normal form without punctuation at its end stands for a truth value only as one of the
words. -/
theorem truthOfText_eq_none (normal : Text.normalChars bare = bare)
    (last : ∀ c, bare.getLast? = some c → isPunctuation c = false)
    (other : String.ofList bare ∉ Value.trueWords ++ Value.falseWords) :
    Value.truthOfText (.ofList bare) = none := by
  have kept : Text.dropEndWhile (fun c => c == '.' || c == '!') bare = bare := by
    rw [Text.dropEndWhile_eq, List.rdropWhile_eq_self_iff]
    intro nonempty marked
    have unmarked := last _ (List.getLast?_eq_some_getLast nonempty)
    rw [Bool.or_eq_true, beq_iff_eq, beq_iff_eq] at marked
    rcases marked with dot | bang
    · rw [dot] at unmarked
      exact absurd unmarked (by decide)
    · rw [bang] at unmarked
      exact absurd unmarked (by decide)
  rw [List.mem_append, not_or] at other
  simp [Value.truthOfText, normal, kept, other]

theorem parse_of_statement (heard : bared (Text.normalChars utterance.toList) = bare)
    (worded : bare ≠ []) (unconventional : conventional? (.ofList bare) = none)
    (untriggered : k.triggers.find? (containsWords bare) = none)
    (states : (Text.normalChars utterance.toList).getLast? ≠ some '?')
    (undecided : Value.truthOfText (.ofList bare) = none)
    (copula : copula? (bared (Text.singleSpaced utterance.toList)) = some (subject, object)) :
    k.parse utterance = .ok (k.statement subject object) := by
  simp only [parse, heard, if_neg worded, unconventional, untriggered, if_neg states, undecided,
    copula]
  rfl

/-- The subject of a statement is the topic of the only question that goes by it. -/
theorem find?_named {phrase : String} (member : q ∈ d.questions) (goes : q.GoesBy phrase)
    (alone : ∀ r ∈ d.questions, r.GoesBy phrase → r = q) :
    (ofDomain d).topics.find? (fun other => other.toList = phrase.toList) = some q := by
  have spelled := ofDomain_spells d
  obtain ⟨e, among, found, named, -⟩ := Lexicon.find?_of_mem spelled.longerTopics
    (p := fun other => decide (other.toList = phrase.toList))
    ((spelled.topics (phrase, q)).mpr ⟨member, goes⟩) (by simp)
  obtain ⟨asked, called⟩ := (spelled.topics e).mp among
  have same : e.1 = phrase := by simpa [String.toList_inj] using named
  rw [found, alone e.2 asked (same ▸ called)]

/-- The sentence begins with its article and ends as the value does. -/
theorem sentence_ends (topic : List Char) (spaced : Text.singleSpaced object = object)
    (solid : Text.words object ≠ []) :
    sentence topic object ≠ [] ∧ Text.trimChars (sentence topic object) = sentence topic object ∧
      (sentence topic object).getLast? = object.getLast? := by
  have nonempty : object ≠ [] := by
    rintro rfl
    simp at solid
  have ends : (sentence topic object).getLast? = object.getLast? := by
    rw [sentence, Text.getLast?_append_cons (by simp), Text.getLast?_append_cons (by simp),
      Text.getLast?_append_cons nonempty]
  refine ⟨List.append_ne_nil_of_left_ne_nil (by decide) _, ?_, ends⟩
  refine Text.trimChars_eq_self (fun c first => ?_) fun c last => ?_
  · cases first
    decide
  · rw [ends, ← spaced] at last
    exact Text.getLast?_intercalate (Text.solid_words _) c last

/-- The sentence is heard as a statement on its topic. -/
theorem parse_sentence (said : utterance.toList = sentence topic object ++ ['.'])
    (untriggered : ∀ e ∈ d.triggers, containsWords
      (bared (Text.normalChars utterance.toList)) (Text.normalize e.2) = false)
    (worded : Text.words topic ≠ []) (plain : ∀ w ∈ Text.words topic, isCopula w = false)
    (solid : Text.words object ≠ []) (spaced : Text.singleSpaced object = object)
    (last : ∀ c, object.getLast? = some c → isPunctuation c = false) :
    (ofDomain d).parse utterance =
      .ok ((ofDomain d).statement (Text.normalChars topic) object) := by
  obtain ⟨nonempty, trimmed, ends⟩ := sentence_ends topic spaced solid
  rw [← ends] at last
  obtain ⟨text, bare, raw⟩ := prepared_marked nonempty trimmed last
    (show isPunctuation '.' = true by decide)
  rw [← said] at text bare raw
  obtain ⟨rest, article⟩ := normalChars_sentence topic object
  have other := not_mem_of_article rest
  rw [← article, List.append_assoc, List.mem_append, not_or] at other
  have undecided := truthOfText_eq_none (Text.normalChars_normalChars _)
    (unpunctuated_normalChars trimmed last) other.2
  have states : (Text.normalChars utterance.toList).getLast? ≠ some '?' := by
    rw [text, List.getLast?_concat]
    decide
  have copula := copula?_sentence worded plain solid
  rw [← raw, spaced] at copula
  rw [bare] at untriggered
  exact parse_of_statement bare (by simp [article]) (conventional?_eq_none other.1)
    (find?_triggers_eq_none untriggered) states undecided copula

/-- A fact that the system states can be said back to it. The fact settles a question of the domain;
its value is one that is read as it is worded, and the topic is worded without the word "is" in any
case, and in another way than every other topic, whatever article it begins with. If the wording of
the fact holds no trigger, it is heard as a full answer to the question, and that answer settles the
question by the same fact. -/
theorem fact_said_back (t : Templates) (speaker : Speaker) (member : q ∈ d.questions)
    (settles : q.resolution a = some p)
    (untriggered : ∀ e ∈ d.triggers, containsWords
      (bared (Text.normalChars (t.render (.assert speaker p)).toList)) (Text.normalize e.2) = false)
    (worded : Text.isBlankText (Text.spaced q.topic) = false)
    (plain : ∀ w ∈ Text.words (Text.spaced q.topic).toList, isCopula w = false)
    (alone : ∀ r ∈ d.questions, r.GoesBy (Text.normalize (Text.spaced q.topic)) → r = q)
    (sayable : p.value.Sayable) :
    ∃ v, (ofDomain d).parse (t.render (.assert speaker p)) = .ok (.answer .user (.full q.topic v)) ∧
      q.resolution (.full q.topic v) = some p := by
  refine ⟨_, ?_, resolution_of_sayable settles sayable⟩
  obtain ⟨-, filled, about, -⟩ := Question.resolution_eq_some.mp
    (Question.resolution_ofProposition settles)
  obtain ⟨spaced, last⟩ := wording_of_sayable sayable
  have said : (t.render (.assert speaker p)).toList =
      sentence (Text.spaced q.topic).toList p.value.wording.toList ++ ['.'] := by
    simp [Templates.render, Move.assert, Templates.renderFact, sentence, about]
  have topic : Text.words (Text.spaced q.topic).toList ≠ [] := by
    rw [Ne, Text.words_eq_nil, Bool.not_eq_true]
    exact worded
  have object : Text.words p.value.wording.toList ≠ [] := by
    rw [Ne, Text.words_eq_nil, Bool.not_eq_true]
    exact Question.isBlankText_wording filled
  have named := find?_named member (.inr rfl) alone
  rw [Text.toList_normalize] at named
  rw [parse_sentence said untriggered topic plain object spaced last, statement, named]

/-- What the weather is like, under a topic that begins with an article, and whether it is windy. -/
def theWeather : Question := .wh "x" "the_weather" (.ofList [("one_of", "Sunny spells|rain")])

def windy : Question := .wh "x" "windy" (.ofList [("type", "bool")])

def forecast : Domain where
  name := "forecast"
  questions := [theWeather, windy]
  distinct_topics := by decide
  tasks := .ofList [("tell", ⟨["weather forecast"], true, [.findout theWeather]⟩)]

theorem weather_said_back :
    (theWeather ∈ forecast.questions ∧
      theWeather.resolution (.short (.text "SUNNY spells")) =
        some ⟨"the_weather", .text "Sunny spells"⟩ ∧
      (Templates.ofDomain forecast).render (.assert .system ⟨"the_weather", .text "Sunny spells"⟩) =
        "The the weather is Sunny spells." ∧
      ∃ v, (ofDomain forecast).parse "The the weather is Sunny spells." =
          .ok (.answer .user (.full "the_weather" v)) ∧
        theWeather.resolution (.full "the_weather" v) =
          some ⟨"the_weather", .text "Sunny spells"⟩) ∧
    windy ∈ forecast.questions ∧
      windy.resolution (.short (.text "nope")) = some ⟨"windy", .bool false⟩ ∧
      ∃ v, (ofDomain forecast).parse "The windy is no." =
          .ok (.answer .user (.full "windy" v)) ∧
        windy.resolution (.full "windy" v) = some ⟨"windy", .bool false⟩ := by
  have first : theWeather ∈ forecast.questions := by decide
  have second : windy ∈ forecast.questions := by decide
  have sunny : theWeather.resolution (.short (.text "SUNNY spells")) =
      some ⟨"the_weather", .text "Sunny spells"⟩ := by decide +kernel
  have calm : windy.resolution (.short (.text "nope")) = some ⟨"windy", .bool false⟩ := by
    decide +kernel
  have sayable : (Value.text "Sunny spells").Sayable :=
    .text (by decide +kernel) (by simp [isPunctuation]) (by decide +kernel)
  have stated : (Templates.ofDomain forecast).render
      (.assert .system ⟨"the_weather", .text "Sunny spells"⟩) =
        "The the weather is Sunny spells." := by decide +kernel
  have denied : (Templates.ofDomain forecast).render (.assert .system ⟨"windy", .bool false⟩) =
      "The windy is no." := by decide +kernel
  have apart : ∀ q ∈ forecast.questions, ∀ r ∈ forecast.questions,
      r.GoesBy (Text.normalize (Text.spaced q.topic)) → r = q := by
    unfold Question.GoesBy
    decide +kernel
  have weather := fact_said_back (Templates.ofDomain forecast) .system first sunny
    (by decide +kernel) (by decide +kernel) (by decide +kernel) (apart _ first) sayable
  have wind := fact_said_back (Templates.ofDomain forecast) .system second calm
    (by decide +kernel) (by decide +kernel) (by decide +kernel) (apart _ second) (.bool false)
  exact ⟨⟨first, sunny, stated, stated ▸ weather⟩, second, calm, denied ▸ wind⟩

end Keywords
end Dialogue
