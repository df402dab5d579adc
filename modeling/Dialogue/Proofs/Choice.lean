import Dialogue.Proofs.Accommodation
import Dialogue.Proofs.Consistency
import Dialogue.Proofs.Vocabulary

/-!
Choosing an option by saying it. The interpreter makes a value of what is said, and the question
compares the wording of that value with its options. Both go through normal forms, so an option
comes out as itself, as long as nothing else in it is understood first and the value is worded like
the option.
-/
namespace Dialogue

namespace Text

variable {s : List Char} {c : Char}

theorem solid_of_digits? (reads : digits? s ≠ none) : ∀ c ∈ s, isBlank c = false := by
  intro c member
  unfold digits? at reads
  split at reads
  · rename_i shape
    exact isBlank_of_isNumeral (isNumeral_of_isDigit (List.all_eq_true.mp shape.2 c member))
  · exact absurd rfl reads

/-- What is read as an integer has no blank in it. -/
theorem solid_of_int64? {n : Int64} (reads : int64? s = some n) : ∀ c ∈ s, isBlank c = false := by
  unfold int64? at reads
  split at reads
  · refine List.forall_mem_cons.mpr ⟨by decide, solid_of_digits? fun none => ?_⟩
    simp [none] at reads
  · refine List.forall_mem_cons.mpr ⟨by decide, solid_of_digits? fun none => ?_⟩
    simp [none] at reads
  · exact solid_of_digits? fun none => by simp [none] at reads

end Text

/-! What the interpreter makes of an option. -/

namespace Keywords

variable {d : Domain} {q : Question} {o : String} {k : Keywords}

/-- Nothing in a text is understood before it is taken for a short answer. -/
structure Unclaimed (d : Domain) (o : String) : Prop where
  unconventional :
    Text.normalize o ∉ greetings ++ farewells ++ notUnderstood ++ acknowledgements
  untriggered : ∀ t ∈ d.triggers,
    containsWords (Text.normalChars o.toList) (Text.normalize t.2) = false
  plain : ∀ w ∈ Text.words o.toList, isCopula w = false
  unpunctuated : ∀ c, o.toList.getLast? = some c → isPunctuation c = false

instance (d : Domain) (o : String) : Decidable (Unclaimed d o) :=
  decidable_of_iff
    (Text.normalize o ∉ greetings ++ farewells ++ notUnderstood ++ acknowledgements ∧
      (∀ t ∈ d.triggers, containsWords (Text.normalChars o.toList) (Text.normalize t.2) = false) ∧
      (∀ w ∈ Text.words o.toList, isCopula w = false) ∧
      o.toList.getLast?.all (fun c => !isPunctuation c) = true)
    ⟨fun ⟨conventional, triggers, plain, last⟩ =>
        ⟨conventional, triggers, plain, by simpa [Option.all_eq_true] using last⟩,
      fun h => ⟨h.unconventional, h.untriggered, h.plain,
        by simpa [Option.all_eq_true] using h.unpunctuated⟩⟩

theorem copula?_eq_none {s : List Char} (plain : ∀ w ∈ s.splitOn ' ', isCopula w = false) :
    copula? s = none := by
  have none : (s.splitOn ' ').dropWhile (fun w => !isCopula w) = [] :=
    List.dropWhile_eq_nil_iff.mpr fun w member => by simp [plain w member]
  simp [copula?, none]

/-- The words of a text that nothing claims are a short answer. -/
theorem parse_of_unclaimed (h : Unclaimed d o) (trimmed : Text.trim o = o)
    (solid : Text.isBlankText o = false) : (ofDomain d).parse o = .ok
      (match Value.truthOfText o with
      | some b => .answer .user (.short (.bool b))
      | none => (Move.answer .user (.short (valueOf (Text.singleSpaced o.toList)))).withConfidence
          shortAnswerConfidence) := by
  have trimmed : Text.trimChars o.toList = o.toList := by
    simpa [Text.trim] using congrArg String.toList trimmed
  have nonblank : Text.words o.toList ≠ [] := by
    rw [Ne, Text.words_eq_nil, Bool.not_eq_true]
    exact solid
  have nonempty : Text.normalChars o.toList ≠ [] := by
    rw [Ne, Text.normalChars_eq_nil, Bool.not_eq_true]
    exact solid
  have last := unpunctuated_normalChars trimmed h.unpunctuated
  have bare := bared_normalChars trimmed h.unpunctuated
  have raw := bared_singleSpaced trimmed h.unpunctuated
  have conventional : conventional? (.ofList (Text.normalChars o.toList)) = none :=
    conventional?_eq_none h.unconventional
  have untriggered := find?_triggers_eq_none h.untriggered
  have unasked : (Text.normalChars o.toList).getLast? ≠ some '?' := fun final =>
    absurd (last '?' final) (by decide)
  have truth : Value.truthOfText (.ofList (Text.normalChars o.toList)) = Value.truthOfText o := by
    simp [Value.truthOfText]
  have unstated : copula? (Text.singleSpaced o.toList) = none :=
    copula?_eq_none (by rw [Text.splitOn_singleSpaced nonblank]; exact h.plain)
  simp only [parse, bare, raw, if_neg nonempty, conventional, untriggered, if_neg unasked, truth,
    unstated]
  cases Value.truthOfText o <;> rfl

end Keywords

/-! What the question makes of it. -/

namespace Question

variable {q : Question} {o : String} {options : List String} {v : Value}

/-- The question offers an option: an alternative, or one that it lists for a value of any type and
that no option before it has the normal form of. -/
inductive Offers : Question → String → Prop
  | alternative {topic alternatives o} (member : o ∈ alternatives) :
      Offers (.alt topic alternatives) o
  | listed {var topic constraints listed o} (untyped : constraints.get? typeConstraint = none)
      (options : constraints.get? oneOfConstraint = some listed)
      (names : exactOption (splitOptions listed) (.text o) = some o) :
      Offers (.wh var topic constraints) o

/-- The option is worded like the value that is made of it. One that stands for a truth value is
none for a question for a value; as an alternative it has to be the word for it. One that writes an
integer has to be its shortest text. -/
structure Worded (q : Question) (o : String) : Prop where
  truth : ∀ b, Value.truthOfText o = some b →
    (∃ topic alternatives, q = .alt topic alternatives) ∧
      Text.normalize o = Text.normalize (Value.bool b).wording
  integer : ∀ n, Text.int64? o.toList = some n → o = Text.ofInt64 n

/-- Words that stand neither for a truth value nor for an integer are worded as they are. -/
theorem Worded.of_plain (untrue : Value.truthOfText o = none)
    (uncounted : Text.int64? o.toList = none) : q.Worded o :=
  ⟨by simp [untrue], by simp [uncounted]⟩

/-- Options that differ in their normal forms name themselves. -/
theorem exactOption_of_mem (distinct : (options.map Text.normalize).Nodup) (member : o ∈ options) :
    exactOption options (.text o) = some o := by
  cases found : exactOption options (.text o) with
  | none => simpa [Value.wording] using List.find?_eq_none.mp found o member
  | some other =>
    obtain ⟨among, normal⟩ := exactOption_eq_some found
    rw [List.inj_on_of_nodup_map distinct among member normal]

/-- An option that is offered is trimmed and not blank. -/
theorem Offers.tidy (offered : q.Offers o) (built : q.Built) :
    Text.trim o = o ∧ Text.isBlankText o = false := by
  cases offered with
  | alternative member =>
    have trimmed := built.tidy.options _ rfl o member
    refine ⟨trimmed, ?_⟩
    rw [Text.isBlankText, ← Bool.not_eq_true, ← Text.trimChars_eq_nil]
    intro blank
    exact built.alternatives.2.1 o member (trimmed.symm.trans (by simp [Text.trim, blank]))
  | listed _ _ names => exact mem_splitOptions (exactOption_eq_some names).1

theorem Offers.bind? (offered : q.Offers o) (built : q.Built) (stays : trimmed v = v)
    (same : Text.normalize v.wording = Text.normalize o)
    (kind : ∀ b, v = .bool b → ∃ topic alternatives, q = .alt topic alternatives) :
    q.bind? v = some (.text o) := by
  have chosen {options : List String} (names : exactOption options (.text o) = some o) :
      exactOption options v = some o :=
    (exactOption_congr (w := .text o) same).trans names
  cases offered with
  | alternative member =>
    simp [Question.bind?, chosen (exactOption_of_mem built.alternatives.2.2 member)]
  | @listed _ _ constraints _ _ untyped options names =>
    have under : underOptions constraints v = some (.text o) := by
      simp only [underOptions, options, chosen names, Option.map_some]
    have any : underType constraints v = some v := by
      cases v with
      | bool b =>
        obtain ⟨_, _, other⟩ := kind b rfl
        cases other
      | int n => simp [underType, untyped]
      | text t => simp [underType, untyped]
    simp [Question.bind?, stays, any, under]

/-- A short answer that is worded like an option settles the question with that option. -/
theorem Offers.resolution (offered : q.Offers o) (built : q.Built) (stays : trimmed v = v)
    (same : Text.normalize v.wording = Text.normalize o)
    (kind : ∀ b, v = .bool b → ∃ topic alternatives, q = .alt topic alternatives) :
    q.resolution (.short v) = some ⟨q.topic, .text o⟩ := by
  have solid : v.isEmpty = false := by
    cases v with
    | bool | int => rfl
    | text t => exact (Text.isBlankText_congr same).trans (offered.tidy built).2
  exact resolution_eq_some.mpr ⟨rfl, solid, rfl, offered.bind? built stays same kind⟩

end Question

namespace Keywords

variable {d : Domain} {q : Question} {o : String} {m : Move} {v : Value}

/-- Whoever says the option while the question is topmost chooses it: the words are integrated as an
answer, and the option is committed to for the topic of the question. -/
def Chooses (d : Domain) (q : Question) (o : String) : Prop :=
  ∃ m, (ofDomain d).parse o = .ok m ∧ ∀ s : State, s.top = some q →
    (s.integrate d {} (some m)).rule = some .integrateAnswer ∧
      (s.integrate d {} (some m)).state.commitments =
        s.commitments.insert ⟨q.topic, .text o⟩

theorem chooses_of_resolution (parsed : (ofDomain d).parse o = .ok m)
    (answers : m.answer? = some (.short v)) (sure : m.confidence.lt ({} : Config).threshold = false)
    (settles : q.resolution (.short v) = some ⟨q.topic, .text o⟩) : Chooses d q o := by
  refine ⟨m, parsed, fun s top => ?_⟩
  obtain ⟨waiting, waits, -, act, addresses, certainty⟩ := s.setPending_some m
  have heard : (s.setPending (some m)).Heard {} waiting (.short v) :=
    ⟨waits, (certainty _).trans sure, by rw [← answers, Move.answer?, Move.answer?, act, addresses]⟩
  simp [heard.settles top settles]

/-- What stands in a text is worded like the text, unless it is an integer spelled otherwise. -/
theorem valueOf_wording (trim : Text.trim o = o)
    (integer : ∀ n, Text.int64? o.toList = some n → o = Text.ofInt64 n) :
    Question.trimmed (valueOf (Text.singleSpaced o.toList)) =
        valueOf (Text.singleSpaced o.toList) ∧
      Text.normalize (valueOf (Text.singleSpaced o.toList)).wording = Text.normalize o ∧
      ∀ b, valueOf (Text.singleSpaced o.toList) ≠ .bool b := by
  unfold valueOf
  cases reads : Text.int64? (Text.singleSpaced o.toList) with
  | some n =>
    have spaced : Text.trimChars o.toList = Text.singleSpaced o.toList :=
      Text.trimChars_of_singleSpaced (Text.solid_of_int64? reads)
    have trimmed : Text.trimChars o.toList = o.toList := by
      simpa [Text.trim] using congrArg String.toList trim
    have shortest := integer n (by rw [← trimmed, spaced, reads])
    exact ⟨rfl, by rw [shortest]; rfl, by simp⟩
  | none =>
    refine ⟨?_, ?_, by simp⟩
    · simp [Question.trimmed, Text.trim, Text.singleSpaced,
        Text.trimChars_intercalate (Text.solid_words _)]
    · simp [Value.wording, Text.normalize, Text.normalChars_singleSpaced]

/-- Every option can be chosen by saying it. In a domain that was loaded from a file, whoever says
an option of the topmost question chooses that option, if nothing in the option is understood first
and the option is worded like the value that is made of it. A truth value is never taken for an
option of a question for a value: such an option is heard as a bare yes or no, which leaves the
question open. -/
theorem options_chosen_by_saying {text : String} (loaded : Domain.ofToml text = .ok d)
    (member : q ∈ d.questions) (offered : q.Offers o) (unclaimed : Unclaimed d o) :
    (q.Worded o → Chooses d q o) ∧
      ∀ b, Value.truthOfText o = some b → (∀ topic alternatives, q ≠ .alt topic alternatives) →
        (ofDomain d).parse o = .ok (.answer .user (.short (.bool b))) ∧
          q.resolution (.short (.bool b)) = none := by
  have built := Domain.built_of_ofToml loaded q member
  obtain ⟨trimmed, solid⟩ := offered.tidy built
  have parsed := parse_of_unclaimed unclaimed trimmed solid
  constructor
  · intro worded
    cases truth : Value.truthOfText o with
    | some b =>
      obtain ⟨alternatives, same⟩ := worded.truth b truth
      simp only [truth] at parsed
      have settles := offered.resolution (v := .bool b) built rfl same.symm fun _ _ => alternatives
      have sure : Binary32.one.lt ({} : Config).threshold = false := by decide +kernel
      exact chooses_of_resolution parsed rfl sure settles
    | none =>
      obtain ⟨stays, same, kind⟩ := valueOf_wording trimmed worded.integer
      simp only [truth] at parsed
      have settles := offered.resolution built stays same fun b is => (kind b is).elim
      have sure : shortAnswerConfidence.clampUnit.lt ({} : Config).threshold = false := by
        decide +kernel
      exact chooses_of_resolution parsed rfl sure settles
  · intro b truth other
    rw [truth] at parsed
    refine ⟨parsed, ?_⟩
    cases offered with
    | alternative => exact (other _ _ rfl).elim
    | listed untyped => simp [Question.resolution, Question.bind?, Question.underType, untyped,
        Question.trimmed, Answer.short]

/-- Where to walk, and what to drink then. Some of the options are words for truth values, begin
with zeros, or differ in nothing but case. -/
def walkFile : String := "name = \"walk\"
[[questions]]
topic = \"side\"
kind = \"alt\"
alternatives = [\"left\", \"right\", \"yes\", \"007\"]
[[questions]]
topic = \"drink\"
kind = \"wh\"
constraints.one_of = \"yes|Tea|tea\"
"

def side : Question := .alt "side" ["left", "right", "yes", "007"]

def drink : Question := .wh "x" "drink" (.ofList [("one_of", "yes|Tea|tea")])

def walk : Domain := { name := "walk", questions := [side, drink], distinct_topics := by decide }

theorem walk_loaded : Domain.ofToml walkFile = .ok walk := by
  obtain ⟨d, loaded, rfl⟩ := exists_ok_of_decide (x := Domain.ofToml walkFile) (P := (· = walk))
    (by decide +kernel)
  exact loaded

theorem left_chosen : Domain.ofToml walkFile = .ok walk ∧ side ∈ walk.questions ∧
    drink ∈ walk.questions ∧
    (Unclaimed walk "left" ∧ side.Worded "left" ∧ Chooses walk side "left") ∧
    (Unclaimed walk "yes" ∧ side.Worded "yes" ∧ Chooses walk side "yes") ∧
    (Unclaimed walk "Tea" ∧ drink.Worded "Tea" ∧ Chooses walk drink "Tea") ∧
    drink.resolution (.short (.bool true)) = none := by
  have member : side ∈ walk.questions := by decide
  have among : drink ∈ walk.questions := by decide
  have left : Unclaimed walk "left" := by decide +kernel
  have yes : Unclaimed walk "yes" := by decide +kernel
  have tea : Unclaimed walk "Tea" := by decide +kernel
  have holds : Value.truthOfText "yes" = some true := by decide +kernel
  have offersTea : drink.Offers "Tea" := .listed (by decide) rfl (by decide +kernel)
  have offersYes : drink.Offers "yes" := .listed (by decide) rfl (by decide +kernel)
  have affirmed : side.Worded "yes" := by
    have uncounted : Text.int64? "yes".toList = none := by decide +kernel
    refine ⟨fun b truth => ⟨⟨_, _, rfl⟩, ?_⟩, fun n counts => nomatch uncounted.symm.trans counts⟩
    cases holds.symm.trans truth
    rfl
  have wordedLeft : side.Worded "left" := .of_plain (by decide +kernel) (by decide +kernel)
  have wordedTea : drink.Worded "Tea" := .of_plain (by decide +kernel) (by decide +kernel)
  have chosen := options_chosen_by_saying walk_loaded member (.alternative (by decide)) left
  have agreed := options_chosen_by_saying walk_loaded member (.alternative (by decide)) yes
  have drunk := options_chosen_by_saying walk_loaded among offersTea tea
  have heard := (options_chosen_by_saying walk_loaded among offersYes yes).2 true holds nofun
  exact ⟨walk_loaded, member, among, ⟨left, wordedLeft, chosen.1 wordedLeft⟩,
    ⟨yes, affirmed, agreed.1 affirmed⟩, ⟨tea, wordedTea, drunk.1 wordedTea⟩, heard.2⟩

/-- Saying the option when its question has just been put does not choose it. -/
def misses (d : Domain) (q : Question) (o : String) : Bool :=
  match (ofDomain d).parse o with
  | .ok m =>
    let s := State.fresh.pushQuestion q
    let x := s.integrate d {} (some m)
    x.rule ≠ some .integrateAnswer || x.state.commitments ≠ s.commitments.insert ⟨q.topic, .text o⟩
  | .error _ => true

theorem not_chooses_of_misses (h : misses d q o = true) : ¬Chooses d q o := by
  rintro ⟨m, parsed, chosen⟩
  obtain ⟨rule, commitments⟩ := chosen (State.fresh.pushQuestion q) (by simp [State.top])
  simp only [misses, parsed, rule, commitments] at h
  simp at h

/-- An alternative that is a bare yes without being worded so, a number with zeros in front, an
option that is a bare yes to a question for a value, and one that differs in case from one before
it. -/
def missedChoices : List (Question × String) :=
  [(side, "right"), (side, "007"), (drink, "yes"), (drink, "tea")]

theorem choices_missed : Domain.ofToml walkFile = .ok walk ∧ ∀ c ∈ missedChoices,
    c.1 ∈ walk.questions ∧ (∃ options ∈ c.1.options, options.Nodup ∧ c.2 ∈ options) ∧
      Unclaimed walk c.2 ∧ ¬Chooses walk c.1 c.2 := by
  have missed : ∀ c ∈ missedChoices, c.1 ∈ walk.questions ∧
      (∃ options ∈ c.1.options, options.Nodup ∧ c.2 ∈ options) ∧
        Unclaimed walk c.2 ∧ misses walk c.1 c.2 = true := by
    decide +kernel
  refine ⟨walk_loaded, fun c member => ?_⟩
  obtain ⟨asked, offered, unclaimed, misses⟩ := missed c member
  exact ⟨asked, offered, unclaimed, not_chooses_of_misses misses⟩

end Keywords
end Dialogue
