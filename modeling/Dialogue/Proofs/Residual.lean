import Dialogue.Proofs.Discussion
import Dialogue.Proofs.Narrowing

/-!
What exactly a partial answer leaves of a question. The residual is over the options in whose normal
form the value occurs, in their order; there is none where these are fewer than two, where they are
all of the options, or where two of them have one normal form, as no question for alternatives can
be built over them then. Each residual has fewer options than what it was left of, so only so many
answers can narrow a question down.
-/
namespace Dialogue

namespace Question

variable {q r q₀ : Question} {a : Answer} {residuals : List Question}

/-- The options, none for a question that does not close over any. -/
def listed (q : Question) : List String := q.options.getD []

/-- The options, in their order, in whose normal form that of the value occurs. -/
def covered (q : Question) (a : Answer) : List String :=
  q.listed.filter fun o =>
    (Text.normalize a.value.wording).toList <:+: (Text.normalize o).toList

/-- The answer is about the question and does not settle it, and the residual is over the options
that it covers, two or more but not all. -/
structure Leaves (q : Question) (a : Answer) (r : Question) : Prop where
  shape : r = alt q.topic (q.covered a)
  key : ∀ k, a.question = some k → k = q.key
  topic : ∀ p, a.predicate = some p → p = q.topic
  worded : Text.normalize a.value.wording ≠ ""
  unsettled : a.resolves q = false
  several : 2 ≤ (q.covered a).length
  fewer : (q.covered a).length < q.listed.length

theorem partialMatches_eq (worded : Text.normalize a.value.wording ≠ "") :
    partialMatches q.listed a.value = q.covered a := by
  have solid : Text.normalChars a.value.wording.toList ≠ [] := by
    simpa [Text.normalize] using worded
  simp [partialMatches, solid, covered, Text.normalize, ← Text.occursIn_iff]

theorem partialMatches_of_blank (blank : Text.normalize a.value.wording = "") :
    partialMatches q.listed a.value = [] := by
  have empty : Text.normalChars a.value.wording.toList = [] := by
    simpa [Text.normalize] using blank
  simp [partialMatches, empty]

theorem addresses_iff : a.addresses q = true ↔
    (∀ k, a.question = some k → k = q.key) ∧ ∀ p, a.predicate = some p → p = q.topic := by
  cases referred : a.question <;> cases named : a.predicate <;>
    simp [Answer.addresses, referred, named]

theorem Built.topic_ne (h : q.Built) : q.topic ≠ "" := by
  cases h with
  | wh made =>
    obtain ⟨_, named, _, rfl⟩ := buildWh_eq_ok.mp made
    exact named
  | yesNo made =>
    obtain ⟨named, rfl⟩ := buildYesNo_eq_ok.mp made
    exact named
  | alt made =>
    obtain ⟨named, _, _, rfl⟩ := buildAlt_eq_ok.mp made
    exact named

theorem listed_eq_of_options {options : List String} (closes : q.options = some options) :
    q.listed = options := by
  rw [listed, closes, Option.getD_some]

/-- Options that are covered are trimmed, and not empty unless the value is blank. -/
theorem Built.covered (built : q.Built) (worded : Text.normalize a.value.wording ≠ "") :
    ∀ o ∈ q.covered a, Text.trim o = o ∧ o ≠ "" := by
  intro o member
  obtain ⟨among, holds⟩ := List.mem_filter.mp member
  constructor
  · cases closes : q.options with
    | none => simp [listed, closes] at among
    | some options =>
      rw [listed_eq_of_options closes] at among
      exact built.tidy.options options closes o among
  · rintro rfl
    have part : (Text.normalize a.value.wording).toList <:+: (Text.normalize "").toList :=
      of_decide_eq_true holds
    have nothing : (Text.normalize "").toList = [] := by decide +kernel
    rw [nothing, List.infix_nil, String.toList_eq_nil_iff] at part
    exact worded part

/-- Over the options that are covered, a question for alternatives can be built if they are two or
more that differ in their normal forms. -/
theorem Built.buildAlt_covered (built : q.Built) (worded : Text.normalize a.value.wording ≠ "") :
    buildAlt q.topic (q.covered a) = .ok r ↔
      r = .alt q.topic (q.covered a) ∧ 2 ≤ (q.covered a).length ∧
        ((q.covered a).map Text.normalize).Nodup := by
  have trimmed : (q.covered a).map Text.trim = q.covered a :=
    (List.map_congr_left fun o member => (built.covered worded o member).1).trans (List.map_id' _)
  have named : ∀ o ∈ q.covered a, o ≠ "" := fun o member => (built.covered worded o member).2
  rw [buildAlt_eq_ok, trimmed, built.tidy.topic, alternativeFault?_eq_none]
  constructor
  · rintro ⟨_, several, ⟨_, _, distinct⟩, shape⟩
    exact ⟨shape, several, distinct⟩
  · rintro ⟨shape, several, distinct⟩
    exact ⟨built.topic_ne, several, ⟨named, by simp, distinct⟩, shape⟩

theorem toOption_eq_some {ε α : Type} {x : Except ε α} {y : α} :
    x.toOption = some y ↔ x = .ok y := by
  cases x <;> simp [Except.toOption]

/-- The conditions for a residual, in the order in which they are looked at. -/
theorem combines_iff : q.combines a = some r ↔
    a.addresses q = true ∧ a.resolves q = false ∧
      2 ≤ (partialMatches q.listed a.value).length ∧
      (partialMatches q.listed a.value).length ≠ q.listed.length ∧
      buildAlt q.topic (partialMatches q.listed a.value) = .ok r := by
  cases closes : q.options with
  | none =>
    have nothing : partialMatches q.listed a.value = [] := by simp [listed, closes, partialMatches]
    simp [combines, closes, nothing]
  | some options =>
    simp only [combines, closes, listed_eq_of_options closes, Option.bind_eq_bind,
      Option.bind_some, ← toOption_eq_some]
    by_cases here : a.addresses q = true
    · by_cases settles : a.resolves q = true
      · simp [settles]
      · by_cases few : (partialMatches options a.value).length < 2
        · have tooFew : ¬2 ≤ (partialMatches options a.value).length := Nat.not_le.mpr few
          simp [few, tooFew]
        · have enough : 2 ≤ (partialMatches options a.value).length := Nat.not_lt.mp few
          by_cases all : (partialMatches options a.value).length = options.length
          · simp [all]
          · simp [here, settles, few, enough, all]
    · simp [here]

/-- What remains after an answer is what it leaves, provided that the options it covers differ in
their normal forms. -/
theorem Built.combines_eq_some (built : q.Built) : q.combines a = some r ↔
    q.Leaves a r ∧ ((q.covered a).map Text.normalize).Nodup := by
  rw [combines_iff]
  by_cases worded : Text.normalize a.value.wording = ""
  · constructor
    · rintro ⟨_, _, several, _⟩
      simp [partialMatches_of_blank worded] at several
    · rintro ⟨leaves, _⟩
      exact absurd worded leaves.worded
  · have atMost : (q.covered a).length ≤ q.listed.length := List.length_filter_le ..
    rw [partialMatches_eq worded, built.buildAlt_covered worded, addresses_iff]
    constructor
    · rintro ⟨⟨key, topic⟩, unsettled, several, fewer, shape, _, distinct⟩
      exact ⟨⟨shape, key, topic, worded, unsettled, several, by omega⟩, distinct⟩
    · rintro ⟨leaves, distinct⟩
      have fewer := leaves.fewer
      exact ⟨⟨leaves.key, leaves.topic⟩, leaves.unsettled, leaves.several, by omega, leaves.shape,
        leaves.several, distinct⟩

theorem Leaves.listed (leaves : q.Leaves a r) : r.listed = q.covered a := by
  rw [leaves.shape]
  rfl

/-- Alternatives differ in their normal forms, and so do those that an answer covers. -/
theorem nodup_covered_alt {topic : String} {alternatives : List String}
    (built : (alt topic alternatives).Built) (a : Answer) :
    (((alt topic alternatives).covered a).map Text.normalize).Nodup := by
  obtain ⟨_, _, distinct⟩ := built.alternatives
  exact distinct.sublist (List.filter_sublist.map _)

/-- A chain of residuals is no longer than the options that it has left out. -/
theorem Narrowing.length (built : q₀.Built) (chain : Narrowing q₀ residuals) :
    (residuals.headD q₀).Built ∧
      (residuals.headD q₀).listed.length + residuals.length ≤ q₀.listed.length ∧
      (residuals ≠ [] → 2 ≤ (residuals.headD q₀).listed.length) := by
  induction chain with
  | start => exact ⟨built, Nat.le_refl _, by simp⟩
  | narrowed _ narrows ih =>
    obtain ⟨builtLast, bound, _⟩ := ih
    obtain ⟨leaves, _⟩ := builtLast.combines_eq_some.mp narrows
    have fewer := leaves.fewer
    have several := leaves.several
    rw [← leaves.listed] at fewer several
    refine ⟨.alt (combines_iff.mp narrows).2.2.2.2, ?_, fun _ => several⟩
    simp only [List.headD_cons, List.length_cons]
    omega

end Question

namespace State

variable {d : Domain} {c : Config} {s t : State} {q r q₀ : Question} {given : Option Move}
  {residuals : List Question}

/-- An answer was integrated, and now there is a question directly above another one, which was on
top of the discussion or has been put there. -/
structure Deepens (s t : State) (q r : Question) : Prop where
  answered : ∃ m a, t.moves = s.moves ++ [(m, true)] ∧ m.answer? = some a
  above : ∃ below, t.qud = r :: q :: below ∧ (s.qud = q :: below ∨ s.qud = below)

/-- An answer that puts a question above another one has narrowed that one down. -/
theorem Deepens.combines (h : s.Deepens (s.integrate d c given).state q r) :
    ∃ a, q.combines a = some r := by
  obtain ⟨m, a, recorded, answers⟩ := h.answered
  obtain ⟨below, above, before⟩ := h.above
  have longer : s.qud.length < (s.integrate d c given).state.qud.length := by
    rw [above]
    rcases before with before | before <;> simp only [before, List.length_cons] <;> omega
  rcases s.integrate_discussed d c given with ⟨_, b, _, _, bound | narrowed⟩ | ⟨silent, _⟩
  · obtain ⟨q', _, _, _, qud⟩ := bound
    have shorter : (s.integrate d c given).state.qud.length ≤ s.qud.length := by
      rw [qud]
      split <;> simp
    omega
  · obtain ⟨narrowedDown, residual, narrows, _, qud⟩ := narrowed
    have same : residual = r ∧ narrowedDown = q := by
      -- the discussion has grown by one question if `q` was on top, and by two if it was not
      rcases qud with ⟨top, qud⟩ | qud <;> rcases before with before | before <;> grind [State.top]
    obtain ⟨rfl, rfl⟩ := same
    exact ⟨b, narrows⟩
  · simp [silent m recorded] at answers

/-- A stretch of a dialogue in which one answer after the other narrows down what the answer before
has left of a question, the last residual first. In between, anything may be called. -/
inductive Stretch (d : Domain) (c : Config) (q₀ : Question) : State → List Question → Prop
  | start {s : State} : Stretch d c q₀ s []
  | narrowed {s : State} {given : Option Move} {residuals : List Question} {r : Question}
      (h : Stretch d c q₀ s residuals)
      (deepens : s.Deepens (s.integrate d c given).state (residuals.headD q₀) r) :
      Stretch d c q₀ (s.integrate d c given).state (r :: residuals)
  | called {s : State} {residuals : List Question} (h : Stretch d c q₀ s residuals) (call : Call) :
      Stretch d c q₀ (call.run d c s) residuals

theorem Stretch.narrowing (h : Stretch d c q₀ s residuals) : q₀.Narrowing residuals := by
  induction h with
  | start => exact .start
  | narrowed _ deepens ih =>
    obtain ⟨_, narrows⟩ := deepens.combines
    exact .narrowed ih narrows
  | called _ _ ih => exact ih

end State

/-- The residual of a partial answer is exactly what the answer leaves, where the options that it
covers differ in their normal forms, as alternatives always do. It is built itself and has fewer
options. So no question can be narrowed down more often than it has options, less two, be it by
answers alone or in a dialogue. -/
theorem residual_exact (q : Question) (built : q.Built) :
    (∀ a r, q.combines a = some r ↔
      q.Leaves a r ∧ ((q.covered a).map Text.normalize).Nodup) ∧
    (∀ topic alternatives, q = .alt topic alternatives →
      ∀ a, ((q.covered a).map Text.normalize).Nodup) ∧
    (∀ a r, q.combines a = some r → r.Built ∧ r.listed = q.covered a ∧
      r.listed.length < q.listed.length) ∧
    (∀ residuals, q.Narrowing residuals → residuals.length ≤ q.listed.length - 2) ∧
    ∀ (d : Domain) (c : Config) (s : State) (residuals : List Question),
      State.Stretch d c q s residuals → residuals.length ≤ q.listed.length - 2 := by
  have atMost : ∀ residuals, q.Narrowing residuals → residuals.length ≤ q.listed.length - 2 := by
    intro residuals chain
    obtain ⟨_, bound, several⟩ := chain.length built
    cases residuals with
    | nil => exact Nat.zero_le _
    | cons r residuals =>
      have several := several (by simp)
      omega
  refine ⟨fun a r => built.combines_eq_some, ?_, ?_, atMost, ?_⟩
  · rintro topic alternatives rfl
    exact Question.nodup_covered_alt built
  · intro a r narrows
    obtain ⟨leaves, _⟩ := built.combines_eq_some.mp narrows
    exact ⟨.alt (Question.combines_iff.mp narrows).2.2.2.2, leaves.listed,
      leaves.listed ▸ leaves.fewer⟩
  · intro d c s residuals stretch
    exact atMost residuals stretch.narrowing

def paint : Question :=
  .wh "x" "paint" (OrderedMap.ofList [("one_of", "pale sea green|dark sea green|sea blue|sand")])

def painting : Domain := .ofTask "paint" [.findout paint]

def seaPaint : Question := .alt "paint" ["pale sea green", "dark sea green", "sea blue"]

def greenPaint : Question := .alt "paint" ["pale sea green", "dark sea green"]

def paintSought : State :=
  reached painting {} (Call.cycle .user (some (.request .user "paint")))

def paintDescribed (s : State) (word : String) : State :=
  (s.integrate painting {} (some (.answer .user (.short (.text word))))).state

/-- Four options can be narrowed down twice, and no more. -/
theorem residual_exact_paint : paint.Built ∧
    paint.combines (.short (.text " SEA")) = some seaPaint ∧
    State.Stretch painting {} paint (paintDescribed (paintDescribed paintSought "sea") "green")
      [greenPaint, seaPaint] ∧
    [greenPaint, seaPaint].length ≤ paint.listed.length - 2 ∧ paint.listed.length - 2 = 2 := by
  have built : paint.Built :=
    @Question.Built.wh paint "x" "paint" [("one_of", "pale sea green|dark sea green|sea blue|sand")]
      (by decide +kernel)
  obtain ⟨exact, _, _, _, atMost⟩ := residual_exact paint built
  have covered : paint.covered (.short (.text " SEA")) =
      ["pale sea green", "dark sea green", "sea blue"] := by decide +kernel
  have listed : paint.listed.length = 4 := by decide +kernel
  have leaves : paint.Leaves (.short (.text " SEA")) seaPaint :=
    ⟨covered ▸ rfl, nofun, nofun, by decide +kernel, by decide +kernel, by simp [covered],
      by simp [covered, listed]⟩
  have first : paintSought.Deepens (paintDescribed paintSought "sea") paint seaPaint :=
    ⟨⟨.answer .user (.short (.text "sea")), _, by decide +kernel, rfl⟩, [], by decide +kernel,
      by decide +kernel⟩
  have second : (paintDescribed paintSought "sea").Deepens
      (paintDescribed (paintDescribed paintSought "sea") "green") seaPaint greenPaint :=
    ⟨⟨.answer .user (.short (.text "green")), _, by decide +kernel, rfl⟩, [paint],
      by decide +kernel, by decide +kernel⟩
  have stretch := (State.Stretch.start.narrowed first).narrowed second
  exact ⟨built, (exact _ _).mpr ⟨leaves, covered ▸ by decide +kernel⟩, stretch,
    atMost _ _ _ _ stretch, by rw [listed]⟩

/-- Two options of these have one normal form. -/
def greys : Question := .wh "x" "shade" (OrderedMap.ofList [("one_of", "pale grey|Pale Grey|blue")])

/-- Nothing remains of an answer that covers two options with one normal form, although they are
fewer than all: no question for alternatives can be built over them. -/
theorem repeated_option_not_narrowed :
    Question.buildWh "x" "shade" [("one_of", "pale grey|Pale Grey|blue")] = .ok greys ∧
      greys.covered (.short (.text "grey")) = ["pale grey", "Pale Grey"] ∧
      greys.Leaves (.short (.text "grey")) (.alt "shade" ["pale grey", "Pale Grey"]) ∧
      greys.combines (.short (.text "grey")) = none ∧
      Question.buildAlt "shade" ["pale grey", "Pale Grey"] =
        .error (.repeatedAlternative "shade" "Pale Grey") := by
  have covered : greys.covered (.short (.text "grey")) = ["pale grey", "Pale Grey"] := by
    decide +kernel
  have listed : greys.listed.length = 3 := by decide +kernel
  have leaves : greys.Leaves (.short (.text "grey")) (.alt "shade" ["pale grey", "Pale Grey"]) :=
    ⟨covered ▸ rfl, nofun, nofun, by decide +kernel, by decide +kernel, by simp [covered],
      by simp [covered, listed]⟩
  exact ⟨by decide +kernel, covered, leaves, by decide +kernel, by decide +kernel⟩

end Dialogue
