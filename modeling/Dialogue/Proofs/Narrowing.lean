import Dialogue.Proofs.Housekeeping
import Dialogue.Proofs.Question

/-!
Questions that one answer after the other narrows down. Every option that is left over names itself
in all the lists that it has come down through, so what settles the last residual settles all the
questions before it, and they leave the discussion together. A type constraint is the exception: it
binds the question at the start but none of the residuals.
-/
namespace Dialogue

namespace Question

variable {q r q₀ : Question} {a b : Answer} {v : Value} {o : String} {options : List String}
  {residuals : List Question} {p : Proposition}

/-- The question lists the option, and the option's own wording names no other one there. -/
def Lists (q : Question) (o : String) : Prop :=
  ∃ options, q.options = some options ∧ exactOption options (.text o) = some o

/-- The option, read as a value of the type, names an option. Without a type, or for a text, every
option will do. -/
def fits (q : Question) (o : String) : Bool :=
  match q with
  | wh _ _ constraints =>
    match constraints.get? typeConstraint, constraints.get? oneOfConstraint with
    | some type, some listed =>
      type = "text" || ((typed type (.text o)).bind (exactOption (splitOptions listed))).isSome
    | _, _ => true
  | _ => true

/-- The residuals that one answer after the other leaves of a question, the last one first. -/
inductive Narrowing (q₀ : Question) : List Question → Prop
  | start : Narrowing q₀ []
  | narrowed {residuals : List Question} {a : Answer} {r : Question} (h : Narrowing q₀ residuals)
      (narrows : (residuals.headD q₀).combines a = some r) : Narrowing q₀ (r :: residuals)

theorem mem_partialMatches : o ∈ partialMatches options v ↔
    o ∈ options ∧ Text.normalChars v.wording.toList ≠ [] ∧
      Text.occursIn (Text.normalChars v.wording.toList) (Text.normalChars o.toList) = true := by
  by_cases blank : Text.normalChars v.wording.toList = [] <;> simp [partialMatches, blank]

theorem exactOption_of_partialMatches
    (distinct : ((partialMatches options v).map Text.normalize).Nodup)
    (member : o ∈ partialMatches options v) : exactOption options (.text o) = some o := by
  -- the first option with the normal form of `o` is left open too, and so it is `o`
  obtain ⟨listed, holds⟩ := mem_partialMatches.mp member
  obtain ⟨first, names⟩ : ∃ first, exactOption options (.text o) = some first :=
    Option.isSome_iff_exists.mp (List.find?_isSome.mpr ⟨o, listed, by simp [Value.wording]⟩)
  obtain ⟨among, same⟩ := exactOption_eq_some names
  have normal : Text.normalChars first.toList = Text.normalChars o.toList := by
    simpa [Text.normalize, Value.wording] using congrArg String.toList same
  have left := mem_partialMatches.mpr ⟨among, normal ▸ holds⟩
  rw [names, List.inj_on_of_nodup_map distinct left member same]

theorem combines_eq_some (narrows : q.combines a = some r) : ∃ options, q.options = some options ∧
    buildAlt q.topic (partialMatches options a.value) = .ok r := by
  simp only [combines, Option.bind_eq_bind, Option.bind_eq_some_iff] at narrows
  obtain ⟨options, listed, narrows⟩ := narrows
  refine ⟨options, listed, ?_⟩
  split at narrows
  · simp at narrows
  · split at narrows
    · simp at narrows
    · cases outcome : buildAlt q.topic (partialMatches options a.value) <;>
        simp_all [Except.toOption]

/-- A residual is over options of the question, which name themselves in both. -/
theorem residual_of_combines (tidy : q.Tidy) (narrows : q.combines a = some r) :
    (∃ left, r = alt q.topic left) ∧ r.Tidy ∧ ∀ o, r.Lists o → q.Lists o := by
  obtain ⟨options, listed, made⟩ := combines_eq_some narrows
  obtain ⟨_, _, faultless, shape⟩ := buildAlt_eq_ok.mp made
  have tidyLeft : ∀ o ∈ partialMatches options a.value, Text.trim o = o :=
    fun o left => tidy.options options listed o (mem_partialMatches.mp left).1
  have trimmed := (List.map_congr_left tidyLeft).trans (List.map_id' _)
  rw [trimmed, alternativeFault?_eq_none] at faultless
  rw [tidy.topic, trimmed] at shape
  refine ⟨⟨_, shape⟩, (Built.alt made).tidy, fun o ⟨left, lists, names⟩ => ⟨options, listed, ?_⟩⟩
  cases shape ▸ lists
  exact exactOption_of_partialMatches faultless.2.2 (exactOption_eq_some names).1

/-- Every residual is a list of alternatives about the topic, and what the last one lists is listed
all the way back. -/
theorem Narrowing.lists (tidy : q₀.Tidy) (h : Narrowing q₀ residuals) :
    (residuals.headD q₀).Tidy ∧ (∀ r ∈ residuals, r.Tidy ∧ ∃ left, r = alt q₀.topic left) ∧
      ∀ o, (residuals.headD q₀).Lists o → ∀ q ∈ q₀ :: residuals, q.Lists o := by
  induction h with
  | start => exact ⟨tidy, by simp, by simp⟩
  | @narrowed residuals a r h narrows ih =>
    obtain ⟨tidyLast, shapes, listed⟩ := ih
    obtain ⟨⟨left, shape⟩, tidyNext, back⟩ := residual_of_combines tidyLast narrows
    have topic : (residuals.headD q₀).topic = q₀.topic := by
      cases residuals with
      | nil => rfl
      | cons last _ =>
        obtain ⟨_, _, rfl⟩ := shapes last List.mem_cons_self
        rfl
    have next : r.Tidy ∧ ∃ left, r = alt q₀.topic left := ⟨tidyNext, left, topic ▸ shape⟩
    refine ⟨tidyNext, List.forall_mem_cons.mpr ⟨next, shapes⟩, fun o lists => ?_⟩
    obtain ⟨whole, older⟩ := List.forall_mem_cons.mp (listed o (back o lists))
    exact List.forall_mem_cons.mpr ⟨whole, List.forall_mem_cons.mpr ⟨lists, older⟩⟩

/-- A question takes an option that names itself for an option, if it fits the type. -/
theorem Lists.bind? (h : q.Lists o) (tidy : q.Tidy) (fits : q.fits o = true)
    (solid : Text.isBlankText o = false) : ∃ w, q.bind? (.text o) = some w := by
  obtain ⟨options, listed, names⟩ := h
  have member := (exactOption_eq_some names).1
  have trim := tidy.options options listed o member
  cases q with
  | wh var predicate constraints =>
    obtain ⟨raw, constraint, rfl⟩ := Option.map_eq_some_iff.mp listed
    simp only [Question.bind?, trimmed, trim]
    cases typing : constraints.get? typeConstraint with
    | none => simp [underType, underOptions, typing, constraint, names]
    | some type =>
      simp only [Question.fits, typing, constraint, Bool.or_eq_true, decide_eq_true_eq] at fits
      rcases fits with rfl | fits
      · simp [underType, underOptions, typing, constraint, typed, solid, trim, names]
      · -- the value may be worded in another way, and name another option
        obtain ⟨named, reads⟩ := Option.isSome_iff_exists.mp fits
        obtain ⟨w, under, again⟩ := Option.bind_eq_some_iff.mp reads
        simp [underType, underOptions, typing, constraint, under, again]
  | yesNo predicate => simp [Question.options] at listed
  | alt predicate alternatives =>
    cases listed
    exact ⟨.text o, by simp [Question.bind?, names]⟩

theorem Lists.resolves (h : q.Lists o) (tidy : q.Tidy) (fits : q.fits o = true)
    (solid : Text.isBlankText o = false) :
    (Answer.ofProposition ⟨q.topic, .text o⟩).resolves q = true := by
  obtain ⟨w, bound⟩ := h.bind? tidy fits solid
  have settles : q.resolution (.ofProposition ⟨q.topic, .text o⟩) = some ⟨q.topic, w⟩ :=
    resolution_eq_some.mpr
      ⟨by simp [Answer.addresses, Answer.ofProposition, Answer.full], solid, rfl, bound⟩
  simp [Answer.resolves, settles]

/-- What settles alternatives is one of them, and it names itself if it does so in the list. -/
theorem resolution_alt {topic : String} {left : List String}
    (settles : (alt topic left).resolution b = some p) :
    ∃ o, p = ⟨topic, .text o⟩ ∧ (alt topic left).Lists o ∧ Text.isBlankText o = false := by
  obtain ⟨_, nonempty, about, bound⟩ := resolution_eq_some.mp settles
  obtain ⟨o, names, value⟩ := Option.map_eq_some_iff.mp bound
  obtain ⟨predicate, _⟩ := p
  subst about value
  have again := (exactOption_congr (v := .text o) (exactOption_eq_some names).2).trans names
  exact ⟨o, rfl, ⟨left, rfl, again⟩, isEmpty_of_bind? bound nonempty⟩

end Question

/-- The proposition settles all of the questions. Once it is committed, those of them that are on
top of the discussion leave it one by one. -/
structure Proposition.Closes (p : Proposition) (questions : List Question) : Prop where
  resolves : ∀ q ∈ questions, (Answer.ofProposition p).resolves q = true
  downdates : ∀ (d : Domain) (c : Config) (s : State) (above below : List Question),
    p ∈ s.commitments → s.qud = above ++ below → (∀ q ∈ above, q ∈ questions) →
    s.Downdates d c above.length

theorem Proposition.Closes.of_resolves {p : Proposition} {questions : List Question}
    (resolves : ∀ q ∈ questions, (Answer.ofProposition p).resolves q = true) :
    p.Closes questions where
  resolves
  downdates _ _ _ _ _ committed discussed among :=
    State.downdates_of_resolved discussed fun q member =>
      List.any_eq_true.mpr ⟨p, committed, resolves q (among q member)⟩

/-- What settles the last residual of a question settles all residuals before it, by an option of
the question. It settles the question itself too, if there is no residual or the option fits the
type. Once it is committed, the questions that it settles leave the discussion one by one. -/
theorem residual_closes_narrowed (q₀ : Question) (built : q₀.Built) (residuals : List Question)
    (narrowing : Question.Narrowing q₀ residuals) (b : Answer) (p : Proposition)
    (settles : (residuals.headD q₀).resolution b = some p) :
    p.Closes residuals ∧ (residuals ≠ [] → q₀.Lists p.value.wording) ∧
      (residuals = [] ∨ q₀.fits p.value.wording = true → p.Closes (q₀ :: residuals)) := by
  cases residuals with
  | nil =>
    have again : q₀.resolution (.ofProposition p) = some p :=
      Question.resolution_ofProposition settles
    refine ⟨.of_resolves (by simp), by simp, fun _ => .of_resolves ?_⟩
    simp [Answer.resolves, again]
  | cons last older =>
    -- the proposition is about an option of the last residual, which is listed all the way back
    obtain ⟨_, shapes, listed⟩ := narrowing.lists built.tidy
    obtain ⟨_, left, rfl⟩ := shapes last List.mem_cons_self
    obtain ⟨o, rfl, lists, solid⟩ := Question.resolution_alt settles
    obtain ⟨whole, lists⟩ := List.forall_mem_cons.mp (listed o lists)
    have settled : ∀ r ∈ Question.alt q₀.topic left :: older,
        (Answer.ofProposition ⟨q₀.topic, .text o⟩).resolves r = true := by
      intro r member
      obtain ⟨tidy, alternatives, rfl⟩ := shapes r member
      exact (lists _ member).resolves tidy rfl solid
    refine ⟨.of_resolves settled, fun _ => whole, fun fits => .of_resolves ?_⟩
    have fits : q₀.fits o = true := by simpa [Value.wording] using fits
    exact List.forall_mem_cons.mpr ⟨whole.resolves built.tidy fits solid, settled⟩

def amount : Question :=
  .wh "x" "amount" (OrderedMap.ofList [("one_of", "10|100|1000|20"), ("type", "int")])

theorem narrowed_amount_closed : amount.Built ∧
    amount.Narrowing [.alt "amount" ["100", "1000"], .alt "amount" ["10", "100", "1000"]] ∧
    (Question.alt "amount" ["100", "1000"]).resolution (.short (.int 100)) =
      some ⟨"amount", .text "100"⟩ ∧
    amount.fits "100" = true ∧
    Proposition.Closes ⟨"amount", .text "100"⟩
      [amount, .alt "amount" ["100", "1000"], .alt "amount" ["10", "100", "1000"]] := by
  have built : amount.Built :=
    @Question.Built.wh amount "x" "amount" [("one_of", "10|100|1000|20"), ("type", "int")]
      (by decide +kernel)
  have first : amount.combines (.short (.text "1")) =
      some (.alt "amount" ["10", "100", "1000"]) := by decide +kernel
  have second : (Question.alt "amount" ["10", "100", "1000"]).combines (.short (.text "00")) =
      some (.alt "amount" ["100", "1000"]) := by decide +kernel
  have narrowing := (Question.Narrowing.start.narrowed first).narrowed second
  have settles : (Question.alt "amount" ["100", "1000"]).resolution (.short (.int 100)) =
      some ⟨"amount", .text "100"⟩ := by decide +kernel
  have fits : amount.fits "100" = true := by decide +kernel
  obtain ⟨_, _, closes⟩ := residual_closes_narrowed amount built _ narrowing _ _ settles
  exact ⟨built, narrowing, settles, fits, closes (.inr fits)⟩

def rooms : Question :=
  .wh "x" "rooms" (OrderedMap.ofList [("one_of", "one room|two rooms|attic"), ("type", "int")])

def lodging : Domain := .ofTask "lodge" [.findout rooms]

def roomsChosen : List Call :=
  Call.cycle .user (some (.request .user "lodge")) ++
    Call.cycle .user (some (.answer .user (.short (.text "room")))) ++
    [.beginCycle .user, .integrate (some (.answer .user (.short (.text "one room"))))]

/-- What settles a residual does not settle every question that it was left of. No option here is a
number, so the choice settles the residual but not the question, which stays under discussion. -/
theorem chosen_rooms_left_open :
    Question.buildWh "x" "rooms" [("one_of", "one room|two rooms|attic"), ("type", "int")] =
        .ok rooms ∧
      rooms.combines (.short (.text "room")) = some (.alt "rooms" ["one room", "two rooms"]) ∧
      (Question.alt "rooms" ["one room", "two rooms"]).resolution (.short (.text "one room")) =
        some ⟨"rooms", .text "one room"⟩ ∧
      (Answer.ofProposition ⟨"rooms", .text "one room"⟩).resolves rooms = false ∧
      ⟨"rooms", .text "one room"⟩ ∈ (reached lodging {} roomsChosen).commitments ∧
      (reached lodging {} roomsChosen).qud = [rooms] ∧
      ((reached lodging {} roomsChosen).integrate lodging {} none).rule = none := by
  decide +kernel

end Dialogue
