import Mathlib.Data.Option.Basic
import Dialogue.Proofs.State

/-!
What selection can do. Each way in which a selection rule fires is one case of a relation between a
state, the rule, the state after it and the move selected.
-/
namespace Dialogue
namespace SelectionRule

inductive Fires (d : Domain) (c : Config) (s : State) : SelectionRule → State → Move → Prop
  | repeated {q} (unsure : s.lastConfidence.lt c.threshold = true) (top : s.top = some q)
      (other : s.lastAsker q ≠ some .user) :
      Fires d c s clarify ((s.setConfidence .one).emit (.ask .system q)) (.ask .system q)
  | confused (unsure : s.lastConfidence.lt c.threshold = true)
      (user : ∀ q, s.top = some q → s.lastAsker q = some .user) :
      Fires d c s clarify ((s.setConfidence .one).emit (.feedback .system .notUnderstood))
        (.feedback .system .notUnderstood)
  | asked {m q} (front : s.agenda.head? = some m) (asks : m.question? = some q) :
      Fires d c s ask ((s.dequeue.pushQuestion q).emit m) m
  | asserted {m p} (front : s.agenda.head? = some m) (asserts : m.act = .assert p) :
      Fires d c s fromAgenda ((s.dequeue.commit p).emit m) m
  | uttered {m} (front : s.agenda.head? = some m) (silent : m.question? = none)
      (neutral : ∀ p, m.act ≠ .assert p) :
      Fires d c s fromAgenda (s.dequeue.emit m) m
  | raised {q step} (top : s.top = some q) (unasked : s.wasAsked q = false)
      (unresolved : q.resolvedBy s.commitments = false) (waits : s.stepFor? q = some step)
      (raises : step.action = .raise q) :
      Fires d c s raiseQuestion ((s.completeStep step.id).emit (.ask .system q)) (.ask .system q)
  | voiced {q} (top : s.top = some q) (unasked : s.wasAsked q = false)
      (unresolved : q.resolvedBy s.commitments = false)
      (stays : ∀ step, s.stepFor? q = some step → step.action ≠ .raise q) :
      Fires d c s raiseQuestion (s.emit (.ask .system q)) (.ask .system q)
  | pursued {plan step q} (empty : s.agenda = []) (active : s.activePlan = some plan)
      (idle : plan.hasOpenStep s.qud = false) (next : plan.nextStep? s.qud = some step)
      (finds : step.action = .findout q) (unresolved : q.resolvedBy s.commitments = false) :
      Fires d c s fromPlan ((if step.status = .pending then (s.pushQuestion q).startStep step.id
        else s.pushQuestion q).emit (.ask .system q)) (.ask .system q)
  | posed {plan step q} (empty : s.agenda = []) (active : s.activePlan = some plan)
      (idle : plan.hasOpenStep s.qud = false) (next : plan.nextStep? s.qud = some step)
      (raises : step.action = .raise q) (unresolved : q.resolvedBy s.commitments = false) :
      Fires d c s fromPlan (((s.pushQuestion q).completeStep step.id).emit (.ask .system q))
        (.ask .system q)
  | informed {plan step p} (empty : s.agenda = []) (active : s.activePlan = some plan)
      (idle : plan.hasOpenStep s.qud = false) (next : plan.nextStep? s.qud = some step)
      (informs : step.action = .inform p) :
      Fires d c s fromPlan (((s.commit p).completeStep step.id).emit (.assert .system p))
        (.assert .system p)
  | answered {q p} (top : s.top = some q) (user : s.lastAsker q = some .user)
      (ready : d.unresolvedDependencies q s.commitments = [])
      (believes : d.answerFromBeliefs? q s.beliefs s.commitments = some p) :
      Fires d c s answer (((s.popQuestion.commit p).completeStepFor q).emit
          (.answer .system ((Answer.ofProposition p).addressing q.key)))
        (.answer .system ((Answer.ofProposition p).addressing q.key))
  | grounded (waits : s.awaitingGrounding = true) :
      Fires d c s grounding (s.emit (.feedback .system .acknowledge))
        (.feedback .system .acknowledge)

variable {d : Domain} {c : Config} {s after : State} {m : Move} {r : SelectionRule}

theorem fires_of_runClarify (h : runClarify c s = some (after, m)) :
    Fires d c s clarify after m := by
  simp only [runClarify, emitting, Option.bind_eq_bind, Option.bind_eq_some_iff,
    Option.guard_eq_some', Option.pure_def] at h
  obtain ⟨_, unsure, h⟩ := h
  split at h
  · rename_i q top
    have top : s.top = some q := by simpa [State.top] using top
    split at h
    · rename_i user
      cases h
      refine .confused unsure fun other atTop => ?_
      cases top.symm.trans atTop
      simpa [State.lastAsker_eq] using user
    · rename_i other
      cases h
      exact .repeated unsure top (by simpa [State.lastAsker_eq] using other)
  · rename_i empty
    cases h
    refine .confused unsure fun q top => ?_
    simp [State.top] at empty top
    simp [empty] at top

theorem fires_of_runAsk (h : runAsk s = some (after, m)) : Fires d c s ask after m := by
  simp only [runAsk, emitting, Option.bind_eq_bind, Option.bind_eq_some_iff, Option.pure_def] at h
  obtain ⟨m, front, q, asks, h⟩ := h
  cases h
  exact .asked front asks

theorem fires_of_runFromAgenda (h : runFromAgenda s = some (after, m)) :
    Fires d c s fromAgenda after m := by
  simp only [runFromAgenda, emitting, Option.bind_eq_bind, Option.bind_eq_some_iff,
    Option.pure_def] at h
  obtain ⟨m, front, h⟩ := h
  split at h
  · contradiction
  · rename_i p asserts
    cases h
    exact .asserted front asserts
  · rename_i silent neutral
    cases h
    refine .uttered front ?_ neutral
    unfold Move.question?
    split
    · rename_i q asks
      exact absurd asks (silent q)
    · rfl

theorem fires_of_runRaiseQuestion (h : runRaiseQuestion s = some (after, m)) :
    Fires d c s raiseQuestion after m := by
  simp only [runRaiseQuestion, emitting, Option.bind_eq_bind, Option.bind_eq_some_iff,
    Option.guard_eq_some', Bool.and_eq_true, Bool.not_eq_true'] at h
  obtain ⟨q, top, _, ⟨unasked, unresolved⟩, h⟩ := h
  split at h
  · rename_i id other status waits
    cases h
    obtain ⟨plan, _, waiting⟩ := Option.bind_eq_some_iff.mp waits
    have asks := (Plan.stepFor?_eq_some waiting).2.2
    simp only [PlanAction.question?, Option.some.injEq] at asks
    subst asks
    exact .raised top unasked unresolved waits rfl
  · rename_i stays
    cases h
    refine .voiced top unasked unresolved fun step waits raises => ?_
    exact stays step.id q step.status (by rw [waits, ← raises])

theorem fires_of_runFromPlan (h : runFromPlan s = some (after, m)) :
    Fires d c s fromPlan after m := by
  simp only [runFromPlan, emitting, Option.bind_eq_bind, Option.bind_eq_some_iff,
    Option.guard_eq_some', List.isEmpty_iff, Bool.not_eq_true'] at h
  obtain ⟨_, empty, plan, active, _, idle, step, next, h⟩ := h
  split at h
  · rename_i q finds
    simp only [Option.bind_eq_some_iff, Option.guard_eq_some'] at h
    obtain ⟨_, unresolved, h⟩ := h
    cases h
    exact .pursued empty active idle next finds unresolved
  · rename_i q raises
    simp only [Option.bind_eq_some_iff, Option.guard_eq_some'] at h
    obtain ⟨_, unresolved, h⟩ := h
    cases h
    exact .posed empty active idle next raises unresolved
  · rename_i p informs
    cases h
    exact .informed empty active idle next informs

theorem fires_of_runAnswer (h : runAnswer d s = some (after, m)) : Fires d c s answer after m := by
  simp only [runAnswer, emitting, Option.bind_eq_bind, Option.bind_eq_some_iff,
    Option.guard_eq_some', Bool.and_eq_true, decide_eq_true_eq, List.isEmpty_iff] at h
  obtain ⟨q, top, _, ⟨user, ready⟩, p, believes, h⟩ := h
  cases h
  exact .answered top user ready believes

theorem fires_of_runGrounding (h : runGrounding s = some (after, m)) :
    Fires d c s grounding after m := by
  simp only [runGrounding, emitting, Option.bind_eq_bind, Option.bind_eq_some_iff,
    Option.guard_eq_some'] at h
  obtain ⟨_, waits, h⟩ := h
  cases h
  exact .grounded waits

/-- A rule that applies fires in one of the ways listed. -/
theorem fires_of_run? (h : r.run? d c s = some (after, m)) : Fires d c s r after m := by
  cases r with
  | clarify => exact fires_of_runClarify h
  | ask => exact fires_of_runAsk h
  | fromAgenda => exact fires_of_runFromAgenda h
  | raiseQuestion => exact fires_of_runRaiseQuestion h
  | fromPlan => exact fires_of_runFromPlan h
  | answer => exact fires_of_runAnswer h
  | grounding => exact fires_of_runGrounding h

/-- Whatever rule fires, its move is recorded and no contribution waits to be grounded any more. -/
theorem Fires.recorded (h : Fires d c s r after m) :
    after.moves = s.moves ++ [(m, true)] ∧ after.awaitingGrounding = false := by
  cases h with
  | pursued => split <;> simp
  | _ => simp

theorem Fires.pending (h : Fires d c s r after m) : after.pending = s.pending := by
  cases h with
  | pursued => split <;> simp
  | _ => simp

theorem runClarify_isSome : (runClarify c s).isSome = s.lastConfidence.lt c.threshold := by
  unfold runClarify
  cases s.lastConfidence.lt c.threshold with
  | false => rfl
  | true =>
    simp only [guard_true, Option.pure_def, Option.bind_eq_bind, Option.bind_some]
    split
    · split <;> rfl
    · rfl

theorem runGrounding_isSome : (runGrounding s).isSome = s.awaitingGrounding := by
  unfold runGrounding
  cases s.awaitingGrounding <;> rfl

theorem agenda_of_idle (ask : runAsk s = none) (fromAgenda : runFromAgenda s = none) :
    s.agenda = [] := by
  cases agenda : s.agenda with
  | nil => rfl
  | cons m rest =>
    cases act : m.act <;>
      simp [runAsk, runFromAgenda, Move.question?, agenda, act] at ask fromAgenda

theorem settled_of_idle {q : Question} (idle : runRaiseQuestion s = none) (top : s.top = some q) :
    s.wasAsked q = true ∨ q.resolvedBy s.commitments = true := by
  by_contra open'
  simp only [not_or, Bool.not_eq_true] at open'
  simp only [runRaiseQuestion, top, open'.1, open'.2, Option.bind_eq_bind, Option.bind_some,
    Bool.not_false, Bool.and_self, guard_true, Option.pure_def] at idle
  split at idle <;> contradiction

theorem resolved_of_idle {plan : Plan} {step : PlanStep} (idle : runFromPlan s = none)
    (empty : s.agenda = []) (active : s.activePlan = some plan)
    (unopened : plan.hasOpenStep s.qud = false) (next : plan.nextStep? s.qud = some step) :
    ∃ q, step.action.question? = some q ∧ q.resolvedBy s.commitments = true := by
  simp only [runFromPlan, empty, active, unopened, next, List.isEmpty_nil, Option.bind_eq_bind,
    Option.bind_some, Bool.not_false, guard_true, Option.pure_def] at idle
  cases action : step.action with
  | findout q | raise q =>
    refine ⟨q, rfl, ?_⟩
    by_contra unresolved
    simp [action, unresolved] at idle
  | inform p => simp [action] at idle

end SelectionRule

namespace State

/-- Selection fires one rule and gives the floor to whom its move gives it, or no rule applies and
the floor is the user's. -/
theorem select_cases (d : Domain) (c : Config) (s : State) :
    (∃ r after m, SelectionRule.Fires d c s r after m ∧
      s.select d c = ⟨after.giveFloor (if m.yieldsFloor then .user else .system), some (r, m), 1⟩) ∨
    (∀ r : SelectionRule, r.run? d c s = none) ∧ s.select d c = ⟨s.giveFloor .user, none, 0⟩ := by
  unfold select
  cases found : SelectionRule.all.findSome? fun r => (r.run? d c s).map (r, ·) with
  | some outcome =>
    obtain ⟨r, _, first⟩ := List.exists_of_findSome?_eq_some found
    obtain ⟨⟨after, m⟩, ran, rfl⟩ := Option.map_eq_some_iff.mp first
    exact .inl ⟨r, after, m, SelectionRule.fires_of_run? ran, rfl⟩
  | none =>
    refine .inr ⟨fun r => ?_, rfl⟩
    have idle := List.findSome?_eq_none_iff.mp found r (by cases r <;> simp [SelectionRule.all])
    simpa using idle

/-- A rule that fires is the only one that is run. -/
theorem select_bodies {d : Domain} {c : Config} {s : State} : (s.select d c).bodies =
    if (s.select d c).rule.isSome then 1 else 0 := by
  rcases s.select_cases d c with ⟨r, after, m, _, outcome⟩ | ⟨_, outcome⟩ <;>
    simp [outcome, Selection.rule]

@[simp] theorem select_pending {d : Domain} {c : Config} {s : State} :
    (s.select d c).state.pending = s.pending := by
  rcases s.select_cases d c with ⟨r, after, m, fires, outcome⟩ | ⟨_, outcome⟩
  · simp [outcome, fires.pending]
  · simp [outcome]

structure Mute (c : Config) (s : State) : Prop where
  sure : s.lastConfidence.lt c.threshold = false
  empty : s.agenda = []
  settled : ∀ q, s.top = some q → s.wasAsked q = true ∨ q.resolvedBy s.commitments = true
  /-- Only a step that asks a resolved question is passed over. -/
  followed : ∀ plan step, s.activePlan = some plan → plan.hasOpenStep s.qud = false →
    plan.nextStep? s.qud = some step →
    ∃ q, step.action.question? = some q ∧ q.resolvedBy s.commitments = true
  grounded : s.awaitingGrounding = false

theorem mute_of_idle {d : Domain} {c : Config} {s : State}
    (idle : ∀ r : SelectionRule, r.run? d c s = none) : s.Mute c := by
  have clarify : SelectionRule.runClarify c s = none := idle .clarify
  have grounding : SelectionRule.runGrounding s = none := idle .grounding
  have empty := SelectionRule.agenda_of_idle (idle .ask) (idle .fromAgenda)
  exact ⟨by simp [← SelectionRule.runClarify_isSome, clarify], empty,
    fun _ => SelectionRule.settled_of_idle (idle .raiseQuestion),
    fun _ _ => SelectionRule.resolved_of_idle (idle .fromPlan) empty,
    by simp [← SelectionRule.runGrounding_isSome, grounding]⟩

end State
end Dialogue
