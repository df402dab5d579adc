import Mathlib.Algebra.Order.BigOperators.Group.List
import Mathlib.Algebra.Order.Ring.Nat
import Dialogue.Proofs.Completion

/-!
The system comes to rest by itself. What it may still do without input is measured by the questions
under discussion, the steps left in the plan, the agenda, and a contribution still to be grounded.
To begin a step costs more than the question that it puts under discussion, so every rule that fires
makes the measure smaller, unless the floor goes to the user.
-/
namespace Dialogue

/-- What is left to do for a step. A step in progress weighs as much as a pending one if its
question is not attended to, as it is then begun again. -/
def PlanStep.burden (attended : Question → Bool) (x : PlanStep) : Nat :=
  match x.status with
  | .pending => 3
  | .inProgress => if x.action.question?.any attended then 1 else 3
  | .completed => 0

@[simp] theorem PlanStep.burden_completed {attended : Question → Bool} {x : PlanStep} :
    PlanStep.burden attended { x with status := .completed } = 0 := rfl

namespace Plan

def burden (attended : Question → Bool) (p : Plan) : Nat :=
  (p.steps.map (PlanStep.burden attended)).sum

variable {attended more : Question → Bool} {p : Plan} {step : PlanStep} {q : Question}

theorem burden_step_le (grows : ∀ q, attended q = true → more q = true) (step : PlanStep) :
    step.burden more ≤ step.burden attended := by
  unfold PlanStep.burden
  cases step.status with
  | pending => simp
  | completed => simp
  | inProgress =>
    by_cases before : step.action.question?.any attended = true
    · have after : step.action.question?.any more = true := by
        cases asks : step.action.question? with
        | none => simp [asks] at before
        | some q => simpa using grows q (by simpa [asks] using before)
      simp [before, after]
    · simp only [before]
      split <;> simp

/-- The more is attended to, the less is left to do. -/
theorem burden_le (grows : ∀ q, attended q = true → more q = true) (p : Plan) :
    p.burden more ≤ p.burden attended :=
  List.sum_le_sum fun step _ => burden_step_le grows step

theorem burden_mark (h : p.Distinct) (member : step ∈ p.steps) (status : StepStatus)
    (grows : ∀ q, attended q = true → more q = true) :
    (p.mark step.id status).burden more + step.burden attended ≤
      p.burden attended + PlanStep.burden more { step with status } := by
  obtain ⟨earlier, later, split, marked⟩ := h.mark member status
  have others (steps : List PlanStep) :
      (steps.map (PlanStep.burden more)).sum ≤ (steps.map (PlanStep.burden attended)).sum :=
    List.sum_le_sum fun step _ => burden_step_le grows step
  have before := others earlier
  have after := others later
  simp only [burden, split, marked, List.map_append, List.map_cons, List.sum_append, List.sum_cons]
  omega

theorem burden_markFor_completed (h : p.Distinct) (grows : ∀ q, attended q = true → more q = true) :
    (p.markFor q .completed).burden more ≤ p.burden attended := by
  unfold markFor
  split
  · rename_i step waits
    have marked := burden_mark h (stepFor?_eq_some waits).1 .completed grows
    simp only [PlanStep.burden_completed] at marked
    omega
  · exact burden_le grows p

end Plan

namespace State

/-- A question is under discussion or resolved, so that no step waits to be begun for it. -/
def attended (s : State) (q : Question) : Bool := q ∈ s.qud || q.resolvedBy s.commitments

def planBurden (s : State) : Nat := (s.plan.map (Plan.burden s.attended)).getD 0

/-- What the system may still do by itself. -/
def effort (s : State) : Nat :=
  s.qud.length + s.planBurden + s.agenda.length + if s.awaitingGrounding then 1 else 0

variable {s t : State} {q : Question} {p : Proposition} {plan : Plan} {step : PlanStep}

theorem attended_of_mem (h : q ∈ s.qud) : s.attended q = true := by simp [attended, h]

theorem attended_of_resolved (h : q.resolvedBy s.commitments = true) : s.attended q = true := by
  simp [attended, h]

/-- More questions and commitments attend to more. -/
theorem attended_mono (questions : ∀ q ∈ s.qud, t.attended q = true)
    (commitments : ∀ p ∈ s.commitments, p ∈ t.commitments) (q : Question)
    (h : s.attended q = true) : t.attended q = true := by
  simp only [attended, Bool.or_eq_true, decide_eq_true_eq] at h
  rcases h with discussed | resolved
  · exact questions q discussed
  · exact attended_of_resolved (q.resolvedBy_mono resolved commitments)

/-- A resolved question can be taken off the top without anything being attended to less. -/
theorem attended_pop (top : s.top = some q) (resolved : q.resolvedBy t.commitments = true)
    (rest : t.qud = s.qud.tail) (commitments : ∀ p ∈ s.commitments, p ∈ t.commitments)
    (other : Question) (h : s.attended other = true) : t.attended other = true := by
  refine attended_mono (fun x discussed => ?_) commitments other h
  obtain ⟨below, discussion⟩ := List.head?_eq_some_iff.mp top
  rw [discussion] at discussed rest
  rcases List.mem_cons.mp discussed with rfl | lower
  · exact attended_of_resolved resolved
  · exact attended_of_mem (rest ▸ lower)

theorem effort_congr (agenda : t.agenda = s.agenda) (plan : t.plan = s.plan) (qud : t.qud = s.qud)
    (commitments : t.commitments = s.commitments)
    (grounding : t.awaitingGrounding = s.awaitingGrounding) : t.effort = s.effort := by
  have attended : t.attended = s.attended := funext fun q => by simp [attended, qud, commitments]
  simp [effort, planBurden, agenda, plan, qud, grounding, attended]

@[simp] theorem effort_setPending {heard : Option Move} : (s.setPending heard).effort = s.effort :=
  effort_congr (by simp) (by simp) (by simp) (by simp) (by simp)

@[simp] theorem effort_beginCycle : (s.beginCycle .system).effort = s.effort :=
  effort_congr (by simp) (by simp) (by simp) (by simp) (by simp [beginCycle])

@[simp] theorem effort_giveFloor {speaker : Speaker} : (s.giveFloor speaker).effort = s.effort :=
  effort_congr (by simp) (by simp) (by simp) (by simp) (by simp)

theorem planBurden_le (same : t.plan = s.plan)
    (grows : ∀ q, s.attended q = true → t.attended q = true) : t.planBurden ≤ s.planBurden := by
  unfold planBurden
  rw [same]
  cases s.plan with
  | none => simp
  | some plan => exact Plan.burden_le grows plan

theorem planBurden_completeFor {done : PlanAction → Prop} (sound : s.PlanSound done)
    (changed : t.plan = s.plan.map fun plan => plan.markFor q .completed)
    (grows : ∀ q, s.attended q = true → t.attended q = true) : t.planBurden ≤ s.planBurden := by
  unfold planBurden
  rw [changed]
  cases loaded : s.plan with
  | none => simp
  | some plan => exact Plan.burden_markFor_completed (sound plan loaded).distinct grows

theorem planBurden_mark {done : PlanAction → Prop} (sound : s.PlanSound done)
    (active : s.activePlan = some plan) (member : step ∈ plan.steps) (status : StepStatus)
    (changed : t.plan = s.plan.map fun plan => plan.mark step.id status)
    (grows : ∀ q, s.attended q = true → t.attended q = true) :
    t.planBurden + step.burden s.attended ≤
      s.planBurden + PlanStep.burden t.attended { step with status } := by
  have loaded := (activePlan_eq_some.mp active).1
  have marked := Plan.burden_mark (sound plan loaded).distinct member status grows
  simpa [planBurden, changed, loaded] using marked

/-- A step that is due is not completed, and weighs most unless its question is attended to. -/
theorem burden_of_due (due : Plan.isDue s.qud step = true) : 0 < step.burden s.attended ∧
    (∀ q, step.action.question? = some q → q.resolvedBy s.commitments = false →
      step.burden s.attended = 3) := by
  unfold Plan.isDue at due
  cases status : step.status with
  | pending => simp [PlanStep.burden, status]
  | completed => simp [status] at due
  | inProgress =>
    refine ⟨by simp only [PlanStep.burden, status]; split <;> simp, fun q asks unresolved => ?_⟩
    simp only [status, asks, Option.any_some, decide_eq_true_eq] at due
    simp [PlanStep.burden, status, asks, attended, due, unresolved]

end State

/-- What the rules do without input makes the effort smaller. -/
theorem UpdateRule.Fires.effort_lt {d : Domain} {c : Config} {s after : State} {r : UpdateRule}
    (h : Fires d c s r after) (free : s.pending = none) (sound : s.PlanSound s.CarriedOut) :
    after.effort < s.effort := by
  cases h.tidies free with
  | @downdated q top resolved =>
    -- no step has to be begun again for the question that goes, as it is resolved
    have attended := State.attended_pop (t := s.popQuestion.completeStepFor q) top
      (by simpa using resolved) (by simp) (by simp)
    have plan := State.planBurden_completeFor (q := q) sound (by simp) attended
    obtain ⟨below, discussion⟩ := List.head?_eq_some_iff.mp top
    simp only [State.effort, State.completeStepFor_frame, State.popQuestion_frame,
      State.popQuestion_qud, discussion, List.tail_cons, List.length_cons]
    omega
  | @skipped plan step q active next asks resolved =>
    obtain ⟨member, due⟩ := Plan.nextStep?_eq_some next
    have completed := State.planBurden_mark (t := s.completeStep step.id) sound active member
      .completed (by simp) (by simp [State.attended])
    have weighs := (State.burden_of_due due).1
    simp only [PlanStep.burden_completed] at completed
    simp only [State.effort, State.completeStep_frame]
    omega
  | @begun plan step q active next asks unresolved =>
    obtain ⟨member, due⟩ := Plan.nextStep?_eq_some next
    have attended := State.attended_mono (s := s) (t := (s.pushQuestion q).startStep step.id)
      (fun x discussed => State.attended_of_mem (by simp [discussed])) (by simp)
    have begun := State.planBurden_mark sound active member .inProgress (by simp) attended
    have weighs := (State.burden_of_due due).2 q asks unresolved
    -- the step weighs two less, and the discussion one more
    have light : PlanStep.burden ((s.pushQuestion q).startStep step.id).attended
        { step with status := .inProgress } = 1 := by
      simp [PlanStep.burden, asks, State.attended]
    simp only [State.effort, State.startStep_frame, State.pushQuestion_frame,
      State.pushQuestion_qud, List.length_cons]
    omega

/-- A rule that selects a move makes the effort smaller, unless the move hands over the floor. -/
theorem SelectionRule.Fires.effort_lt {d : Domain} {c : Config} {s after : State} {m : Move}
    {r : SelectionRule} (h : Fires d c s r after m) (keeps : m.yieldsFloor = false)
    (sound : s.PlanSound s.CarriedOut) : after.effort < s.effort := by
  have silent : after.awaitingGrounding = false := h.recorded.2
  cases h with
  | repeated | confused | raised | voiced | pursued | posed => contradiction
  | asked _ asks =>
    unfold Move.question? at asks
    split at asks
    · rename_i q act
      simp [Move.yieldsFloor, act] at keeps
    · contradiction
  | @asserted m p front =>
    have attended := State.attended_mono (s := s) (t := (s.dequeue.commit p).emit m)
      (fun x discussed => State.attended_of_mem (by simp [discussed])) (by simp +contextual)
    have plan := State.planBurden_le (by simp) attended
    obtain ⟨rest, agenda⟩ := List.head?_eq_some_iff.mp front
    simp only [State.effort, silent, State.emit_frame, State.commit_frame, State.dequeue_frame,
      State.dequeue_agenda, agenda, List.tail_cons, List.length_cons, Bool.false_eq_true, if_false]
    omega
  | @uttered m front =>
    have attended := State.attended_mono (s := s) (t := s.dequeue.emit m)
      (fun x discussed => State.attended_of_mem (by simp [discussed])) (by simp)
    have plan := State.planBurden_le (by simp) attended
    obtain ⟨rest, agenda⟩ := List.head?_eq_some_iff.mp front
    simp only [State.effort, silent, State.emit_frame, State.dequeue_frame, State.dequeue_agenda,
      agenda, List.tail_cons, List.length_cons, Bool.false_eq_true, if_false]
    omega
  | @informed plan step p _ active _ next =>
    obtain ⟨member, due⟩ := Plan.nextStep?_eq_some next
    have attended := State.attended_mono (s := s)
      (t := ((s.commit p).completeStep step.id).emit (.assert .system p))
      (fun x discussed => State.attended_of_mem (by simp [discussed])) (by simp +contextual)
    have completed := State.planBurden_mark sound active member .completed (by simp) attended
    have weighs := (State.burden_of_due due).1
    simp only [PlanStep.burden_completed] at completed
    simp only [State.effort, silent, State.emit_frame, State.completeStep_frame, State.commit_frame,
      Bool.false_eq_true, if_false]
    omega
  | @answered q p top _ _ believes =>
    obtain ⟨v, _, settles⟩ := Option.bind_eq_some_iff.mp believes
    have resolved : q.resolvedBy (s.commitments.insert p) = true :=
      Question.resolvedBy_insert settles
    have attended := State.attended_pop (t := ((s.popQuestion.commit p).completeStepFor q).emit
      (.answer .system ((Answer.ofProposition p).addressing q.key))) top (by simpa using resolved)
      (by simp) (by simp +contextual)
    have plan := State.planBurden_completeFor (q := q) sound (by simp) attended
    obtain ⟨below, discussion⟩ := List.head?_eq_some_iff.mp top
    simp only [State.effort, silent, State.emit_frame, State.completeStepFor_frame,
      State.commit_frame, State.popQuestion_frame, State.popQuestion_qud, discussion,
      List.tail_cons, List.length_cons, Bool.false_eq_true, if_false]
    omega
  | grounded waits =>
    have attended := State.attended_mono (s := s) (t := s.emit (.feedback .system .acknowledge))
      (fun x discussed => State.attended_of_mem (by simp [discussed])) (by simp)
    have plan := State.planBurden_le (by simp) attended
    simp only [State.effort, silent, waits, State.emit_frame, Bool.false_eq_true, if_false, if_true]
    omega

/-- Without input, integration makes the effort smaller or fires no rule and leaves it as it is. -/
theorem State.integrate_effort {d : Domain} {c : Config} {s : State}
    (sound : s.PlanSound s.CarriedOut) :
    (s.integrate d c none).rule.isSome = true ∧ (s.integrate d c none).state.effort < s.effort ∨
      (s.integrate d c none).rule = none ∧ (s.integrate d c none).state.effort = s.effort := by
  rcases s.integrate_cases d c none with ⟨r, after, fires, outcome⟩ | ⟨_, outcome⟩
  · have less := fires.effort_lt (by simp) sound.setPending
    rw [effort_setPending] at less
    exact .inl (by simp [outcome, less])
  · exact .inr (by simp [outcome, abandonPending_of_none])

/-- Selection makes the effort smaller or leaves it as it is, unless its move hands over the
floor. -/
theorem State.select_effort {d : Domain} {c : Config} {s : State}
    (sound : s.PlanSound s.CarriedOut) :
    (∃ m, (s.select d c).move = some m ∧ m.yieldsFloor = true ∧
        (s.select d c).state.nextSpeaker = .user) ∨
      (∃ m, (s.select d c).move = some m ∧ (s.select d c).state.nextSpeaker = .system ∧
        (s.select d c).state.effort < s.effort) ∨
      (s.select d c).chosen = none ∧ (s.select d c).state.effort = s.effort := by
  rcases s.select_cases d c with ⟨r, after, m, fires, outcome⟩ | ⟨_, outcome⟩
  · cases floor : m.yieldsFloor with
    | true => exact .inl ⟨m, by simp [outcome, Selection.move], floor, by simp [outcome, floor]⟩
    | false =>
      have less := fires.effort_lt floor sound
      exact .inr (.inl ⟨m, by simp [outcome, Selection.move], by simp [outcome, floor],
        by simpa [outcome] using less⟩)
  · exact .inr (.inr (by simp [outcome]))

namespace Engine

/-- A tick that fires a rule and leaves the floor with the system. -/
def Works (e : Engine) (s t : State) : Prop :=
  ∃ o, e.tick s = .ok o ∧ o.record.isQuiescent = false ∧ o.state.nextSpeaker = .system ∧ o.state = t

inductive WorksFor (e : Engine) : Nat → State → State → Prop where
  | zero {s} : WorksFor e 0 s s
  | succ {n s t u} (first : e.Works s t) (rest : WorksFor e n t u) : WorksFor e (n + 1) s u

variable {e : Engine} {s t : State}

/-- A tick yields an outcome if the generator does. The floor is with the system if integration did
something and selection found nothing to say. -/
theorem tick_ok (speaks : ∀ m s, ∃ text, e.generator m s = .done text) {i : Integration}
    {x : Selection} (integrated : (s.beginCycle .system).integrate e.domain e.config none = i)
    (selected : i.state.select e.domain e.config = x) :
    ∃ o, e.tick s = .ok o ∧
      o.state = (if x.move.isNone && i.rule.isSome then x.state.giveFloor .system else x.state) ∧
      o.record.isQuiescent = (i.rule.isNone && x.rule.isNone) ∧ o.said.map (·.1) = x.move := by
  obtain ⟨o, ticks⟩ : ∃ o, e.tick s = .ok o := finishCycle_ok fun m _ => speaks m
  have finishes := tick_eq_ok ticks
  have develops : e.develop (s.beginCycle .system) none = (i, x) := by
    simp only [develop, integrate, select, integrated, selected]
  have state := finishes.state
  simp only [finishes.move, finishes.updateRule, develops] at state
  exact ⟨o, ticks, state, by simp [CycleRecord.isQuiescent, finishes.updateRule,
    finishes.selectionRule, develops], by rw [finishes.said, finishes.move, develops]⟩

/-- A tick that fires a rule and leaves the floor with the system makes the effort smaller. -/
theorem tick_effort (speaks : ∀ m s, ∃ text, e.generator m s = .done text)
    (sound : s.PlanSound s.CarriedOut) :
    ∃ o, e.tick s = .ok o ∧ o.state.PlanSound o.state.CarriedOut ∧
      (o.record.isQuiescent = true ∨
        (∃ m text, o.said = some (m, text) ∧ m.yieldsFloor = true ∧
          o.state.nextSpeaker = .user) ∨
        o.record.isQuiescent = false ∧ o.state.nextSpeaker = .system ∧
          o.state.effort < s.effort) := by
  have begun := (Call.beginCycle .system).planSound (d := e.domain) (c := e.config) sound
  have integrated := (Call.integrate none).planSound (d := e.domain) (c := e.config) begun
  have selected := Call.select.planSound (d := e.domain) (c := e.config) integrated
  have floored := (Call.giveFloor .system).planSound (d := e.domain) (c := e.config) selected
  simp only [Call.run] at begun integrated selected floored
  obtain ⟨o, ticks, state, quiescent, said⟩ := tick_ok (s := s) speaks rfl rfl
  refine ⟨o, ticks, ?_, ?_⟩
  · rw [state]
    split
    · exact floored
    · exact selected
  · have before := State.integrate_effort (d := e.domain) (c := e.config) begun
    rw [State.effort_beginCycle] at before
    rcases State.select_effort (d := e.domain) (c := e.config) integrated with
      ⟨m, move, floor, next⟩ | ⟨m, move, next, less⟩ | ⟨nothing, same⟩
    · rw [move] at state said
      obtain ⟨⟨m, text⟩, utters, rfl⟩ := Option.map_eq_some_iff.mp said
      exact .inr (.inl ⟨m, text, utters, floor, by simp [state, next]⟩)
    · obtain ⟨⟨r, _⟩, chosen, rfl⟩ := Option.map_eq_some_iff.mp move
      have busy : o.record.isQuiescent = false := by simp [quiescent, Selection.rule, chosen]
      refine .inr (.inr ⟨busy, by simp [state, move, next], ?_⟩)
      simp only [state, move, Option.isNone_some, Bool.false_and, Bool.false_eq_true, if_false]
      rcases before with ⟨_, lower⟩ | ⟨_, level⟩ <;> omega
    · rcases before with ⟨fired, lower⟩ | ⟨idle, _⟩
      · refine .inr (.inr ?_)
        simp only [Selection.move, nothing, fired, Option.map_none, Option.isNone_none,
          Bool.and_self, if_true] at state
        rw [state, State.effort_giveFloor, same]
        refine ⟨?_, by simp, lower⟩
        simp [quiescent, Option.isSome_iff_ne_none.mp fired]
      · exact .inl (by simp [quiescent, idle, Selection.rule, nothing])

theorem Works.effort_lt (works : e.Works s t)
    (speaks : ∀ m s, ∃ text, e.generator m s = .done text) (sound : s.PlanSound s.CarriedOut) :
    t.effort < s.effort ∧ t.PlanSound t.CarriedOut := by
  obtain ⟨o, ticks, busy, floor, rfl⟩ := works
  obtain ⟨o', ticks', after, outcome⟩ := tick_effort speaks sound
  cases ticks.symm.trans ticks'
  rcases outcome with quiet | ⟨_, _, _, _, user⟩ | ⟨_, _, less⟩
  · simp [busy] at quiet
  · simp [floor] at user
  · exact ⟨less, after⟩

/-- Ticks that work come to an end after as many as the effort allows, with a tick that is quiescent
or hands the floor to the user. -/
theorem works_until_rest (speaks : ∀ m s, ∃ text, e.generator m s = .done text) (s : State)
    (sound : s.PlanSound s.CarriedOut) :
    ∃ n ≤ s.effort, ∃ t, e.WorksFor n s t ∧ ∃ o, e.tick t = .ok o ∧
      (o.record.isQuiescent = true ∨ ∃ m text, o.said = some (m, text) ∧
        m.yieldsFloor = true ∧ o.state.nextSpeaker = .user) := by
  induction effort : s.effort using Nat.strongRecOn generalizing s with
  | ind k ih =>
    obtain ⟨o, ticks, after, outcome⟩ := tick_effort speaks sound
    rcases outcome with quiet | yields | ⟨busy, floor, less⟩
    · exact ⟨0, Nat.zero_le _, s, .zero, o, ticks, .inl quiet⟩
    · exact ⟨0, Nat.zero_le _, s, .zero, o, ticks, .inr yields⟩
    · have first : e.Works s o.state := ⟨o, ticks, busy, floor, rfl⟩
      rw [effort] at less
      obtain ⟨n, bound, t, rest, final⟩ := ih o.state.effort less o.state after rfl
      exact ⟨n + 1, by omega, t, .succ first rest, final⟩

theorem no_endless_work (speaks : ∀ m s, ∃ text, e.generator m s = .done text)
    (run : Nat → State) (sound : (run 0).PlanSound (run 0).CarriedOut) :
    ¬ ∀ i, e.Works (run i) (run (i + 1)) := by
  intro works
  have bounded : ∀ i, (run i).effort + i ≤ (run 0).effort ∧
      (run i).PlanSound (run i).CarriedOut := by
    intro i
    induction i with
    | zero => exact ⟨by simp, sound⟩
    | succ i ih =>
      obtain ⟨less, after⟩ := (works i).effort_lt speaks ih.2
      exact ⟨by omega, after⟩
  have := (bounded ((run 0).effort + 1)).1
  omega

theorem runSystem_stopped {x : Exchange} (stopped : x.state.nextSpeaker ≠ .system) (limit : Nat) :
    e.runSystem limit x = pure x := by
  cases limit <;> simp [runSystem, stopped]

/-- A limit above the effort is never reached. -/
theorem runSystem_limit (speaks : ∀ m s, ∃ text, e.generator m s = .done text) (limit : Nat)
    (x : Exchange) (sound : x.state.PlanSound x.state.CarriedOut)
    (enough : x.state.effort < limit) :
    e.runSystem (limit + 1) x = e.runSystem limit x := by
  induction limit generalizing x with
  | zero => omega
  | succ limit ih =>
    obtain ⟨o, ticks, after, outcome⟩ := tick_effort speaks sound
    rw [runSystem, runSystem]
    split
    · rfl
    · rw [ticks]
      simp only [bind, Except.bind]
      split
      · rfl
      · rename_i busy
        rcases outcome with quiet | ⟨_, _, _, _, user⟩ | ⟨_, _, less⟩
        · exact absurd quiet busy
        · have stopped : (x.push o).state.nextSpeaker ≠ .system := by simp [Exchange.push, user]
          rw [runSystem_stopped stopped, runSystem_stopped stopped]
        · exact ih (x.push o) after (by simp only [Exchange.push]; omega)

/-- The system comes to rest by itself in every state that is reached: after finitely many ticks
that work, no more than the effort of the state, one is quiescent or hands the floor to the user.
There is no endless sequence of such ticks, and no limit above the effort makes a difference. -/
theorem system_comes_to_rest (e : Engine) (speaks : ∀ m s, ∃ text, e.generator m s = .done text)
    (calls : List Call) :
    (∃ n ≤ (reached e.domain e.config calls).effort, ∃ t,
      e.WorksFor n (reached e.domain e.config calls) t ∧ ∃ o, e.tick t = .ok o ∧
        (o.record.isQuiescent = true ∨ ∃ m text, o.said = some (m, text) ∧
          m.yieldsFloor = true ∧ o.state.nextSpeaker = .user)) ∧
    (¬ ∃ run : Nat → State, run 0 = reached e.domain e.config calls ∧
      ∀ i, e.Works (run i) (run (i + 1))) ∧
    ∀ limit, (reached e.domain e.config calls).effort < limit →
      e.runSystem (limit + 1) { state := reached e.domain e.config calls } =
        e.runSystem limit { state := reached e.domain e.config calls } := by
  have sound := reached_planSound e.domain e.config calls
  refine ⟨works_until_rest speaks _ sound, ?_, fun limit enough => ?_⟩
  · rintro ⟨run, start, works⟩
    exact no_endless_work speaks run (by rw [start]; exact sound) works
  · exact runSystem_limit speaks limit _ sound enough

def talkative (d : Domain) : Engine where
  domain := d
  interpreter _ _ := .silent false
  generator _ _ := .done "..."

/-- Of the errand, once it is answered, a step to inform and an answer to ground are left. -/
theorem errand_comes_to_rest : (reached errand {} errandAnswered).effort = 4 ∧
    ¬ ∃ run : Nat → State, run 0 = reached errand {} errandAnswered ∧
      ∀ i, (talkative errand).Works (run i) (run (i + 1)) :=
  ⟨by decide +kernel,
    (system_comes_to_rest (talkative errand) (fun _ _ => ⟨"...", rfl⟩) errandAnswered).2.1⟩

end Engine

end Dialogue
