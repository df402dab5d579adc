import Dialogue.Proofs.Integration

/-!
The update rules as conditions and effects. An effect looks up again what its condition has looked
at, some of it after it has taken the move, and gives up where it does not find it. What the
condition has found is still there, so under its condition the effect does what the rule does.
-/
namespace Dialogue

namespace State

/-- Takes the move that waits and goes on with it; nothing happens where none waits. -/
def taking (s : State) (next : Move → State → State) : State :=
  match s.pending with
  | some m => next m (s.consume m)
  | none => s

/-- Accommodates the answer that waits: looks up the question, and the plan to load for it if there
is one, takes the move, and applies its answer to the question. -/
def accommodating (c : Config) (s : State) (find : Answer → Option (Option Plan × Question)) :
    State :=
  match (s.pendingAnswer c).bind find with
  | some (plan, q) => s.taking fun m s =>
    match m.answer? with
    | some a => ((plan.elim s s.loadPlan).accommodate q a).ground m.speaker
    | none => s
  | none => s

end State

namespace UpdateRule

/-- Where a rule accommodates an answer, the plan to load and the question to apply the answer
to. -/
def accommodated? (d : Domain) (s : State) (a : Answer) :
    UpdateRule → Option (Option Plan × Question)
  | issueAccommodation => (plannedQuestion? s a).map (none, ·)
  | localQuestionAccommodation => (buriedQuestion? s a).map (none, ·)
  | dependentIssueAccommodation => (answeredTask? d s a).map fun x => (some x.1, x.2)
  | _ => none

@[simp]
def applies (d : Domain) (c : Config) (s : State) : UpdateRule → Bool
  | integrateAsk => s.pending.any fun m => m.tag = .ask && c.threshold.le m.confidence
  | integrateAnswer =>
    match s.pendingAnswer c, s.top with
    | some a, some top => a.integrable top || (d.reachable top).any a.resolves
    | _, _ => false
  | integrateAssert => s.pending.any (·.tag = .assert)
  | integrateGreet => s.pending.any fun m => m.speaker = .user && m.act = .greet
  | integrateQuit => s.pending.any (·.act = .quit)
  | integrateFeedback => s.pending.any fun m => m.speaker = .user && m.tag = .feedback
  | findPlan =>
    match s.pending.map Move.act with
    | some (.request task) =>
      s.activePlan.isNone && d.isAccommodable task && (d.planFor? task).isSome
    | _ => false
  | downdateQud => s.pending.isNone && s.top.any (·.resolvedBy s.commitments)
  | execFindout => s.pending.isNone && s.agenda.isEmpty && s.activePlan.any fun plan =>
      !plan.hasOpenStep s.qud && (plan.nextStep? s.qud).any (·.action.question?.isSome)
  | r => ((s.pendingAnswer c).bind (r.accommodated? d s)).isSome

/-- What a rule does, whether or not its condition holds. -/
@[simp]
def effect (d : Domain) (c : Config) (s : State) : UpdateRule → State
  | integrateAsk => s.taking fun m s =>
    match m.question? with
    | some q =>
      let s := s.pushQuestion q
      if m.speaker = .user && s.activePlan.isNone then (planForAsked? d q s).elim s s.loadPlan
      else s
    | none => s
  | integrateAnswer => s.taking fun m s =>
    match m.answer?, s.top with
    | some a, some top =>
      let s := match top.resolution a, top.combines a, (d.reachable top).find? a.resolves with
        | some p, _, _ => s.popQuestion.settle top p
        | none, some residual, _ => s.pushQuestion residual
        | none, none, some q =>
          match q.resolution a with
          | some p => s.settle q p
          | none => s
        | none, none, none => s
      s.ground m.speaker
    | _, _ => s
  | integrateAssert => s.taking fun m s =>
    let s := match m.act with
      | .assert p => s.commit p
      | _ => s
    s.ground m.speaker
  | integrateGreet => s.taking fun _ s => s.enqueue (.greet .system)
  | integrateQuit => s.taking fun m s =>
    (if m.speaker = .user then s.enqueue (.quit .system) else s).terminate
  | integrateFeedback => s.taking fun m s =>
    if m.act = .feedback .notUnderstood then s.setConfidence .zero else s
  | findPlan => s.taking fun m s =>
    match m.act with
    | .request task => (d.planFor? task).elim s s.loadPlan
    | _ => s
  | downdateQud => s.top.elim s fun top => s.popQuestion.completeStepFor top
  | execFindout =>
    match s.activePlan.bind (·.nextStep? s.qud) with
    | some step =>
      match step.action.question? with
      | some q =>
        if q.resolvedBy s.commitments then s.completeStep step.id
        else (s.pushQuestion q).startStep step.id
      | none => s
    | none => s
  | r => s.accommodating c (r.accommodated? d s)

variable {d : Domain} {c : Config} {s after : State} {m : Move} {a : Answer} {q : Question}
  {r : UpdateRule}

theorem taking_of_pending {next : Move → State → State} (waits : s.pending = some m) :
    s.taking next = next m (s.consume m) := by
  simp [State.taking, waits]

theorem guard_bind {p : Prop} [Decidable p] {x : Option State} :
    ((guard p : Option Unit).bind fun _ => x) = if p then x else none := by
  by_cases holds : p <;> simp [holds]

theorem runIntegrateAsk_eq : runIntegrateAsk d c s =
    if applies d c s integrateAsk then some (effect d c s integrateAsk) else none := by
  cases waits : s.pending with
  | none => simp [runIntegrateAsk, waits]
  | some m =>
    cases act : m.act with
    | ask q =>
      simp only [runIntegrateAsk, applies, effect, taking_of_pending waits, waits, Move.tag,
        Act.tag, Move.question?, act, Option.bind_eq_bind, Option.bind_some, guard_bind,
        Option.any_some]
      cases c.threshold.le m.confidence with
      | false => simp
      | true =>
        cases planForAsked? d q ((s.consume m).pushQuestion q)
        · simp
        · simp
          split <;> rfl
    | _ => simp [runIntegrateAsk, waits, Move.tag, Move.question?, Act.tag, act]

theorem runIntegrateAnswer_eq : runIntegrateAnswer d c s =
    if applies d c s integrateAnswer then some (effect d c s integrateAnswer) else none := by
  cases waits : s.pending with
  | none => simp [runIntegrateAnswer, State.pendingAnswer, waits]
  | some m =>
    cases answers : s.pendingAnswer c with
    | none => simp [runIntegrateAnswer, waits, answers]
    | some a =>
      have tells : m.answer? = some a := (heard_of_pendingAnswer waits answers).answers
      cases top : s.top with
      | none => simp [runIntegrateAnswer, waits, answers, top]
      | some q =>
        have stays : (s.consume m).top = some q := by simpa [State.top] using top
        have condition : applies d c s integrateAnswer =
            (a.integrable q || ((d.reachable q).find? a.resolves).isSome) := by
          rw [Bool.eq_iff_iff]
          simp [answers, top]
        rw [condition]
        simp only [runIntegrateAnswer, effect, taking_of_pending waits, waits, answers, tells, top,
          stays, Option.bind_eq_bind, Option.bind_some, guard_bind]
        rfl

theorem runIntegrateAssert_eq : runIntegrateAssert s =
    if applies d c s integrateAssert then some (effect d c s integrateAssert) else none := by
  cases waits : s.pending with
  | none => simp [runIntegrateAssert, waits]
  | some m =>
    cases act : m.act <;>
      simp [runIntegrateAssert, taking_of_pending waits, waits, Move.tag, Act.tag, act]

theorem runIntegrateGreet_eq : runIntegrateGreet s =
    if applies d c s integrateGreet then some (effect d c s integrateGreet) else none := by
  cases waits : s.pending with
  | none => simp [runIntegrateGreet, waits]
  | some m =>
    simp [runIntegrateGreet, taking_of_pending waits, waits, guard_bind]

theorem runIntegrateQuit_eq : runIntegrateQuit s =
    if applies d c s integrateQuit then some (effect d c s integrateQuit) else none := by
  cases waits : s.pending with
  | none => simp [runIntegrateQuit, waits]
  | some m =>
    simp [runIntegrateQuit, taking_of_pending waits, waits, guard_bind]

theorem runIntegrateFeedback_eq : runIntegrateFeedback s =
    if applies d c s integrateFeedback then some (effect d c s integrateFeedback) else none := by
  cases waits : s.pending with
  | none => simp [runIntegrateFeedback, waits]
  | some m =>
    cases speaker : m.speaker with
    | system => simp [runIntegrateFeedback, waits, speaker]
    | user =>
      cases act : m.act with
      | feedback f =>
        cases f <;> simp [runIntegrateFeedback, taking_of_pending waits, waits, Move.tag, Act.tag,
          act, speaker]
      | _ => simp [runIntegrateFeedback, waits, Move.tag, Act.tag, act, speaker]

theorem runFindPlan_eq : runFindPlan d s =
    if applies d c s findPlan then some (effect d c s findPlan) else none := by
  cases waits : s.pending with
  | none => simp [runFindPlan, waits]
  | some m =>
    cases act : m.act with
    | request task =>
      cases plans : d.planFor? task <;>
        simp [runFindPlan, taking_of_pending waits, waits, act, plans, guard_bind]
    | _ => simp [runFindPlan, waits, act]

theorem runDowndateQud_eq : runDowndateQud s =
    if applies d c s downdateQud then some (effect d c s downdateQud) else none := by
  cases waits : s.pending <;> cases top : s.top <;>
    simp [runDowndateQud, waits, top, guard_bind]

theorem runExecFindout_eq : runExecFindout s =
    if applies d c s execFindout then some (effect d c s execFindout) else none := by
  cases active : s.activePlan with
  | none => simp [runExecFindout, active, guard_bind]
  | some plan =>
    cases next : plan.nextStep? s.qud with
    | none => simp [runExecFindout, active, next, guard_bind]
    | some step =>
      cases asks : step.action.question? with
      | none => simp [runExecFindout, active, next, asks, guard_bind]
      | some q =>
        simp only [runExecFindout, applies, effect, active, next, asks, guard_bind,
          Option.bind_eq_bind, Option.bind_some, Option.any_some, Option.isSome_some, Bool.and_true,
          Option.pure_def]
        cases s.pending.isNone && s.agenda.isEmpty <;> cases plan.hasOpenStep s.qud <;> simp
        split <;> rfl

/-- Accommodation takes the move wherever it finds a question for its answer. -/
theorem accommodating_eq (find : Answer → Option (Option Plan × Question)) :
    (do
      let m ← s.pending
      let a ← s.pendingAnswer c
      let (plan, q) ← find a
      return ((plan.elim (s.consume m) (s.consume m).loadPlan).accommodate q a).ground m.speaker) =
    if ((s.pendingAnswer c).bind find).isSome then some (s.accommodating c find) else none := by
  cases waits : s.pending with
  | none => simp [State.pendingAnswer, waits]
  | some m =>
    cases answers : s.pendingAnswer c with
    | none => simp
    | some a =>
      have tells : m.answer? = some a := (heard_of_pendingAnswer waits answers).answers
      cases finds : find a <;>
        simp [State.accommodating, taking_of_pending waits, answers, tells, finds]

/-- A rule comes to its effect under its condition. -/
theorem run?_eq (d : Domain) (c : Config) (s : State) (r : UpdateRule) :
    r.run? d c s = if r.applies d c s then some (r.effect d c s) else none := by
  cases r with
  | integrateAsk => exact runIntegrateAsk_eq
  | integrateAnswer => exact runIntegrateAnswer_eq
  | integrateAssert => exact runIntegrateAssert_eq
  | integrateGreet => exact runIntegrateGreet_eq
  | integrateQuit => exact runIntegrateQuit_eq
  | integrateFeedback => exact runIntegrateFeedback_eq
  | findPlan => exact runFindPlan_eq
  | issueAccommodation =>
    rw [applies, effect, ← accommodating_eq]
    · simp [run?, runIssueAccommodation, accommodated?, Option.bind_map, Function.comp_def]
    all_goals simp
  | localQuestionAccommodation =>
    rw [applies, effect, ← accommodating_eq]
    · simp [run?, runLocalQuestionAccommodation, accommodated?, Option.bind_map, Function.comp_def]
    all_goals simp
  | dependentIssueAccommodation =>
    rw [applies, effect, ← accommodating_eq]
    · simp [run?, runDependentIssueAccommodation, accommodated?, Option.bind_map,
        Function.comp_def]
    all_goals simp
  | downdateQud => exact runDowndateQud_eq
  | execFindout => exact runExecFindout_eq

theorem candidates_eq (d : Domain) (c : Config) (s : State) (given : Option Move) :
    candidates d c s given = all.filter (·.applies d c (s.setPending given)) := by
  refine List.filter_congr fun r _ => ?_
  rw [run?_eq]
  cases r.applies d c (s.setPending given) <;> rfl

end UpdateRule

namespace State

variable {d : Domain} {c : Config} {s : State} {given : Option Move}

/-- The first candidate fires, and has its effect. -/
theorem integrate_candidate (d : Domain) (c : Config) (s : State) (given : Option Move) :
    (s.integrate d c given).rule = (UpdateRule.candidates d c s given).head? ∧
      ∀ r, (s.integrate d c given).rule = some r →
        (s.integrate d c given).state = r.effect d c (s.setPending given) := by
  have outcome : UpdateRule.all.findSome? (fun r => (r.run? d c (s.setPending given)).map (r, ·)) =
      (UpdateRule.candidates d c s given).head?.map
        fun r => (r, r.effect d c (s.setPending given)) := by
    rw [UpdateRule.candidates_eq, List.head?_filter]
    induction UpdateRule.all with
    | nil => rfl
    | cons r rest ih =>
      rw [List.findSome?_cons, List.find?_cons, UpdateRule.run?_eq]
      cases r.applies d c (s.setPending given) with
      | true => rfl
      | false => exact ih
  simp only [integrate, outcome]
  cases first : (UpdateRule.candidates d c s given).head? with
  | none => simp
  | some r =>
    have holds : r.applies d c (s.setPending given) = true := by
      have member := List.mem_of_head? first
      rw [UpdateRule.candidates_eq] at member
      exact (List.mem_filter.mp member).2
    have ran := UpdateRule.run?_eq d c (s.setPending given) r
    rw [if_pos holds] at ran
    have free := (UpdateRule.fires_of_run? ran).pending_none
    simp [abandonPending_of_none free, -UpdateRule.effect]

end State
end Dialogue
