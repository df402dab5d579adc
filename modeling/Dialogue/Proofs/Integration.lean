import Mathlib.Data.Option.Basic
import Dialogue.Proofs.State

/-!
What integration can do. Each way in which an update rule fires is one case of a relation, with the
conditions under which the rule applies; a rule that fires leaves no move pending.
-/
namespace Dialogue

/-- An answer that waits for integration in a move, and is sure enough to be integrated. -/
structure State.Heard (c : Config) (s : State) (m : Move) (a : Answer) : Prop where
  pending : s.pending = some m
  confident : m.confidence.lt c.threshold = false
  answers : m.answer? = some a

theorem Domain.isNew_of_planFor? {d : Domain} {task : String} {plan : Plan}
    (h : d.planFor? task = some plan) : plan.IsNew := by
  obtain ⟨t, _, rfl⟩ := Option.map_eq_some_iff.mp h
  exact ⟨task, t.actions, rfl⟩

namespace UpdateRule

/-- The outcomes of the update rules in a state where a move may be pending. -/
inductive Fires (d : Domain) (c : Config) (s : State) : UpdateRule → State → Prop
  | asked {m q} (pending : s.pending = some m) (asks : m.question? = some q)
      (sure : c.threshold.le m.confidence = true) :
      Fires d c s integrateAsk ((s.consume m).pushQuestion q)
  | planned {m q plan} (pending : s.pending = some m) (asks : m.question? = some q)
      (sure : c.threshold.le m.confidence = true) (user : m.speaker = .user)
      (idle : s.activePlan = none)
      (plans : planForAsked? d q s = some plan) :
      Fires d c s integrateAsk (((s.consume m).pushQuestion q).loadPlan plan)
  | settled {m a q p} (heard : s.Heard c m a) (top : s.top = some q)
      (settles : q.resolution a = some p) :
      Fires d c s integrateAnswer (((s.consume m).popQuestion.settle q p).ground m.speaker)
  | narrowed {m a q residual} (heard : s.Heard c m a) (top : s.top = some q)
      (unsettled : q.resolution a = none) (narrows : q.combines a = some residual) :
      Fires d c s integrateAnswer (((s.consume m).pushQuestion residual).ground m.speaker)
  | needed {m a t q p} (heard : s.Heard c m a) (top : s.top = some t)
      (unfit : a.integrable t = false) (finds : (d.reachable t).find? a.resolves = some q)
      (settles : q.resolution a = some p) :
      Fires d c s integrateAnswer (((s.consume m).settle q p).ground m.speaker)
  | asserted {m p} (pending : s.pending = some m) (asserts : m.act = .assert p) :
      Fires d c s integrateAssert (((s.consume m).commit p).ground m.speaker)
  | greeted {m} (pending : s.pending = some m) (user : m.speaker = .user)
      (greets : m.act = .greet) :
      Fires d c s integrateGreet ((s.consume m).enqueue (.greet .system))
  | parted {m} (pending : s.pending = some m) (user : m.speaker = .user)
      (quits : m.act = .quit) :
      Fires d c s integrateQuit ((s.consume m).enqueue (.quit .system)).terminate
  | ended {m} (pending : s.pending = some m) (system : m.speaker = .system)
      (quits : m.act = .quit) :
      Fires d c s integrateQuit (s.consume m).terminate
  | misunderstood {m} (pending : s.pending = some m) (user : m.speaker = .user)
      (tells : m.act = .feedback .notUnderstood) :
      Fires d c s integrateFeedback ((s.consume m).setConfidence .zero)
  | acknowledged {m} (pending : s.pending = some m) (user : m.speaker = .user)
      (tells : m.act = .feedback .acknowledge) :
      Fires d c s integrateFeedback (s.consume m)
  | requested {m task plan} (pending : s.pending = some m) (requests : m.act = .request task)
      (idle : s.activePlan = none) (accommodable : d.isAccommodable task = true)
      (plans : d.planFor? task = some plan) :
      Fires d c s findPlan ((s.consume m).loadPlan plan)
  | issueSettled {m a q p} (heard : s.Heard c m a) (finds : plannedQuestion? s a = some q)
      (settles : q.resolution a = some p) :
      Fires d c s issueAccommodation
        ((((s.consume m).pushQuestion q).popQuestion.settle q p).ground m.speaker)
  | issueNarrowed {m a q residual} (heard : s.Heard c m a) (finds : plannedQuestion? s a = some q)
      (unsettled : q.resolution a = none) (narrows : q.combines a = some residual) :
      Fires d c s issueAccommodation
        (((((s.consume m).pushQuestion q).startStepFor q).pushQuestion residual).ground m.speaker)
  | buried {m a q p} (heard : s.Heard c m a) (finds : buriedQuestion? s a = some q)
      (settles : q.resolution a = some p) :
      Fires d c s localQuestionAccommodation
        ((((s.consume m).pushQuestion q).popQuestion.settle q p).ground m.speaker)
  | volunteered {m a plan q p} (heard : s.Heard c m a)
      (finds : answeredTask? d s a = some (plan, q)) (settles : q.resolution a = some p) :
      Fires d c s dependentIssueAccommodation
        (((((s.consume m).loadPlan plan).pushQuestion q).popQuestion.settle q p).ground m.speaker)
  | downdated {q} (free : s.pending = none) (top : s.top = some q)
      (resolved : q.resolvedBy s.commitments = true) :
      Fires d c s downdateQud (s.popQuestion.completeStepFor q)
  | skipped {plan step q} (free : s.pending = none) (empty : s.agenda = [])
      (active : s.activePlan = some plan) (idle : plan.hasOpenStep s.qud = false)
      (next : plan.nextStep? s.qud = some step) (asks : step.action.question? = some q)
      (resolved : q.resolvedBy s.commitments = true) :
      Fires d c s execFindout (s.completeStep step.id)
  | begun {plan step q} (free : s.pending = none) (empty : s.agenda = [])
      (active : s.activePlan = some plan) (idle : plan.hasOpenStep s.qud = false)
      (next : plan.nextStep? s.qud = some step) (asks : step.action.question? = some q)
      (unresolved : q.resolvedBy s.commitments = false) :
      Fires d c s execFindout ((s.pushQuestion q).startStep step.id)

inductive Tidies (s : State) : UpdateRule → State → Prop
  | downdated {q} (top : s.top = some q) (resolved : q.resolvedBy s.commitments = true) :
      Tidies s downdateQud (s.popQuestion.completeStepFor q)
  | skipped {plan step q} (active : s.activePlan = some plan)
      (next : plan.nextStep? s.qud = some step) (asks : step.action.question? = some q)
      (resolved : q.resolvedBy s.commitments = true) :
      Tidies s execFindout (s.completeStep step.id)
  | begun {plan step q} (active : s.activePlan = some plan)
      (next : plan.nextStep? s.qud = some step) (asks : step.action.question? = some q)
      (unresolved : q.resolvedBy s.commitments = false) :
      Tidies s execFindout ((s.pushQuestion q).startStep step.id)

variable {d : Domain} {c : Config} {s after : State} {a : Answer} {q : Question} {m : Move}
  {r : UpdateRule}

theorem heard_of_pendingAnswer (pending : s.pending = some m) (waits : s.pendingAnswer c = some a) :
    s.Heard c m a := by
  simp only [State.pendingAnswer, pending, Option.bind_eq_bind, Option.bind_some,
    Option.ite_none_left_eq_some, Bool.not_eq_true] at waits
  exact ⟨pending, waits.1, waits.2⟩

/-- An answer that does not settle a question but can be integrated narrows it down. -/
theorem narrows_of_integrable (fits : a.integrable q = true) (unsettled : q.resolution a = none) :
    ∃ residual, q.combines a = some residual := by
  have : a.resolves q = false := by simp [Answer.resolves, unsettled]
  simp only [Answer.integrable, this, Bool.false_or, Bool.and_eq_true] at fits
  exact Option.isSome_iff_exists.mp fits.2

/-- A planned question that fits an answer is one to find out, and is not under discussion. -/
theorem plannedQuestion?_eq_some (h : plannedQuestion? s a = some q) :
    s.top.any a.integrable = false ∧ (∃ plan id, s.activePlan = some plan ∧
      (id, q) ∈ plan.openFindouts) ∧ q ∉ s.qud ∧ a.integrable q = true := by
  simp only [plannedQuestion?, Option.bind_eq_bind, Option.bind_eq_some_iff, Option.guard_eq_some',
    Bool.not_eq_true'] at h
  obtain ⟨_, unfit, plan, active, finds⟩ := h
  obtain ⟨⟨id, q⟩, member, rfl⟩ := List.mem_map.mp (List.mem_of_find?_eq_some finds)
  have fits := List.find?_some finds
  simp only [Bool.and_eq_true, decide_eq_true_eq] at fits
  exact ⟨unfit, ⟨plan, id, active, member⟩, fits.1, fits.2⟩

theorem mem_of_buriedQuestion? (h : buriedQuestion? s a = some q) :
    q ∈ s.qud ∧ a.resolves q = true :=
  ⟨List.mem_of_mem_tail (List.mem_of_find?_eq_some h), List.find?_some (p := a.resolves) h⟩

/-- An answer settles what an accommodable task is to find out, while no plan is active. -/
theorem answeredTask?_eq_some {plan : Plan} (h : answeredTask? d s a = some (plan, q)) :
    s.activePlan = none ∧ (∃ task id, d.isAccommodable task = true ∧ d.planFor? task = some plan ∧
      (id, q) ∈ plan.openFindouts) ∧ a.resolves q = true := by
  simp only [answeredTask?, Option.bind_eq_bind, Option.bind_eq_some_iff, Option.guard_eq_some',
    Option.isNone_iff_eq_none] at h
  obtain ⟨_, idle, h⟩ := h
  obtain ⟨offered, among, h⟩ := List.exists_of_findSome?_eq_some h
  obtain ⟨task, listed, plans⟩ := List.mem_filterMap.mp among
  simp only [Option.map_eq_some_iff, Prod.mk.injEq] at h
  obtain ⟨q, finds, rfl, rfl⟩ := h
  obtain ⟨⟨id, q⟩, member, rfl⟩ := List.mem_map.mp (List.mem_of_find?_eq_some finds)
  exact ⟨idle, ⟨task, id, (List.mem_filter.mp listed).2, plans, member⟩,
    List.find?_some (p := a.resolves) finds⟩

theorem isNew_of_planForAsked? {plan : Plan} (h : planForAsked? d q s = some plan) :
    plan.IsNew := by
  rcases Option.or_eq_some_iff.mp h with own | ⟨_, needed⟩
  · obtain ⟨task, _, plans⟩ := Option.bind_eq_some_iff.mp own
    exact Domain.isNew_of_planFor? plans
  · split at needed
    · contradiction
    · cases needed
      exact ⟨_, _, rfl⟩

theorem isNew_of_answeredTask? {plan : Plan} (h : answeredTask? d s a = some (plan, q)) :
    plan.IsNew := by
  obtain ⟨_, ⟨task, id, _, plans, _⟩, _⟩ := answeredTask?_eq_some h
  exact Domain.isNew_of_planFor? plans

theorem fires_of_runIntegrateAsk (h : runIntegrateAsk d c s = some after) :
    Fires d c s integrateAsk after := by
  simp only [runIntegrateAsk, Option.bind_eq_bind, Option.bind_eq_some_iff,
    Option.guard_eq_some'] at h
  obtain ⟨m, pending, q, asks, _, sure, h⟩ := h
  split at h
  · rename_i own
    simp only [Bool.and_eq_true, decide_eq_true_eq, Option.isNone_iff_eq_none] at own
    split at h
    · rename_i plan plans
      cases h
      exact .planned pending asks sure own.1 (by simpa [State.activePlan] using own.2)
        (by simpa [planForAsked?] using plans)
    · cases h
      exact .asked pending asks sure
  · cases h
    exact .asked pending asks sure

theorem fires_of_runIntegrateAnswer (h : runIntegrateAnswer d c s = some after) :
    Fires d c s integrateAnswer after := by
  simp only [runIntegrateAnswer, Option.bind_eq_bind, Option.bind_eq_some_iff,
    Option.guard_eq_some', Option.pure_def, Option.some.injEq, Bool.or_eq_true] at h
  obtain ⟨m, pending, a, waits, top, atTop, _, fits, rfl⟩ := h
  have heard := heard_of_pendingAnswer pending waits
  cases settles : top.resolution a with
  | some p => simpa only [settles] using Fires.settled heard atTop settles
  | none =>
    cases narrows : top.combines a with
    | some residual =>
      simpa only [settles, narrows] using Fires.narrowed heard atTop settles narrows
    | none =>
      have unfit : a.integrable top = false := by
        simp [Answer.integrable, Answer.resolves, settles, narrows]
      obtain ⟨q, finds⟩ := Option.isSome_iff_exists.mp (fits.resolve_left (by simp [unfit]))
      have resolves : a.resolves q = true := List.find?_some finds
      obtain ⟨p, resolution⟩ := Option.isSome_iff_exists.mp resolves
      simpa only [settles, narrows, finds, resolution] using
        Fires.needed heard atTop unfit finds resolution

theorem fires_of_runIntegrateAssert (h : runIntegrateAssert s = some after) :
    Fires d c s integrateAssert after := by
  simp only [runIntegrateAssert, Option.bind_eq_bind, Option.bind_eq_some_iff] at h
  obtain ⟨m, pending, h⟩ := h
  split at h
  · rename_i p asserts
    cases h
    exact .asserted pending asserts
  · contradiction

theorem fires_of_runIntegrateGreet (h : runIntegrateGreet s = some after) :
    Fires d c s integrateGreet after := by
  simp only [runIntegrateGreet, Option.bind_eq_bind, Option.bind_eq_some_iff,
    Option.guard_eq_some'] at h
  obtain ⟨m, pending, _, own, h⟩ := h
  cases h
  simp only [Bool.and_eq_true, decide_eq_true_eq] at own
  exact .greeted pending own.1 own.2

theorem fires_of_runIntegrateQuit (h : runIntegrateQuit s = some after) :
    Fires d c s integrateQuit after := by
  simp only [runIntegrateQuit, Option.bind_eq_bind, Option.bind_eq_some_iff,
    Option.guard_eq_some'] at h
  obtain ⟨m, pending, _, quits, h⟩ := h
  cases h
  cases speaker : m.speaker with
  | user => simpa [speaker] using Fires.parted pending speaker quits
  | system => simpa [speaker] using Fires.ended pending speaker quits

theorem fires_of_runIntegrateFeedback (h : runIntegrateFeedback s = some after) :
    Fires d c s integrateFeedback after := by
  simp only [runIntegrateFeedback, Option.bind_eq_bind, Option.bind_eq_some_iff] at h
  obtain ⟨m, pending, h⟩ := h
  split at h
  · rename_i user tells
    cases h
    exact .misunderstood pending user tells
  · rename_i user tells
    cases h
    exact .acknowledged pending user tells
  · contradiction

theorem fires_of_runFindPlan (h : runFindPlan d s = some after) : Fires d c s findPlan after := by
  simp only [runFindPlan, Option.bind_eq_bind, Option.bind_eq_some_iff] at h
  obtain ⟨m, pending, h⟩ := h
  split at h
  · rename_i task requests
    simp only [Option.bind_eq_some_iff, Option.guard_eq_some', Bool.and_eq_true,
      Option.isNone_iff_eq_none] at h
    obtain ⟨_, ⟨idle, accommodable⟩, plan, plans, h⟩ := h
    cases h
    exact .requested pending requests idle accommodable plans
  · contradiction

theorem fires_of_runIssueAccommodation (h : runIssueAccommodation c s = some after) :
    Fires d c s issueAccommodation after := by
  simp only [runIssueAccommodation, Option.bind_eq_bind, Option.bind_eq_some_iff] at h
  obtain ⟨m, pending, a, waits, q, finds, h⟩ := h
  cases h
  have heard := heard_of_pendingAnswer pending waits
  cases settles : q.resolution a with
  | some p => simpa only [State.accommodate, settles] using Fires.issueSettled heard finds settles
  | none =>
    have fits := (plannedQuestion?_eq_some finds).2.2.2
    obtain ⟨residual, narrows⟩ := narrows_of_integrable fits settles
    simpa only [State.accommodate, settles, narrows] using
      Fires.issueNarrowed heard finds settles narrows

theorem fires_of_runLocalQuestionAccommodation
    (h : runLocalQuestionAccommodation c s = some after) :
    Fires d c s localQuestionAccommodation after := by
  simp only [runLocalQuestionAccommodation, Option.bind_eq_bind, Option.bind_eq_some_iff] at h
  obtain ⟨m, pending, a, waits, q, finds, h⟩ := h
  cases h
  obtain ⟨p, settles⟩ := Option.isSome_iff_exists.mp (mem_of_buriedQuestion? finds).2
  simpa only [State.accommodate, settles] using
    Fires.buried (heard_of_pendingAnswer pending waits) finds settles

theorem fires_of_runDependentIssueAccommodation
    (h : runDependentIssueAccommodation d c s = some after) :
    Fires d c s dependentIssueAccommodation after := by
  simp only [runDependentIssueAccommodation, Option.bind_eq_bind, Option.bind_eq_some_iff] at h
  obtain ⟨m, pending, a, waits, ⟨plan, q⟩, finds, h⟩ := h
  cases h
  obtain ⟨p, settles⟩ := Option.isSome_iff_exists.mp (answeredTask?_eq_some finds).2.2
  simpa only [State.accommodate, settles] using
    Fires.volunteered (heard_of_pendingAnswer pending waits) finds settles

theorem fires_of_runDowndateQud (h : runDowndateQud s = some after) :
    Fires d c s downdateQud after := by
  simp only [runDowndateQud, Option.bind_eq_bind, Option.bind_eq_some_iff, Option.guard_eq_some',
    Option.isNone_iff_eq_none] at h
  obtain ⟨_, free, q, top, _, resolved, h⟩ := h
  cases h
  exact .downdated free top resolved

theorem fires_of_runExecFindout (h : runExecFindout s = some after) :
    Fires d c s execFindout after := by
  simp only [runExecFindout, Option.bind_eq_bind, Option.bind_eq_some_iff, Option.guard_eq_some',
    Bool.and_eq_true, Option.isNone_iff_eq_none, List.isEmpty_iff, Bool.not_eq_true'] at h
  obtain ⟨_, ⟨free, empty⟩, plan, active, _, idle, step, next, q, asks, h⟩ := h
  split at h
  · rename_i resolved
    cases h
    exact .skipped free empty active idle next asks resolved
  · rename_i unresolved
    cases h
    exact .begun free empty active idle next asks (by simpa using unresolved)

/-- A rule that applies fires in one of the ways listed. -/
theorem fires_of_run? (h : r.run? d c s = some after) : Fires d c s r after := by
  cases r with
  | integrateAsk => exact fires_of_runIntegrateAsk h
  | integrateAnswer => exact fires_of_runIntegrateAnswer h
  | integrateAssert => exact fires_of_runIntegrateAssert h
  | integrateGreet => exact fires_of_runIntegrateGreet h
  | integrateQuit => exact fires_of_runIntegrateQuit h
  | integrateFeedback => exact fires_of_runIntegrateFeedback h
  | findPlan => exact fires_of_runFindPlan h
  | issueAccommodation => exact fires_of_runIssueAccommodation h
  | localQuestionAccommodation => exact fires_of_runLocalQuestionAccommodation h
  | dependentIssueAccommodation => exact fires_of_runDependentIssueAccommodation h
  | downdateQud => exact fires_of_runDowndateQud h
  | execFindout => exact fires_of_runExecFindout h

theorem Fires.tidies (h : Fires d c s r after) (free : s.pending = none) : Tidies s r after := by
  cases h with
  | downdated _ top resolved => exact .downdated top resolved
  | skipped _ _ active _ next asks resolved => exact .skipped active next asks resolved
  | begun _ _ active _ next asks unresolved => exact .begun active next asks unresolved
  | settled heard | narrowed heard | needed heard | issueSettled heard | issueNarrowed heard
  | buried heard | volunteered heard =>
    exact absurd heard.pending (by simp [free])
  | asked pending | planned pending | asserted pending | greeted pending | parted pending
  | ended pending | misunderstood pending | acknowledged pending | requested pending =>
    simp [free] at pending

/-- A rule takes the pending move, or there was none. -/
theorem Fires.pending_none (h : Fires d c s r after) : after.pending = none := by
  cases h <;> simp [*]

end UpdateRule

namespace State

variable {d : Domain} {c : Config} {s : State} {m : Option Move} {heard : Move}

/-- The move that waits is the one given, unless one that is equal waited already. -/
theorem setPending_pending : (s.setPending m).pending = m ∨
    (s.setPending m).pending = s.pending ∧ samePending (s.setPending m).pending m = true := by
  unfold setPending
  split
  · rename_i same
    exact .inr ⟨rfl, same⟩
  · exact .inl (by simp)

/-- Where no move waits, the one given does. -/
theorem setPending_of_free (free : s.pending = none) : (s.setPending m).pending = m := by
  rcases s.setPending_pending (m := m) with given | ⟨before, same⟩
  · exact given
  · cases m with
    | none => exact before.trans free
    | some m => simp [before, free, samePending] at same

/-- The move that waits after one was set is that one, or waited before and agrees with it. -/
theorem setPending_eq_some (h : (s.setPending m).pending = some heard) :
    ∃ given, m = some given ∧
      (heard = given ∨ s.pending = some heard ∧ heard.agrees given = true) := by
  unfold setPending at h
  split at h
  · rename_i same
    cases m with
    | none => simp [samePending, h] at same
    | some given => exact ⟨given, rfl, .inr ⟨h, by simpa [samePending, h] using same⟩⟩
  · simp only [log_frame] at h
    exact ⟨heard, h, .inl rfl⟩

@[simp] theorem abandonPending_frame :
    s.abandonPending.agenda = s.agenda ∧ s.abandonPending.plan = s.plan ∧
    s.abandonPending.qud = s.qud ∧ s.abandonPending.commitments = s.commitments ∧
    s.abandonPending.awaitingGrounding = s.awaitingGrounding ∧
    s.abandonPending.cycle = s.cycle := by
  unfold abandonPending
  split <;> simp

@[simp] theorem abandonPending_pending : s.abandonPending.pending = none := by
  unfold abandonPending
  split <;> simp [*]

@[simp] theorem abandonPending_moves :
    s.abandonPending.moves = s.moves ++ (s.pending.map (·, false)).toList := by
  unfold abandonPending
  split <;> simp [*]

theorem abandonPending_of_none (h : s.pending = none) : s.abandonPending = s := by
  simp [abandonPending, h]

/-- Integration fires one rule that takes the move, or no rule applies and the move is abandoned. -/
theorem integrate_cases (d : Domain) (c : Config) (s : State) (m : Option Move) :
    (∃ r after, UpdateRule.Fires d c (s.setPending m) r after ∧
      s.integrate d c m = ⟨after, some r, 1, none⟩) ∨
    (∀ r : UpdateRule, r.run? d c (s.setPending m) = none) ∧
      s.integrate d c m = ⟨(s.setPending m).abandonPending, none, 0, (s.setPending m).pending⟩ := by
  unfold integrate
  cases found : UpdateRule.all.findSome? fun r => (r.run? d c (s.setPending m)).map (r, ·) with
  | some outcome =>
    obtain ⟨r, _, first⟩ := List.exists_of_findSome?_eq_some found
    obtain ⟨after, ran, rfl⟩ := Option.map_eq_some_iff.mp first
    have fires := UpdateRule.fires_of_run? ran
    refine .inl ⟨r, after, fires, ?_⟩
    simp only [found, fires.pending_none, abandonPending_of_none fires.pending_none]
  | none =>
    refine .inr ⟨fun r => ?_, by simp only [found]⟩
    have idle := List.findSome?_eq_none_iff.mp found r (by cases r <;> simp [UpdateRule.all])
    simpa using idle

/-- A rule that fires is the only one that is run. -/
theorem integrate_bodies : (s.integrate d c m).bodies =
    if (s.integrate d c m).rule.isSome then 1 else 0 := by
  rcases s.integrate_cases d c m with ⟨r, after, _, outcome⟩ | ⟨_, outcome⟩ <;> simp [outcome]

@[simp] theorem integrate_pending : (s.integrate d c m).state.pending = none := by
  rcases s.integrate_cases d c m with ⟨r, after, fires, outcome⟩ | ⟨_, outcome⟩
  · simp [outcome, fires.pending_none]
  · simp [outcome]

end State
end Dialogue
