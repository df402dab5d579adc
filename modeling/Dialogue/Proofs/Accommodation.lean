import Dialogue.Proofs.Courtesy
import Dialogue.Proofs.Quiescence
import Dialogue.Proofs.Replay
import Dialogue.Proofs.Voicing

/-!
Answers given early. An answer to a question that the plan is to find out later, or that lies below
the topmost one, is taken as if the question had just been put under discussion: the same is
committed, and the plan and the questions under discussion end up the same.
-/
namespace Dialogue

namespace Plan

variable {p : Plan} {q : Question} {step : PlanStep} {id : StepId} {status last : StepStatus}

@[simp] theorem mark_task : (p.mark id status).task = p.task := by
  unfold mark setStatus?
  cases setStatusIn id status p.steps <;> rfl

theorem eq_of_steps {p next : Plan} (task : p.task = next.task) (steps : p.steps = next.steps) :
    p = next := by
  cases p
  cases next
  simp_all

theorem Distinct.mark_mark (h : p.Distinct) (member : step ∈ p.steps) :
    (p.mark step.id status).mark step.id last = p.mark step.id last := by
  obtain ⟨earlier, later, split⟩ := List.append_of_mem member
  have once := h.mark_steps split status
  have distinct : (p.mark step.id status).Distinct := by
    simpa [Distinct, once, split] using h
  exact eq_of_steps (by simp) ((distinct.mark_steps once last).trans (h.mark_steps split last).symm)

/-- Of the steps that wait for a question, the one that was just begun is the first. -/
theorem Distinct.stepFor?_mark_inProgress (h : p.Distinct) (waits : p.stepFor? q = some step) :
    (p.mark step.id .inProgress).stepFor? q = some { step with status := .inProgress } := by
  obtain ⟨_, unfinished, asks⟩ := stepFor?_eq_some waits
  obtain ⟨earlier, later, split, others⟩ := split_of_stepFor? waits
  refine List.find?_eq_some_iff_append.mpr
    ⟨by simp [asks], earlier, later, h.mark_steps split .inProgress, fun y before => ?_⟩
  rcases others y before with completed | other <;> simp [*]

/-- To complete a step it does not matter whether it has been begun. -/
theorem Distinct.markFor_completed (h : p.Distinct) :
    (p.markFor q .inProgress).markFor q .completed = p.markFor q .completed := by
  cases waits : p.stepFor? q with
  | none => simp [markFor, waits]
  | some step =>
    have begun : p.markFor q .inProgress = p.mark step.id .inProgress := by simp [markFor, waits]
    rw [begun]
    simpa [markFor, h.stepFor?_mark_inProgress waits, waits] using
      h.mark_mark (stepFor?_eq_some waits).1

end Plan

namespace State

/-- A question is put under discussion, and the step that waits for it is begun, if there is one. -/
def discuss (q : Question) (s : State) : State := (s.pushQuestion q).startStepFor q

/-- An answer is taken for a question that is not topmost: the plan is to find it out, or it lies
below the topmost one. -/
inductive Accommodates (d : Domain) (c : Config) (s : State) (m : Move) (q : Question) : Prop
  | planned {a : Answer} (answers : m.answer? = some a)
      (fired : (s.integrate d c (some m)).rule = some .issueAccommodation)
      (finds : UpdateRule.plannedQuestion? s a = some q)
  | buried {a : Answer} (answers : m.answer? = some a)
      (fired : (s.integrate d c (some m)).rule = some .localQuestionAccommodation)
      (finds : UpdateRule.buriedQuestion? s a = some q)

variable {d : Domain} {c : Config} {s t : State} {m : Move} {a : Answer} {q : Question}
  {p : Proposition} {speaker : Speaker} {residual : Question}

theorem content_ext (standing : t.standing = s.standing) (agenda : t.agenda = s.agenda)
    (plan : t.plan = s.plan) (qud : t.qud = s.qud) (commitments : t.commitments = s.commitments)
    (pending : t.pending = s.pending) (lastConfidence : t.lastConfidence = s.lastConfidence)
    (awaitingGrounding : t.awaitingGrounding = s.awaitingGrounding) (cycle : t.cycle = s.cycle) :
    t.content = s.content := by
  simp only [State.standing, Standing.mk.injEq] at standing
  simp only [content, standing, agenda, plan, qud, commitments, pending, lastConfidence,
    awaitingGrounding, cycle]

theorem ground_awaitingGrounding :
    (s.ground speaker).awaitingGrounding = (s.awaitingGrounding || decide (speaker = .user)) := by
  unfold ground
  split <;> simp [*]

theorem consume_lastConfidence (same : s.lastConfidence = t.lastConfidence) :
    (s.consume m).lastConfidence = (t.consume m).lastConfidence := by
  simpa [consume] using setConfidence_lastConfidence (by simpa using same)

@[simp] theorem discuss_frame :
    (s.discuss q).agenda = s.agenda ∧ (s.discuss q).qud = q :: s.qud ∧
    (s.discuss q).commitments = s.commitments ∧ (s.discuss q).pending = s.pending ∧
    (s.discuss q).lastConfidence = s.lastConfidence ∧
    (s.discuss q).awaitingGrounding = s.awaitingGrounding ∧ (s.discuss q).cycle = s.cycle ∧
    (s.discuss q).standing = s.standing := by
  simp [discuss]

@[simp] theorem discuss_plan :
    (s.discuss q).plan = s.plan.map fun plan => plan.markFor q .inProgress := by
  simp [discuss]

theorem plannedQuestion?_setPending {given : Option Move} :
    UpdateRule.plannedQuestion? (s.setPending given) a = UpdateRule.plannedQuestion? s a := by
  simp [UpdateRule.plannedQuestion?, activePlan]

theorem buriedQuestion?_setPending {given : Option Move} :
    UpdateRule.buriedQuestion? (s.setPending given) a = UpdateRule.buriedQuestion? s a := by
  simp [UpdateRule.buriedQuestion?]

/-- An answer that fits the topmost question is integrated there. -/
theorem integrate_answered {given : Option Move} {after : State}
    (heard : (s.setPending given).Heard c m a)
    (ran : UpdateRule.runIntegrateAnswer d c (s.setPending given) = some after) :
    s.integrate d c given = ⟨after, some .integrateAnswer, 1, none⟩ := by
  obtain ⟨b, act⟩ := Move.act_of_answer? heard.answers
  have silent : m.question? = none := by simp [Move.question?, act]
  have unasked : UpdateRule.runIntegrateAsk d c (s.setPending given) = none := by
    simp [UpdateRule.runIntegrateAsk, heard.pending, silent]
  have taken : after.pending = none := (UpdateRule.fires_of_runIntegrateAnswer ran).pending_none
  simp [integrate, UpdateRule.all, UpdateRule.run?, unasked, ran, taken, abandonPending_of_none]

/-- An answer that settles the topmost question is integrated, whatever waited before. -/
theorem Heard.settles {given : Option Move} (heard : (s.setPending given).Heard c m a)
    (top : s.top = some q) (settles : q.resolution a = some p) : s.integrate d c given =
      ⟨(((s.setPending given).consume m).popQuestion.settle q p).ground m.speaker,
        some .integrateAnswer, 1, none⟩ := by
  have fits : a.integrable q = true := by simp [Answer.integrable, Answer.resolves, settles]
  refine integrate_answered heard ?_
  simp [UpdateRule.runIntegrateAnswer, heard.pending, UpdateRule.pendingAnswer_of_heard heard, top,
    fits, settles]

theorem heard_of_free (free : s.pending = none) (answers : m.answer? = some a)
    (sure : m.confidence.lt c.threshold = false) : (s.setPending (some m)).Heard c m a :=
  ⟨setPending_of_free free, sure, answers⟩

theorem integrate_settles (free : s.pending = none) (answers : m.answer? = some a)
    (sure : m.confidence.lt c.threshold = false) (top : s.top = some q)
    (settles : q.resolution a = some p) : s.integrate d c (some m) =
      ⟨(((s.setPending (some m)).consume m).popQuestion.settle q p).ground m.speaker,
        some .integrateAnswer, 1, none⟩ :=
  (heard_of_free free answers sure).settles top settles

theorem integrate_narrows (free : s.pending = none) (answers : m.answer? = some a)
    (sure : m.confidence.lt c.threshold = false) (top : s.top = some q)
    (fits : a.integrable q = true) (unsettled : q.resolution a = none)
    (narrows : q.combines a = some residual) : s.integrate d c (some m) =
      ⟨(((s.setPending (some m)).consume m).pushQuestion residual).ground m.speaker,
        some .integrateAnswer, 1, none⟩ := by
  have heard := heard_of_free free answers sure
  refine integrate_answered heard ?_
  simp [UpdateRule.runIntegrateAnswer, heard.pending, UpdateRule.pendingAnswer_of_heard heard, top,
    fits, unsettled, narrows]

theorem discuss_top : (s.discuss q).top = some q := by
  simp [top]

/-- To commit to what settles a question, it does not matter when the question came under
discussion. -/
theorem settled_content (distinct : ∀ plan, s.plan = some plan → plan.Distinct) :
    (((((s.discuss q).setPending (some m)).consume m).popQuestion.settle q p).ground
        speaker).content =
      (((((s.setPending (some m)).consume m).pushQuestion q).popQuestion.settle q p).ground
        speaker).content := by
  refine content_ext (by simp) (by simp) ?_ (by simp) (by simp) (by simp) ?_ ?_ (by simp)
  · cases loaded : s.plan with
    | none => simp [loaded]
    | some plan => simp [loaded, (distinct plan loaded).markFor_completed]
  · simpa using consume_lastConfidence (by simp)
  · simp [ground_awaitingGrounding]

theorem narrowed_content :
    (((((s.discuss q).setPending (some m)).consume m).pushQuestion residual).ground
        speaker).content =
      ((((((s.setPending (some m)).consume m).pushQuestion q).startStepFor q).pushQuestion
        residual).ground speaker).content := by
  refine content_ext (by simp) (by simp) (by simp) (by simp) (by simp) (by simp) ?_ ?_ (by simp)
  · simpa using consume_lastConfidence (by simp)
  · simp [ground_awaitingGrounding]

theorem Heard.same {m' : Move} {a' : Answer} (heard : s.Heard c m' a') (waits : s.pending = some m)
    (answers : m.answer? = some a) : m = m' ∧ a = a' := by
  cases waits.symm.trans heard.pending
  cases answers.symm.trans heard.answers
  exact ⟨rfl, rfl⟩

/-- What integration does with an answer that is taken for a question that is not topmost. -/
theorem Accommodates.outcome (early : s.Accommodates d c m q) (free : s.pending = none) :
    ∃ a r, m.answer? = some a ∧ m.confidence.lt c.threshold = false ∧
      ((∃ p, q.resolution a = some p ∧ s.integrate d c (some m) =
        ⟨((((s.setPending (some m)).consume m).pushQuestion q).popQuestion.settle q p).ground
          m.speaker, some r, 1, none⟩) ∨
      ∃ residual, a.integrable q = true ∧ q.resolution a = none ∧ q.combines a = some residual ∧
        s.integrate d c (some m) =
          ⟨(((((s.setPending (some m)).consume m).pushQuestion q).startStepFor q).pushQuestion
            residual).ground m.speaker, some r, 1, none⟩) := by
  have waits : (s.setPending (some m)).pending = some m := setPending_of_free free
  rcases s.integrate_cases d c (some m) with ⟨r, after, fires, outcome⟩ | ⟨_, outcome⟩
  · cases early with
    | @planned a answers fired finds =>
      rw [← plannedQuestion?_setPending] at finds
      simp only [outcome, Option.some.injEq] at fired
      subst fired
      cases fires with
      | issueSettled heard finds' settles =>
        obtain ⟨rfl, rfl⟩ := heard.same waits answers
        cases finds.symm.trans finds'
        exact ⟨a, _, answers, heard.confident, .inl ⟨_, settles, outcome⟩⟩
      | issueNarrowed heard finds' unsettled narrows =>
        obtain ⟨rfl, rfl⟩ := heard.same waits answers
        cases finds.symm.trans finds'
        have fits := (UpdateRule.plannedQuestion?_eq_some finds).2.2.2
        exact ⟨a, _, answers, heard.confident, .inr ⟨_, fits, unsettled, narrows, outcome⟩⟩
    | @buried a answers fired finds =>
      rw [← buriedQuestion?_setPending] at finds
      simp only [outcome, Option.some.injEq] at fired
      subst fired
      cases fires with
      | buried heard finds' settles =>
        obtain ⟨rfl, rfl⟩ := heard.same waits answers
        cases finds.symm.trans finds'
        exact ⟨a, _, answers, heard.confident, .inl ⟨_, settles, outcome⟩⟩
  · cases early with
    | planned _ fired | buried _ fired => simp [outcome] at fired

end State

/-- An answer that is taken for a planned or a buried question has the effect that it has when it is
given to the same question after that was put under discussion and its step begun: it is integrated
at the topmost question then, and apart from the history and its version the states agree. -/
theorem early_answer_as_asked (d : Domain) (c : Config) (calls : List Call) (m : Move)
    (q : Question) (early : (reached d c calls).Accommodates d c m q) :
    (((reached d c calls).discuss q).integrate d c (some m)).rule = some .integrateAnswer ∧
      (((reached d c calls).discuss q).integrate d c (some m)).leftover =
        ((reached d c calls).integrate d c (some m)).leftover ∧
      (((reached d c calls).discuss q).integrate d c (some m)).state.content =
        ((reached d c calls).integrate d c (some m)).state.content := by
  have free := reached_free d c calls
  have discussed : ((reached d c calls).discuss q).pending = none := by simp [free]
  have distinct (plan : Plan) (loaded : (reached d c calls).plan = some plan) : plan.Distinct :=
    (reached_planSound d c calls plan loaded).distinct
  obtain ⟨a, r, answers, sure, outcomes⟩ := early.outcome free
  rcases outcomes with ⟨p, settles, outcome⟩ | ⟨residual, fits, unsettled, narrows, outcome⟩
  · rw [State.integrate_settles discussed answers sure State.discuss_top settles, outcome]
    exact ⟨rfl, rfl, State.settled_content distinct⟩
  · rw [State.integrate_narrows discussed answers sure State.discuss_top fits unsettled narrows,
      outcome]
    exact ⟨rfl, rfl, State.narrowed_content⟩

/-- A task that asks two questions, of which the second offers options. -/
def decorator : Domain := .ofTask "paint" [.findout (.yesNo "glossy"), .findout shade]

/-- The user is asked the first question, and answers both in the wrong order. -/
def decoratorAsked : List Call := paintRequested ++ [.beginCycle .user]

def decoratorNarrowed : List Call :=
  decoratorAsked ++ [.integrate (some sayBlue), .select, .beginCycle .user]

/-- The answer to the second question narrows it down, and the one to the first finds that question
below what is left of the second. Both are taken as if they had been given when asked. -/
theorem wrong_order_as_asked :
    (reached decorator {} decoratorAsked).Accommodates decorator {} sayBlue shade ∧
    (((reached decorator {} decoratorAsked).discuss shade).integrate decorator {}
        (some sayBlue)).state.content =
      ((reached decorator {} decoratorAsked).integrate decorator {} (some sayBlue)).state.content ∧
    (reached decorator {} decoratorNarrowed).Accommodates decorator {} sayYes (.yesNo "glossy") ∧
    (((reached decorator {} decoratorNarrowed).discuss (.yesNo "glossy")).integrate decorator {}
        (some sayYes)).state.content =
      ((reached decorator {} decoratorNarrowed).integrate decorator {}
        (some sayYes)).state.content := by
  have ahead : (reached decorator {} decoratorAsked).Accommodates decorator {} sayBlue shade :=
    .planned rfl (by decide +kernel) (by decide +kernel)
  have below : (reached decorator {} decoratorNarrowed).Accommodates decorator {} sayYes
      (.yesNo "glossy") := .buried rfl (by decide +kernel) (by decide +kernel)
  exact ⟨ahead, (early_answer_as_asked decorator {} decoratorAsked sayBlue shade ahead).2.2,
    below, (early_answer_as_asked decorator {} decoratorNarrowed sayYes _ below).2.2⟩

end Dialogue
