import Dialogue.Proofs.History
import Dialogue.Proofs.Run

/-!
No step that was begun is dropped. As long as it is in progress, its question is under discussion,
since a question leaves the discussion only when it is resolved, and takes its step along. That
works although a plan may ask a question in several steps and the stack may hold it several times:
of the steps for one question only the first that is not completed is ever in progress.
-/
namespace Dialogue

namespace Plan

/-- Every step in progress asks a question under discussion, and no step before it is left that asks
the same. -/
structure Underway (discussed : List Question) (p : Plan) : Prop where
  distinct : p.Distinct
  asks : ∀ x ∈ p.steps, x.status = .inProgress → ∃ q ∈ discussed, x.action.question? = some q
  foremost : p.steps.Pairwise fun y x => x.status = .inProgress →
    y.status = .completed ∨ y.action.question? ≠ x.action.question?

variable {p : Plan} {q : Question} {step : PlanStep} {status : StepStatus}
  {earlier later : List PlanStep} {discussed rest more : List Question}

theorem IsNew.underway (h : p.IsNew) : p.Underway discussed where
  distinct := h.distinct
  asks x member begun := by simp [h.pending x member] at begun
  foremost := by
    refine List.pairwise_of_forall_mem_list fun y _ x member begun => ?_
    simp [h.pending x member] at begun

/-- Setting the status of a step of a plan changes it where it stands. -/
theorem Distinct.mark_steps (h : p.Distinct) (split : p.steps = earlier ++ step :: later)
    (status : StepStatus) :
    (p.mark step.id status).steps = earlier ++ { step with status } :: later := by
  have member : step ∈ p.steps := by simp [split]
  obtain ⟨before, after, split', marked⟩ := h.mark member status
  have nodup : p.steps.Nodup := List.Nodup.of_map PlanStep.id h
  rw [split', List.nodup_middle, List.nodup_cons, List.mem_append, not_or] at nodup
  have same := split'.symm.trans split
  obtain ⟨rfl, -, rfl⟩ := (List.append_cons_inj_of_notMem nodup.1.1 nodup.1.2).mp same
  exact marked

/-- The step that waits for a question stands behind steps that are completed or ask something
else. -/
theorem split_of_stepFor? (waits : p.stepFor? q = some step) :
    ∃ earlier later, p.steps = earlier ++ step :: later ∧
      ∀ y ∈ earlier, y.status = .completed ∨ y.action.question? ≠ some q := by
  obtain ⟨_, earlier, later, split, others⟩ := List.find?_eq_some_iff_append.mp waits
  refine ⟨earlier, later, split, fun y member => ?_⟩
  have other := others y member
  simp only [ne_eq, decide_not, Bool.not_and, Bool.not_not, Bool.or_eq_true, decide_eq_true_eq,
    Bool.not_eq_true', decide_eq_false_iff_not] at other
  exact other

namespace Underway

theorem mono (h : p.Underway discussed) (grows : ∀ q ∈ discussed, q ∈ more) : p.Underway more where
  distinct := h.distinct
  asks x member begun := by
    obtain ⟨q, on, asks⟩ := h.asks x member begun
    exact ⟨q, grows q on, asks⟩
  foremost := h.foremost

theorem mark_distinct (h : p.Underway discussed) (split : p.steps = earlier ++ step :: later) :
    (p.mark step.id status).Distinct := by
  have ids := h.distinct
  simp only [Distinct, h.distinct.mark_steps split, split, List.map_append, List.map_cons] at ids ⊢
  exact ids

/-- A step can be completed wherever it stands. The steps in progress that remain decide which
questions have to stay under discussion. -/
theorem complete_at (h : p.Underway discussed) (split : p.steps = earlier ++ step :: later)
    (others : ∀ x ∈ earlier ++ later, x.status = .inProgress →
      ∃ q ∈ rest, x.action.question? = some q) :
    (p.mark step.id .completed).Underway rest := by
  have marked := h.distinct.mark_steps split .completed
  have foremost := h.foremost
  rw [split, List.pairwise_append, List.pairwise_cons] at foremost
  obtain ⟨before, ⟨between, after⟩, across⟩ := foremost
  refine ⟨h.mark_distinct split, fun x member begun => ?_, ?_⟩
  · rw [marked] at member
    rcases List.mem_append.mp member with member | member
    · exact others x (List.mem_append_left _ member) begun
    · rcases List.mem_cons.mp member with rfl | member
      · contradiction
      · exact others x (List.mem_append_right _ member) begun
  · rw [marked, List.pairwise_append, List.pairwise_cons]
    refine ⟨before, ⟨fun x _ _ => .inl rfl, after⟩, fun y hy x hx begun => ?_⟩
    rcases List.mem_cons.mp hx with rfl | hx
    · contradiction
    · exact across y hy x (List.mem_cons_of_mem _ hx) begun

theorem complete (h : p.Underway discussed) (member : step ∈ p.steps) :
    (p.mark step.id .completed).Underway discussed := by
  obtain ⟨earlier, later, split⟩ := List.append_of_mem member
  refine h.complete_at split fun x among => h.asks x ?_
  rw [split]
  rcases List.mem_append.mp among with among | among <;> simp [among]

theorem completeFor (h : p.Underway discussed) : (p.markFor q .completed).Underway discussed := by
  unfold markFor
  split
  · rename_i step waits
    exact h.complete (stepFor?_eq_some waits).1
  · exact h

/-- When a question leaves the discussion, the step that waits for it is completed, and no other
step in progress asks the same. -/
theorem pop (h : p.Underway (q :: rest)) : (p.markFor q .completed).Underway rest := by
  have stays {x : PlanStep} (member : x ∈ p.steps) (begun : x.status = .inProgress)
      (other : x.action.question? ≠ some q) : ∃ r ∈ rest, x.action.question? = some r := by
    obtain ⟨r, on, asks⟩ := h.asks x member begun
    rcases List.mem_cons.mp on with rfl | on
    · exact absurd asks other
    · exact ⟨r, on, asks⟩
  unfold markFor
  split
  · rename_i step waits
    obtain ⟨_, unfinished, asks⟩ := stepFor?_eq_some waits
    obtain ⟨earlier, later, split, foremost⟩ := split_of_stepFor? waits
    refine h.complete_at split fun x among begun => ?_
    rcases List.mem_append.mp among with before | behind
    · refine stays (by simp [split, before]) begun ((foremost x before).resolve_left ?_)
      simp [begun]
    · have pairs := h.foremost
      rw [split, List.pairwise_append, List.pairwise_cons] at pairs
      have apart := (pairs.2.1.1 x behind begun).resolve_left unfinished
      exact stays (by simp [split, behind]) begun (asks ▸ apart.symm)
  · rename_i nothing
    refine ⟨h.distinct, fun x member begun => stays member begun fun asks => ?_, h.foremost⟩
    have idle := List.find?_eq_none.mp nothing x member
    simp [begun, asks] at idle

/-- A step may begin if its question is under discussion and no step before it is left for that. -/
theorem start_at (h : p.Underway discussed) (split : p.steps = earlier ++ step :: later)
    (asks : step.action.question? = some q) (on : q ∈ discussed)
    (unfinished : step.status ≠ .completed)
    (foremost : ∀ y ∈ earlier, y.status = .completed ∨ y.action.question? ≠ some q) :
    (p.mark step.id .inProgress).Underway discussed := by
  have marked := h.distinct.mark_steps split .inProgress
  have pairs := h.foremost
  rw [split, List.pairwise_append, List.pairwise_cons] at pairs
  obtain ⟨before, ⟨between, after⟩, across⟩ := pairs
  refine ⟨h.mark_distinct split, fun x member begun => ?_, ?_⟩
  · rw [marked] at member
    rcases List.mem_append.mp member with member | member
    · exact h.asks x (by simp [split, member]) begun
    · rcases List.mem_cons.mp member with rfl | member
      · exact ⟨q, on, asks⟩
      · exact h.asks x (by simp [split, member]) begun
  · rw [marked, List.pairwise_append, List.pairwise_cons]
    refine ⟨before, ⟨fun x hx begun => ?_, after⟩, fun y hy x hx begun => ?_⟩
    · exact .inr ((between x hx begun).resolve_left unfinished)
    · rcases List.mem_cons.mp hx with rfl | hx
      · simpa only [asks] using foremost y hy
      · exact across y hy x (List.mem_cons_of_mem _ hx) begun

theorem startFor (h : p.Underway discussed) (on : q ∈ discussed) :
    (p.markFor q .inProgress).Underway discussed := by
  unfold markFor
  split
  · rename_i step waits
    obtain ⟨_, unfinished, asks⟩ := stepFor?_eq_some waits
    obtain ⟨earlier, later, split, foremost⟩ := split_of_stepFor? waits
    exact h.start_at split asks on unfinished foremost
  · exact h

/-- Only pending steps are carried out next. -/
theorem pending_of_nextStep? (h : p.Underway discussed)
    (next : p.nextStep? discussed = some step) : step.status = .pending := by
  obtain ⟨member, due⟩ := nextStep?_eq_some next
  cases status : step.status with
  | pending => rfl
  | completed => simp [isDue, status] at due
  | inProgress =>
    obtain ⟨q, on, asks⟩ := h.asks step member status
    simp [isDue, status, asks, on] at due

/-- While no step is open, the next step can begin, once its question is under discussion. -/
theorem start (h : p.Underway discussed) (idle : p.hasOpenStep discussed = false)
    (next : p.nextStep? discussed = some step) (asks : step.action.question? = some q) :
    (p.mark step.id .inProgress).Underway (q :: discussed) := by
  obtain ⟨_, earlier, later, split, waiting⟩ := List.find?_eq_some_iff_append.mp next
  have pending := h.pending_of_nextStep? next
  refine (h.mono fun _ => List.mem_cons_of_mem q).start_at split asks (List.mem_cons_self ..)
    (by simp [pending]) fun y before => .inl ?_
  have member : y ∈ p.steps := by simp [split, before]
  cases status : y.status with
  | completed => rfl
  | pending => simpa [isDue, status] using waiting y before
  | inProgress =>
    -- a step in progress is open, as its question is under discussion
    obtain ⟨r, on, asks⟩ := h.asks y member status
    have idle := List.any_eq_false.mp idle y member
    simp [status, asks, on] at idle

end Underway
end Plan

namespace State

/-- The steps in progress of the plan, if there is one, are under discussion. -/
def Underway (s : State) : Prop := ∀ plan, s.plan = some plan → plan.Underway s.qud

variable {s t : State} {q : Question} {plan : Plan} {step : PlanStep}

namespace Underway

theorem keep (h : s.Underway) (same : t.plan = s.plan) (grows : ∀ q ∈ s.qud, q ∈ t.qud) :
    t.Underway :=
  fun plan loaded => (h plan (same ▸ loaded)).mono grows

theorem change (h : s.Underway) {f : Plan → Plan} (changed : t.plan = s.plan.map f)
    (keeps : ∀ plan, s.plan = some plan → plan.Underway s.qud → (f plan).Underway t.qud) :
    t.Underway := by
  intro plan loaded
  obtain ⟨before, was, rfl⟩ := Option.map_eq_some_iff.mp (changed.symm.trans loaded)
  exact keeps before was (h before was)

theorem completeFor (h : s.Underway)
    (changed : t.plan = s.plan.map fun plan => plan.markFor q .completed)
    (same : t.qud = s.qud) : t.Underway :=
  h.change changed fun _ _ underway => same ▸ underway.completeFor

theorem pop (h : s.Underway) (top : s.top = some q)
    (changed : t.plan = s.plan.map fun plan => plan.markFor q .completed)
    (popped : t.qud = s.qud.tail) : t.Underway := by
  obtain ⟨rest, discussed⟩ := List.head?_eq_some_iff.mp top
  refine h.change changed fun plan _ underway => ?_
  rw [discussed] at underway popped
  exact popped ▸ underway.pop

theorem load (loaded : t.plan = some plan) (new : plan.IsNew) : t.Underway := by
  intro other also
  cases loaded.symm.trans also
  exact new.underway

theorem complete (h : s.Underway) (step : PlanStep)
    (member : ∀ plan, s.plan = some plan → step ∈ plan.steps)
    (changed : t.plan = s.plan.map fun plan => plan.mark step.id .completed)
    (grows : ∀ q ∈ s.qud, q ∈ t.qud) : t.Underway :=
  h.change changed fun plan there underway => (underway.mono grows).complete (member plan there)

/-- The next step of the active plan belongs to the plan. -/
theorem mem_of_next (active : s.activePlan = some plan)
    (next : plan.nextStep? s.qud = some step) (other : Plan) (there : s.plan = some other) :
    step ∈ other.steps := by
  cases (activePlan_eq_some.mp active).1.symm.trans there
  exact (Plan.nextStep?_eq_some next).1

theorem start (h : s.Underway) (active : s.activePlan = some plan)
    (idle : plan.hasOpenStep s.qud = false) (next : plan.nextStep? s.qud = some step)
    (asks : step.action.question? = some q)
    (changed : t.plan = s.plan.map fun plan => plan.mark step.id .inProgress)
    (pushed : t.qud = q :: s.qud) : t.Underway := by
  refine h.change changed fun other there underway => ?_
  cases (activePlan_eq_some.mp active).1.symm.trans there
  exact pushed ▸ underway.start idle next asks

end Underway
end State

namespace UpdateRule

variable {d : Domain} {c : Config} {s after : State} {r : UpdateRule} {q : Question} {plan : Plan}

theorem Fires.underway (h : Fires d c s r after) (underway : s.Underway) : after.Underway := by
  cases h with
  | planned _ _ _ _ _ plans => exact .load (by simp) (isNew_of_planForAsked? plans)
  | requested _ _ _ _ plans => exact .load (by simp) (Domain.isNew_of_planFor? plans)
  | @settled m a q p _ top => exact underway.pop top (by simp) (by simp)
  | @downdated q _ top => exact underway.pop top (by simp) (by simp)
  | @needed m a t q | @issueSettled m a q | @buried m a q =>
    exact underway.completeFor (q := q) (by simp) (by simp)
  | @volunteered m a plan q p _ finds =>
    refine State.Underway.completeFor (q := q) (s := (s.consume m).loadPlan plan) ?_ (by simp)
      (by simp)
    exact .load (by simp) (isNew_of_answeredTask? finds)
  | @issueNarrowed m a q residual =>
    refine underway.change (f := fun plan => plan.markFor q .inProgress) (by simp) ?_
    intro plan _ begun
    exact (begun.mono (by simp +contextual)).startFor (by simp)
  | skipped _ _ active _ next =>
    exact underway.complete _ (State.Underway.mem_of_next active next) (by simp) (by simp)
  | begun _ _ active idle next asks =>
    exact underway.start active idle next asks (by simp) (by simp)
  | _ => exact underway.keep (by simp) (by simp +contextual)

/-- A question under discussion stays there, unless it is resolved when the rule has fired. -/
theorem Fires.stays (h : Fires d c s r after) (on : q ∈ s.qud) :
    q ∈ after.qud ∨ q.resolvedBy after.commitments = true := by
  cases h with
  | @settled m a top p _ atTop settles =>
    obtain ⟨rest, discussed⟩ := List.head?_eq_some_iff.mp atTop
    rw [discussed] at on
    rcases List.mem_cons.mp on with rfl | below
    · exact .inr (by simp [Question.resolvedBy_insert settles])
    · exact .inl (by simp [discussed, below])
  | @downdated top _ atTop resolved =>
    obtain ⟨rest, discussed⟩ := List.head?_eq_some_iff.mp atTop
    rw [discussed] at on
    rcases List.mem_cons.mp on with rfl | below
    · exact .inr (by simpa using resolved)
    · exact .inl (by simp [discussed, below])
  | _ => exact .inl (by simp [on])

end UpdateRule

namespace SelectionRule

variable {d : Domain} {c : Config} {s after : State} {r : SelectionRule} {m : Move} {q : Question}

theorem Fires.underway (h : Fires d c s r after m) (underway : s.Underway) : after.Underway := by
  cases h with
  | @raised q step _ _ _ waits =>
    refine underway.complete step (fun plan loaded => ?_) (by simp) (by simp)
    have waits : plan.stepFor? q = some step := by simpa [State.stepFor?, loaded] using waits
    exact (Plan.stepFor?_eq_some waits).1
  | @pursued plan step q _ active idle next finds =>
    have pending := (underway plan (State.activePlan_eq_some.mp active).1).pending_of_nextStep? next
    rw [if_pos pending]
    exact underway.start active idle next (q := q) (by simp [finds, PlanAction.question?])
      (by simp) (by simp)
  | posed _ active _ next | informed _ active _ next =>
    exact underway.complete _ (State.Underway.mem_of_next active next) (by simp)
      (by simp +contextual)
  | answered top => exact underway.pop top (by simp) (by simp)
  | _ => exact underway.keep (by simp) (by simp +contextual)

theorem Fires.stays (h : Fires d c s r after m) (on : q ∈ s.qud) :
    q ∈ after.qud ∨ q.resolvedBy after.commitments = true := by
  cases h with
  | @answered top p atTop _ _ believes =>
    obtain ⟨v, _, settles⟩ := Option.bind_eq_some_iff.mp believes
    obtain ⟨rest, discussed⟩ := List.head?_eq_some_iff.mp atTop
    rw [discussed] at on
    rcases List.mem_cons.mp on with rfl | below
    · exact .inr (by simp [Question.resolvedBy_insert settles])
    · exact .inl (by simp [discussed, below])
  | pursued => exact .inl (by split <;> simp [on])
  | _ => exact .inl (by simp [on])

end SelectionRule

namespace Call

variable {d : Domain} {c : Config} {s : State} {q : Question}

theorem underway (call : Call) (underway : s.Underway) : (call.run d c s).Underway := by
  cases call with
  | integrate m =>
    rcases s.integrate_cases d c m with ⟨r, after, fires, outcome⟩ | ⟨_, outcome⟩
    · have waiting : (s.setPending m).Underway := underway.keep (by simp) (by simp)
      simpa only [run, outcome] using fires.underway waiting
    · exact underway.keep (by simp [run, outcome]) (by simp [run, outcome])
  | select =>
    rcases s.select_cases d c with ⟨r, after, m, fires, outcome⟩ | ⟨_, outcome⟩
    · exact (fires.underway underway).keep (by simp [run, outcome]) (by simp [run, outcome])
    · exact underway.keep (by simp [run, outcome]) (by simp [run, outcome])
  | _ => exact underway.keep (by simp [run]) (by simp [run])

/-- What a call takes off the stack is resolved after the call. -/
theorem popped (call : Call) : ∃ gone, (call.run d c s).popped = s.popped ++ gone ∧
    ∀ q ∈ gone, q.resolvedBy (call.run d c s).commitments = true := by
  cases call with
  | integrate m =>
    rcases s.integrate_cases d c m with ⟨r, after, fires, outcome⟩ | ⟨_, outcome⟩
    · simpa only [run, outcome, State.setPending_recorded] using fires.popped
    · exact ⟨[], by simp [run, outcome], by simp⟩
  | select =>
    rcases s.select_cases d c with ⟨r, after, m, fires, outcome⟩ | ⟨_, outcome⟩
    · simpa [run, outcome] using fires.popped
    · exact ⟨[], by simp [run, outcome], by simp⟩
  | _ => exact ⟨[], by simp [run], by simp⟩

theorem stays (call : Call) (on : q ∈ s.qud) :
    q ∈ (call.run d c s).qud ∨ q.resolvedBy (call.run d c s).commitments = true := by
  cases call with
  | integrate m =>
    rcases s.integrate_cases d c m with ⟨r, after, fires, outcome⟩ | ⟨_, outcome⟩
    · simpa only [run, outcome] using fires.stays (q := q) (by simpa using on)
    · exact .inl (by simpa [run, outcome] using on)
  | select =>
    rcases s.select_cases d c with ⟨r, after, m, fires, outcome⟩ | ⟨_, outcome⟩
    · simpa [run, outcome] using fires.stays on
    · exact .inl (by simpa [run, outcome] using on)
  | _ => exact .inl (by simpa [run] using on)

end Call

theorem reached_underway (d : Domain) (c : Config) (calls : List Call) :
    (reached d c calls).Underway :=
  reached_induction (P := State.Underway) (fun _ loaded => by simp at loaded)
    (fun _ call => call.underway) calls

/-- In every state that is reached, each step in progress is to ask a question that is under
discussion, so that only pending steps are ever carried out next. Whatever is called then, a
question that is taken off the stack, for whatever purpose and however often it occurs, is resolved
after the call, and any question under discussion stays there unless it is resolved. -/
theorem begun_steps_stay_discussed (d : Domain) (c : Config) (calls : List Call) :
    (∀ plan, (reached d c calls).plan = some plan →
      (∀ step ∈ plan.steps, step.status = .inProgress → ∃ q ∈ (reached d c calls).qud,
        step.action = .findout q ∨ step.action = .raise q) ∧
      ∀ step, plan.nextStep? (reached d c calls).qud = some step → step.status = .pending) ∧
    ∀ call : Call,
      (∃ gone, (call.run d c (reached d c calls)).popped = (reached d c calls).popped ++ gone ∧
        ∀ q ∈ gone, q.resolvedBy (call.run d c (reached d c calls)).commitments = true) ∧
      ∀ q ∈ (reached d c calls).qud, q ∈ (call.run d c (reached d c calls)).qud ∨
        q.resolvedBy (call.run d c (reached d c calls)).commitments = true := by
  refine ⟨fun plan loaded => ?_, fun call => ⟨call.popped, fun q on => call.stays on⟩⟩
  have underway := reached_underway d c calls plan loaded
  refine ⟨fun step member begun => ?_, fun step => underway.pending_of_nextStep?⟩
  obtain ⟨q, on, asks⟩ := underway.asks step member begun
  refine ⟨q, on, ?_⟩
  cases action : step.action <;> simp_all [PlanAction.question?]

def errandBegun : Plan where
  task := "post"
  steps := [⟨⟨"post/0"⟩, .findout (.yesNo "late"), .inProgress⟩,
    ⟨⟨"post/1"⟩, .inform ⟨"told", .bool true⟩, .pending⟩]

/-- The question of the errand is under discussion until the answer takes it off the stack, and then
it is resolved. -/
theorem errand_question_discussed :
    (reached errand {} (errandAnswered.take 4)).plan = some errandBegun ∧
    (∀ step ∈ errandBegun.steps, step.status = .inProgress →
      ∃ q ∈ (reached errand {} (errandAnswered.take 4)).qud,
        step.action = .findout q ∨ step.action = .raise q) ∧
    (reached errand {} errandAnswered).popped = [.yesNo "late"] ∧
    ∃ gone, (reached errand {} errandAnswered).popped =
        (reached errand {} (errandAnswered.take 4)).popped ++ gone ∧
      ∀ q ∈ gone, q.resolvedBy (reached errand {} errandAnswered).commitments = true := by
  have loaded : (reached errand {} (errandAnswered.take 4)).plan = some errandBegun := by
    decide +kernel
  obtain ⟨begun, calls⟩ := begun_steps_stay_discussed errand {} (errandAnswered.take 4)
  have answered := (calls (.integrate (some (.answer .user (.short (.bool true)))))).1
  rw [← reached_concat] at answered
  exact ⟨loaded, (begun errandBegun loaded).1, by decide +kernel, answered⟩

end Dialogue
