import Dialogue.Proofs.Run

/-!
Completed steps have been carried out. A step of a plan is completed in many places, but only where
its question is resolved, was asked aloud as far as it is only to be raised, or where what it is to
inform of has been committed; none of this is ever undone.
-/
namespace Dialogue

namespace State

/-- What an action of a plan is for has come about. -/
def CarriedOut (s : State) : PlanAction → Prop
  | .findout q => q.resolvedBy s.commitments = true
  | .raise q => s.wasAsked q = true ∨ q.resolvedBy s.commitments = true
  | .inform p => p ∈ s.commitments

/-- The plan of a state, if it has one, is sound relative to what has been done. -/
def PlanSound (s : State) (done : PlanAction → Prop) : Prop :=
  ∀ plan, s.plan = some plan → plan.Sound done

variable {d : Domain} {s t : State} {action : PlanAction} {q : Question}
  {done more : PlanAction → Prop} {plan : Plan} {step : PlanStep}

theorem carriedOut_of_resolved (asks : action.question? = some q)
    (resolved : q.resolvedBy s.commitments = true) : s.CarriedOut action := by
  cases action with
  | findout => cases asks; exact resolved
  | raise => cases asks; exact .inr resolved
  | inform => contradiction

theorem Grows.carriedOut (h : s.Grows t) (action : PlanAction) (carried : s.CarriedOut action) :
    t.CarriedOut action := by
  cases action with
  | findout q => exact q.resolvedBy_mono carried h.commitments
  | raise q =>
    rcases carried with asked | resolved
    · exact .inl (h.wasAsked asked)
    · exact .inr (q.resolvedBy_mono resolved h.commitments)
  | inform p => exact h.commitments p carried

namespace PlanSound

theorem mono (h : s.PlanSound done) (grows : ∀ action, done action → more action) :
    s.PlanSound more :=
  fun plan loaded => (h plan loaded).mono grows

theorem keep (h : s.PlanSound done) (same : t.plan = s.plan) : t.PlanSound done :=
  fun plan loaded => h plan (same ▸ loaded)

theorem change (h : s.PlanSound done) {f : Plan → Plan} (changed : t.plan = s.plan.map f)
    (keeps : ∀ plan, s.plan = some plan → plan.Sound done → (f plan).Sound done) :
    t.PlanSound done := by
  intro plan loaded
  obtain ⟨before, was, rfl⟩ := Option.map_eq_some_iff.mp (changed.symm.trans loaded)
  exact keeps before was (h before was)

theorem transfer (h : s.PlanSound s.CarriedOut) (grows : s.Grows t) (same : t.plan = s.plan) :
    t.PlanSound t.CarriedOut :=
  (h.mono grows.carriedOut).keep same

theorem completeFor (h : s.PlanSound t.CarriedOut) (resolved : q.resolvedBy t.commitments = true)
    (changed : t.plan = s.plan.map fun plan => plan.markFor q .completed) :
    t.PlanSound t.CarriedOut := by
  refine h.change changed fun plan _ sound => sound.markFor fun _ action asks => ?_
  exact carriedOut_of_resolved asks resolved

theorem startFor (h : s.PlanSound done)
    (changed : t.plan = s.plan.map fun plan => plan.markFor q .inProgress) : t.PlanSound done :=
  h.change changed fun _ _ sound => sound.markFor (by simp)

theorem complete (h : s.PlanSound done) (active : s.activePlan = some plan)
    (next : plan.nextStep? s.qud = some step)
    (changed : t.plan = s.plan.map fun plan => plan.mark step.id .completed)
    (carried : done step.action) : t.PlanSound done := by
  refine h.change changed fun other loaded sound => ?_
  cases (activePlan_eq_some.mp active).1.symm.trans loaded
  exact sound.mark (Plan.nextStep?_eq_some next).1 (by simp) fun _ => carried

theorem start (h : s.PlanSound done) (active : s.activePlan = some plan)
    (next : plan.nextStep? s.qud = some step) (asks : step.action.question? = some q)
    (changed : t.plan = s.plan.map fun plan => plan.mark step.id .inProgress) :
    t.PlanSound done := by
  refine h.change changed fun other loaded sound => ?_
  cases (activePlan_eq_some.mp active).1.symm.trans loaded
  exact sound.mark (Plan.nextStep?_eq_some next).1 (by simp [asks]) (by simp)

theorem load (sound : plan.Sound done) (loaded : t.plan = some plan) : t.PlanSound done := by
  intro other also
  cases loaded.symm.trans also
  exact sound

end PlanSound
end State

namespace UpdateRule

variable {d : Domain} {c : Config} {s after : State} {r : UpdateRule}

theorem Fires.planSound (h : Fires d c s r after) (sound : s.PlanSound s.CarriedOut) :
    after.PlanSound after.CarriedOut := by
  have sound := sound.mono h.grows.carriedOut
  cases h with
  | planned _ _ _ _ _ plans => exact .load (.of_isNew (isNew_of_planForAsked? plans)) (by simp)
  | requested _ _ _ _ plans => exact .load (.of_isNew (Domain.isNew_of_planFor? plans)) (by simp)
  | @settled m a q p _ _ settles | @needed m a t q p _ _ _ _ settles
  | @issueSettled m a q p _ _ settles | @buried m a q p _ _ settles =>
    exact sound.completeFor (q := q) (by simp [Question.resolvedBy_insert settles]) (by simp)
  | @volunteered m a plan q p heard finds settles =>
    -- the plan is a new one, so nothing is known about it but that all its steps are pending
    refine State.PlanSound.completeFor (q := q) (s := (s.consume m).loadPlan plan) ?_ ?_ ?_
    · exact .load (.of_isNew (isNew_of_answeredTask? finds)) State.loadPlan_plan
    · simp [Question.resolvedBy_insert settles]
    · simp
  | @issueNarrowed m a q residual => exact sound.startFor (q := q) (by simp)
  | @downdated q _ _ resolved =>
    exact sound.completeFor (q := q) (by simpa using resolved) (by simp)
  | skipped _ _ active _ next asks resolved =>
    refine sound.complete active next (by simp) ?_
    exact State.carriedOut_of_resolved asks (by simpa using resolved)
  | begun _ _ active _ next asks => exact sound.start active next asks (by simp)
  | _ => exact sound.keep (by simp)

end UpdateRule

namespace SelectionRule

variable {d : Domain} {c : Config} {s after : State} {r : SelectionRule} {m : Move}

theorem Fires.planSound (h : Fires d c s r after m) (sound : s.PlanSound s.CarriedOut) :
    after.PlanSound after.CarriedOut := by
  have sound := sound.mono h.grows.carriedOut
  cases h with
  | @raised q step _ _ _ waits raises =>
    -- the step was looked up by its question but is marked by its id
    refine sound.change (f := fun plan => plan.mark step.id .completed) (by simp) ?_
    intro plan loaded ok
    have member : plan.stepFor? q = some step := by simpa [State.stepFor?, loaded] using waits
    refine ok.mark (Plan.stepFor?_eq_some member).1 (by simp) fun _ => ?_
    rw [raises]
    exact .inl State.wasAsked_emit_ask
  | @pursued plan step q _ active _ next finds =>
    by_cases waits : step.status = .pending
    · rw [if_pos waits] at sound ⊢
      exact sound.start active next (q := q) (by simp [finds, PlanAction.question?]) (by simp)
    · rw [if_neg waits] at sound ⊢
      exact sound.keep (by simp)
  | @posed plan step q _ active _ next raises =>
    refine sound.complete active next (by simp) ?_
    rw [raises]
    exact .inl State.wasAsked_emit_ask
  | informed _ active _ next informs =>
    refine sound.complete active next (by simp) ?_
    rw [informs]
    simp [State.CarriedOut]
  | @answered q p _ _ _ believes =>
    obtain ⟨v, _, settles⟩ := Option.bind_eq_some_iff.mp believes
    exact sound.completeFor (q := q) (by simp [Question.resolvedBy_insert settles]) (by simp)
  | _ => exact sound.keep (by simp)

end SelectionRule

theorem State.PlanSound.setPending {s : State} {m : Option Move}
    (sound : s.PlanSound s.CarriedOut) :
    (s.setPending m).PlanSound (s.setPending m).CarriedOut :=
  sound.transfer ⟨by simp, by simp⟩ (by simp)

theorem Call.planSound {d : Domain} {c : Config} {s : State} (call : Call)
    (sound : s.PlanSound s.CarriedOut) :
    (call.run d c s).PlanSound (call.run d c s).CarriedOut := by
  have grows : s.Grows (call.run d c s) := call.grows
  cases call with
  | integrate m =>
    rcases s.integrate_cases d c m with ⟨r, after, fires, outcome⟩ | ⟨_, outcome⟩
    · have fired := fires.planSound sound.setPending
      simpa only [run, outcome] using fired
    · exact sound.transfer grows (by simp [run, outcome])
  | select =>
    rcases s.select_cases d c with ⟨r, after, m, fires, outcome⟩ | ⟨_, outcome⟩
    · have fired := fires.planSound sound
      simp only [run, outcome]
      exact fired.transfer ⟨by simp, by simp⟩ (by simp)
    · exact sound.transfer grows (by simp [run, outcome])
  | _ => exact sound.transfer grows (by simp [run])

theorem reached_planSound (d : Domain) (c : Config) (calls : List Call) :
    (reached d c calls).PlanSound (reached d c calls).CarriedOut :=
  reached_induction (P := fun s => s.PlanSound s.CarriedOut) (fun _ loaded => by simp at loaded)
    (fun _ call => call.planSound) calls

/-- In every state that is reached, the completed steps of the plan have been carried out. When
the system informs of something from the plan, all steps before have been completed, so that
everything they were to find out is resolved. -/
theorem completed_steps_carried_out (d : Domain) (c : Config) (calls : List Call) :
    (∀ plan step, (reached d c calls).plan = some plan → step ∈ plan.steps →
      step.status = .completed → (reached d c calls).CarriedOut step.action) ∧
    ∀ m p, ((reached d c calls).select d c).chosen = some (.fromPlan, m) → m.act = .assert p →
      ∃ plan earlier step later, (reached d c calls).plan = some plan ∧
        plan.nextStep? (reached d c calls).qud = some step ∧ step.action = .inform p ∧
        plan.steps = earlier ++ step :: later ∧ (∀ x ∈ earlier, x.status = .completed) ∧
        ∀ x ∈ earlier, ∀ q, x.action = .findout q →
          q.resolvedBy (reached d c calls).commitments = true := by
  have sound := reached_planSound d c calls
  generalize reached d c calls = s at sound ⊢
  refine ⟨fun plan step loaded member done => (sound plan loaded).carriedOut step member done, ?_⟩
  intro m p chosen asserts
  rcases s.select_cases d c with ⟨r, after, m', fires, outcome⟩ | ⟨_, outcome⟩
  · rw [outcome] at chosen
    cases chosen
    cases fires with
    | @informed plan step p' _ active idle next informs =>
      cases asserts
      obtain ⟨loaded, _⟩ := State.activePlan_eq_some.mp active
      obtain ⟨earlier, later, split, completed⟩ := (sound plan loaded).completed_before idle next
      refine ⟨plan, earlier, step, later, loaded, next, informs, split, completed, ?_⟩
      intro x before q finds
      have member : x ∈ plan.steps := by simp [split, before]
      have carried := (sound plan loaded).carriedOut x member (completed x before)
      simpa [State.CarriedOut, finds] using carried
    | pursued => cases asserts
    | posed => cases asserts
  · simp [outcome] at chosen

theorem errand_informs_when_answered : ∃ plan earlier step later,
    (reached errand {} errandAnswered).plan = some plan ∧
      plan.nextStep? (reached errand {} errandAnswered).qud = some step ∧
      step.action = .inform ⟨"told", .bool true⟩ ∧ plan.steps = earlier ++ step :: later ∧
      (∀ x ∈ earlier, x.status = .completed) ∧
      ∀ x ∈ earlier, ∀ q, x.action = .findout q →
        q.resolvedBy (reached errand {} errandAnswered).commitments = true :=
  (completed_steps_carried_out errand {} errandAnswered).2 (.assert .system ⟨"told", .bool true⟩)
    ⟨"told", .bool true⟩ (by decide +kernel) rfl

end Dialogue
