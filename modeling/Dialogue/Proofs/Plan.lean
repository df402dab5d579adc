import Mathlib.Data.List.Nodup
import Dialogue.Plan

/-!
Laws of plans. The steps of a fresh plan have distinct identifiers, so setting a status by
identifier changes the step that was meant and no other. A plan is sound relative to what has been
done if its completed steps have been carried out and only steps that ask something are ever in
progress.
-/
namespace Dialogue

theorem StepId.numbered_injective (task : String) {i j : Nat}
    (h : task ++ "/" ++ toString i = task ++ "/" ++ toString j) : i = j := by
  have lists := congrArg String.toList h
  simp only [String.toList_append] at lists
  have digits := congrArg (fun s => Nat.ofDigitChars 10 s 0) (List.append_cancel_left lists)
  simpa [Nat.toString_eq_ofList_toDigits] using digits

namespace Plan

variable {p after : Plan} {id : StepId} {status : StepStatus} {q : Question}
  {step : PlanStep} {steps changed : List PlanStep} {discussed : List Question}

def Distinct (p : Plan) : Prop := (p.steps.map PlanStep.id).Nodup

theorem ofActions_distinct (task : String) (actions : List PlanAction) :
    (ofActions task actions).Distinct := by
  refine List.nodup_iff_injective_getElem.mpr fun i j same => ?_
  simp only [ofActions, List.getElem_map, List.getElem_mapIdx, StepId.mk.injEq] at same
  exact Fin.ext (StepId.numbered_injective task same)

theorem mem_ofActions {task : String} {actions : List PlanAction}
    (h : step ∈ (ofActions task actions).steps) :
    step.action ∈ actions ∧ step.status = .pending := by
  obtain ⟨i, bound, rfl⟩ := List.mem_mapIdx.mp h
  exact ⟨List.getElem_mem bound, rfl⟩

def IsNew (p : Plan) : Prop := ∃ task actions, p = .ofActions task actions

theorem IsNew.distinct (h : p.IsNew) : p.Distinct := by
  obtain ⟨task, actions, rfl⟩ := h
  exact ofActions_distinct task actions

theorem IsNew.pending (h : p.IsNew) (step : PlanStep) (member : step ∈ p.steps) :
    step.status = .pending := by
  obtain ⟨task, actions, rfl⟩ := h
  exact (mem_ofActions member).2

theorem Distinct.eq_of_id (h : p.Distinct) {a b : PlanStep} (ha : a ∈ p.steps) (hb : b ∈ p.steps)
    (same : a.id = b.id) : a = b := List.inj_on_of_nodup_map h ha hb same

theorem stepFor?_eq_some (h : p.stepFor? q = some step) :
    step ∈ p.steps ∧ step.status ≠ .completed ∧ step.action.question? = some q :=
  ⟨List.mem_of_find?_eq_some h, by simpa using List.find?_some h⟩

theorem nextStep?_eq_some (h : p.nextStep? discussed = some step) :
    step ∈ p.steps ∧ isDue discussed step = true :=
  ⟨List.mem_of_find?_eq_some h, List.find?_some h⟩

theorem isActive_of_nextStep? (h : p.nextStep? discussed = some step) : p.isActive = true := by
  obtain ⟨member, due⟩ := nextStep?_eq_some h
  refine List.any_eq_true.mpr ⟨step, member, decide_eq_true fun completed => ?_⟩
  simp [isDue, completed] at due

theorem mem_openFindouts (h : (id, q) ∈ p.openFindouts) :
    ∃ step ∈ p.steps, step.status ≠ .completed ∧ step.action = .findout q := by
  obtain ⟨step, member, finds⟩ := List.mem_filterMap.mp h
  split at finds
  · contradiction
  · rename_i action waits
    cases finds
    exact ⟨step, member, waits, action⟩
  · contradiction

theorem setStatusIn_eq_some (h : setStatusIn id status steps = some changed) :
    ∃ earlier step later, steps = earlier ++ step :: later ∧ step.id = id ∧
      step.status ≠ status ∧ changed = earlier ++ { step with status } :: later := by
  induction steps generalizing changed with
  | nil => contradiction
  | cons first rest ih =>
    simp only [setStatusIn] at h
    split at h
    · rename_i same
      split at h
      · contradiction
      · rename_i different
        cases h
        exact ⟨[], first, rest, rfl, same, different, rfl⟩
    · obtain ⟨others, deeper, rfl⟩ := Option.map_eq_some_iff.mp h
      obtain ⟨earlier, step, later, rfl, same, different, rfl⟩ := ih deeper
      exact ⟨first :: earlier, step, later, rfl, same, different, rfl⟩

/-- A status is set in one place, and only where that changes it. -/
theorem setStatus?_eq_some (h : p.setStatus? id status = some after) :
    ∃ earlier step later, p.steps = earlier ++ step :: later ∧ step.id = id ∧
      step.status ≠ status ∧
      after = { p with steps := earlier ++ { step with status } :: later } := by
  obtain ⟨changed, set, rfl⟩ := Option.map_eq_some_iff.mp h
  obtain ⟨earlier, step, later, split, same, different, rfl⟩ := setStatusIn_eq_some set
  exact ⟨earlier, step, later, split, same, different, rfl⟩

theorem setStatusIn_ne_none (member : step ∈ steps) (distinct : (steps.map PlanStep.id).Nodup)
    (different : step.status ≠ status) : setStatusIn step.id status steps ≠ none := by
  induction steps with
  | nil => contradiction
  | cons first rest ih =>
    obtain ⟨fresh, distinct⟩ := List.nodup_cons.mp distinct
    rcases List.mem_cons.mp member with rfl | member
    · simp [setStatusIn, different]
    · have other : first.id ≠ step.id := fun same => fresh (same ▸ List.mem_map_of_mem member)
      simpa [setStatusIn, other] using ih member distinct

/-- The status of a step of a plan can be set by its identifier, if it is another one. -/
theorem Distinct.setStatus? (h : p.Distinct) (member : step ∈ p.steps)
    (different : step.status ≠ status) :
    ∃ earlier later, p.steps = earlier ++ step :: later ∧ p.setStatus? step.id status =
      some { p with steps := earlier ++ { step with status } :: later } := by
  obtain ⟨after, set⟩ : ∃ after, p.setStatus? step.id status = some after := by
    rw [← Option.ne_none_iff_exists']
    simpa [Plan.setStatus?] using setStatusIn_ne_none member h different
  obtain ⟨earlier, found, later, split, same, _, rfl⟩ := setStatus?_eq_some set
  have : found = step := h.eq_of_id (by simp [split]) member same
  subst this
  exact ⟨earlier, later, split, set⟩

theorem distinct_of_setStatus? (h : p.Distinct) (set : p.setStatus? id status = some after) :
    after.Distinct := by
  obtain ⟨earlier, step, later, split, _, _, rfl⟩ := setStatus?_eq_some set
  simpa [Distinct, split] using h

/-- The plan after a status was set, or as it is if that changes nothing. -/
def mark (p : Plan) (id : StepId) (status : StepStatus) : Plan := (p.setStatus? id status).getD p

/-- Setting a status by the identifier of a step changes that step and no other. -/
theorem Distinct.mark (h : p.Distinct) (member : step ∈ p.steps) (status : StepStatus) :
    ∃ earlier later, p.steps = earlier ++ step :: later ∧
      (p.mark step.id status).steps = earlier ++ { step with status } :: later := by
  by_cases same : step.status = status
  · obtain ⟨earlier, later, split⟩ := List.append_of_mem member
    have unchanged : p.setStatus? step.id status = none := by
      rw [Option.eq_none_iff_forall_ne_some]
      intro after set
      obtain ⟨first, found, rest, split, id, different, _⟩ := setStatus?_eq_some set
      exact different (h.eq_of_id (by simp [split]) member id ▸ same)
    refine ⟨earlier, later, split, ?_⟩
    subst same
    simp [Plan.mark, unchanged, split]
  · obtain ⟨earlier, later, split, set⟩ := h.setStatus? member same
    exact ⟨earlier, later, split, by simp [Plan.mark, set]⟩

/-- The status of the step that waits for a question is set, if there is one. -/
def markFor (p : Plan) (q : Question) (status : StepStatus) : Plan :=
  match p.stepFor? q with
  | some step => p.mark step.id status
  | none => p

/-- Completed steps have been carried out, and only steps that ask something are in progress. -/
structure Sound (done : PlanAction → Prop) (p : Plan) : Prop where
  distinct : p.Distinct
  asks : ∀ step ∈ p.steps, step.status = .inProgress → step.action.question?.isSome
  carriedOut : ∀ step ∈ p.steps, step.status = .completed → done step.action

namespace Sound

variable {done more : PlanAction → Prop}

theorem of_isNew (h : p.IsNew) : p.Sound done where
  distinct := h.distinct
  asks step member begun := by simp [h.pending step member] at begun
  carriedOut step member finished := by simp [h.pending step member] at finished

theorem mono (h : p.Sound done) (grows : ∀ action, done action → more action) : p.Sound more :=
  ⟨h.distinct, h.asks, fun step member finished => grows _ (h.carriedOut step member finished)⟩

/-- A step may begin if it asks something, and may be completed if it has been carried out. -/
theorem setStatus (h : p.Sound done) (member : step ∈ p.steps)
    (set : p.setStatus? step.id status = some after)
    (begun : status = .inProgress → step.action.question?.isSome)
    (finished : status = .completed → done step.action) : after.Sound done := by
  have distinct := distinct_of_setStatus? h.distinct set
  obtain ⟨earlier, found, later, split, same, _, rfl⟩ := setStatus?_eq_some set
  have : found = step := h.distinct.eq_of_id (by simp [split]) member same
  subst this
  have others {x : PlanStep} (hx : x ∈ earlier ∨ x ∈ later) : x ∈ p.steps := by
    rw [split]
    rcases hx with hx | hx <;> simp [hx]
  have all {P : PlanStep → Prop} (here : P { found with status }) (there : ∀ x ∈ p.steps, P x) :
      ∀ x ∈ earlier ++ { found with status } :: later, P x := by
    intro x hx
    rcases List.mem_append.mp hx with hx | hx
    · exact there x (others (.inl hx))
    · rcases List.mem_cons.mp hx with rfl | hx
      · exact here
      · exact there x (others (.inr hx))
  exact ⟨distinct, all begun h.asks, all finished h.carriedOut⟩

theorem mark (h : p.Sound done) (member : step ∈ p.steps)
    (begun : status = .inProgress → step.action.question?.isSome)
    (finished : status = .completed → done step.action) : (p.mark step.id status).Sound done := by
  unfold Plan.mark
  cases set : p.setStatus? step.id status with
  | none => exact h
  | some after => exact h.setStatus member set begun finished

theorem markFor (h : p.Sound done)
    (finished : status = .completed →
      ∀ action : PlanAction, action.question? = some q → done action) :
    (p.markFor q status).Sound done := by
  unfold Plan.markFor
  split
  · rename_i step waits
    obtain ⟨member, _, asks⟩ := stepFor?_eq_some waits
    exact h.mark member (fun _ => by simp [asks]) fun completed => finished completed _ asks
  · exact h

/-- While no step is open, all steps before the next one have been completed. -/
theorem completed_before (h : p.Sound done) (idle : p.hasOpenStep discussed = false)
    (next : p.nextStep? discussed = some step) :
    ∃ earlier later, p.steps = earlier ++ step :: later ∧
      ∀ x ∈ earlier, x.status = .completed := by
  obtain ⟨_, earlier, later, split, waiting⟩ := List.find?_eq_some_iff_append.mp next
  refine ⟨earlier, later, split, fun x hx => ?_⟩
  have member : x ∈ p.steps := by simp [split, hx]
  have idle := List.any_eq_false.mp idle x member
  have waiting := waiting x hx
  cases status : x.status with
  | completed => rfl
  | pending => simp [isDue, status] at waiting
  | inProgress =>
    -- a step in progress is either open or due, as it has a question
    obtain ⟨q, asks⟩ := Option.isSome_iff_exists.mp (h.asks x member status)
    simp [isDue, status, asks] at waiting idle
    contradiction

end Sound
end Plan
end Dialogue
