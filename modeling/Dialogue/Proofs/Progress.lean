import Mathlib.Data.List.Forall2
import Dialogue.Proofs.Completion
import Dialogue.Proofs.History

/-!
A plan that is active is neither lost nor set back. Its steps stay as they are but for their
statuses, and these only go up. Another plan is loaded only while none is active.
-/
namespace Dialogue

def StepStatus.rank : StepStatus → Nat
  | pending => 0
  | inProgress => 1
  | completed => 2

theorem StepStatus.rank_le_completed (status : StepStatus) :
    status.rank ≤ StepStatus.completed.rank := by
  cases status <;> simp [rank]

theorem StepStatus.rank_le_inProgress {status : StepStatus} (unfinished : status ≠ .completed) :
    status.rank ≤ StepStatus.inProgress.rank := by
  cases status with
  | completed => contradiction
  | _ => simp [rank]

structure PlanStep.Advances (x y : PlanStep) : Prop where
  id : y.id = x.id
  action : y.action = x.action
  status : x.status.rank ≤ y.status.rank

theorem PlanStep.Advances.refl (x : PlanStep) : x.Advances x := ⟨rfl, rfl, Nat.le_refl _⟩

theorem PlanStep.Advances.trans {x y z : PlanStep} (first : x.Advances y) (second : y.Advances z) :
    x.Advances z :=
  ⟨second.id.trans first.id, second.action.trans first.action, first.status.trans second.status⟩

namespace Plan

/-- The same plan, of which some steps may have come further. -/
structure Advances (p next : Plan) : Prop where
  task : next.task = p.task
  steps : List.Forall₂ PlanStep.Advances p.steps next.steps

variable {p next last : Plan} {id : StepId} {status : StepStatus} {q : Question} {step : PlanStep}
  {earlier later : List PlanStep} {discussed : List Question}

theorem Advances.refl (p : Plan) : p.Advances p :=
  ⟨rfl, List.forall₂_same.mpr fun x _ => .refl x⟩

theorem Advances.trans (first : p.Advances next) (second : next.Advances last) :
    p.Advances last where
  task := second.task.trans first.task
  steps := by
    have first := List.forall₂_iff_get.mp first.steps
    have second := List.forall₂_iff_get.mp second.steps
    refine List.forall₂_iff_get.mpr ⟨first.1.trans second.1, fun i low high => ?_⟩
    have middle : i < next.steps.length := first.1 ▸ low
    exact (first.2 i low middle).trans (second.2 i middle high)

/-- A plan advances where the status of one step goes up. -/
theorem advances_of_split (split : p.steps = earlier ++ step :: later)
    (up : step.status.rank ≤ status.rank) :
    p.Advances { p with steps := earlier ++ { step with status } :: later } := by
  refine ⟨rfl, ?_⟩
  have others (steps : List PlanStep) : List.Forall₂ PlanStep.Advances steps steps :=
    List.forall₂_same.mpr fun x _ => .refl x
  rw [split]
  exact List.rel_append (others earlier) (.cons ⟨rfl, rfl, up⟩ (others later))

/-- Setting a status never sets a step back, provided that it is not below that of any step with the
identifier. -/
theorem mark_advances (up : ∀ x ∈ p.steps, x.id = id → x.status.rank ≤ status.rank) :
    p.Advances (p.mark id status) := by
  unfold mark
  cases set : p.setStatus? id status with
  | none => exact .refl p
  | some after =>
    obtain ⟨earlier, step, later, split, same, _, rfl⟩ := setStatus?_eq_some set
    exact advances_of_split split (up step (by simp [split]) same)

theorem mark_completed_advances : p.Advances (p.mark id .completed) :=
  mark_advances fun x _ _ => x.status.rank_le_completed

/-- A step that is not completed may begin, as its identifier belongs to no other step. -/
theorem Distinct.mark_inProgress_advances (h : p.Distinct) (member : step ∈ p.steps)
    (waits : step.status ≠ .completed) : p.Advances (p.mark step.id .inProgress) := by
  refine mark_advances fun x among same => ?_
  cases h.eq_of_id among member same
  exact StepStatus.rank_le_inProgress waits

theorem markFor_completed_advances : p.Advances (p.markFor q .completed) := by
  unfold markFor
  split
  · exact mark_completed_advances
  · exact .refl p

theorem Distinct.markFor_inProgress_advances (h : p.Distinct) :
    p.Advances (p.markFor q .inProgress) := by
  unfold markFor
  split
  · rename_i step waits
    obtain ⟨member, unfinished, _⟩ := stepFor?_eq_some waits
    exact h.mark_inProgress_advances member unfinished
  · exact .refl p

theorem status_of_nextStep? (next : p.nextStep? discussed = some step) :
    step.status ≠ .completed := by
  intro completed
  have due := (nextStep?_eq_some next).2
  simp [isDue, completed] at due

end Plan

namespace State

/-- No plan has been loaded, and the one that was there has only advanced. -/
structure KeepsPlan (s t : State) : Prop where
  loaded : t.loaded = s.loaded
  advances : ∀ plan, s.plan = some plan → ∃ next, t.plan = some next ∧ plan.Advances next

namespace KeepsPlan

variable {s t u : State} {q : Question} {plan : Plan} {step : PlanStep}
  {done : PlanAction → Prop}

theorem trans (first : s.KeepsPlan t) (second : t.KeepsPlan u) : s.KeepsPlan u where
  loaded := second.loaded.trans first.loaded
  advances plan there := by
    obtain ⟨next, then_, forth⟩ := first.advances plan there
    obtain ⟨last, finally_, further⟩ := second.advances next then_
    exact ⟨last, finally_, forth.trans further⟩

theorem change {f : Plan → Plan} (loaded : t.loaded = s.loaded) (changed : t.plan = s.plan.map f)
    (forth : ∀ plan, s.plan = some plan → plan.Advances (f plan)) : s.KeepsPlan t :=
  ⟨loaded, fun plan there => ⟨f plan, by simp [changed, there], forth plan there⟩⟩

theorem same (loaded : t.loaded = s.loaded) (plan : t.plan = s.plan) : s.KeepsPlan t :=
  ⟨loaded, fun other there => ⟨other, plan.trans there, .refl other⟩⟩

theorem completeFor (loaded : t.loaded = s.loaded)
    (changed : t.plan = s.plan.map fun plan => plan.markFor q .completed) : s.KeepsPlan t :=
  change loaded changed fun _ _ => Plan.markFor_completed_advances

theorem complete (id : StepId) (loaded : t.loaded = s.loaded)
    (changed : t.plan = s.plan.map fun plan => plan.mark id .completed) : s.KeepsPlan t :=
  change loaded changed fun _ _ => Plan.mark_completed_advances

theorem startFor (sound : s.PlanSound done) (loaded : t.loaded = s.loaded)
    (changed : t.plan = s.plan.map fun plan => plan.markFor q .inProgress) : s.KeepsPlan t :=
  change loaded changed fun plan there => (sound plan there).distinct.markFor_inProgress_advances

theorem start (sound : s.PlanSound done) (active : s.activePlan = some plan)
    (next : plan.nextStep? s.qud = some step) (loaded : t.loaded = s.loaded)
    (changed : t.plan = s.plan.map fun plan => plan.mark step.id .inProgress) : s.KeepsPlan t := by
  refine change loaded changed fun other there => ?_
  cases (activePlan_eq_some.mp active).1.symm.trans there
  exact (sound plan there).distinct.mark_inProgress_advances (Plan.nextStep?_eq_some next).1
    (Plan.status_of_nextStep? next)

end KeepsPlan
end State

variable {d : Domain} {c : Config} {s after : State}

/-- A rule that fires keeps the plan, or no plan was active. -/
theorem UpdateRule.Fires.keepsPlan {r : UpdateRule} {done : PlanAction → Prop}
    (h : Fires d c s r after) (sound : s.PlanSound done) :
    s.KeepsPlan after ∨ s.activePlan = none := by
  cases h with
  | planned _ _ _ _ idle | requested _ _ idle => exact .inr idle
  | volunteered _ finds => exact .inr (answeredTask?_eq_some finds).1
  | @settled m a q | @needed m a t q | @issueSettled m a q | @buried m a q | @downdated q =>
    exact .inl (.completeFor (q := q) (by simp) (by simp))
  | @issueNarrowed m a q => exact .inl (.startFor (q := q) sound (by simp) (by simp))
  | @skipped plan step => exact .inl (.complete step.id (by simp) (by simp))
  | begun _ _ active _ next => exact .inl (.start sound active next (by simp) (by simp))
  | _ => exact .inl (.same (by simp) (by simp))

theorem SelectionRule.Fires.keepsPlan {r : SelectionRule} {m : Move} {done : PlanAction → Prop}
    (h : Fires d c s r after m) (sound : s.PlanSound done) : s.KeepsPlan after := by
  have loaded := h.loaded
  cases h with
  | @raised q step | @posed plan step q | @informed plan step p =>
    exact .complete step.id loaded (by simp)
  | @pursued plan step q _ active _ next =>
    by_cases waits : step.status = .pending
    · rw [if_pos waits] at loaded ⊢
      exact .start sound active next loaded (by simp)
    · rw [if_neg waits] at loaded ⊢
      exact .same loaded (by simp)
  | @answered q => exact .completeFor (q := q) loaded (by simp)
  | _ => exact .same loaded (by simp)

/-- A call keeps the plan, or no plan was active. -/
theorem Call.keepsPlan {done : PlanAction → Prop} (call : Call) (sound : s.PlanSound done) :
    s.KeepsPlan (call.run d c s) ∨ s.activePlan = none := by
  cases call with
  | integrate m =>
    rcases s.integrate_cases d c m with ⟨r, after, fires, outcome⟩ | ⟨_, outcome⟩
    · have waiting : s.KeepsPlan (s.setPending m) := .same (by simp) (by simp)
      have idle : (s.setPending m).activePlan = s.activePlan := by simp [State.activePlan]
      have fired := fires.keepsPlan (sound.keep (t := s.setPending m) (by simp))
      rw [idle] at fired
      simpa only [run, outcome] using fired.imp_left waiting.trans
    · exact .inl (.same (by simp [run, outcome]) (by simp [run, outcome]))
  | select =>
    rcases s.select_cases d c with ⟨r, after, m, fires, outcome⟩ | ⟨_, outcome⟩
    · have floor : after.KeepsPlan (s.select d c).state :=
        .same (by simp [outcome]) (by simp [outcome])
      exact .inl ((fires.keepsPlan sound).trans floor)
    · exact .inl (.same (by simp [run, outcome]) (by simp [run, outcome]))
  | _ => exact .inl (.same (by simp [run]) (by simp [run]))

/-- While a plan stays active, it is kept by any sequence of calls. -/
theorem reached_keepsPlan (calls more : List Call)
    (active : ∀ n < more.length, (reached d c (calls ++ more.take n)).activePlan ≠ none) :
    (reached d c calls).KeepsPlan (reached d c (calls ++ more)) := by
  induction more using List.reverseRecOn with
  | nil => exact .same (by simp) (by simp)
  | append_singleton more call ih =>
    have before : (reached d c calls).KeepsPlan (reached d c (calls ++ more)) := by
      refine ih fun n short => ?_
      have still := active n (by simp; omega)
      rwa [List.take_append_of_le_length (by omega)] at still
    have last := active more.length (by simp)
    rw [List.take_append_of_le_length (Nat.le_refl _), List.take_length] at last
    rw [← List.append_assoc, reached_concat]
    exact before.trans
      ((call.keepsPlan (reached_planSound d c (calls ++ more))).resolve_right last)

/-- A plan that is active is neither lost nor set back: each call, and any sequence of calls during
which it stays active, leaves the plan with its task and its steps, none of which has gone back, and
loads no other. Only a call that finds no plan active loads one. -/
theorem running_plan_advances (d : Domain) (c : Config) (calls : List Call) :
    (∀ call : Call, (reached d c calls).activePlan ≠ none →
      (reached d c calls).KeepsPlan (call.run d c (reached d c calls))) ∧
    (∀ call : Call, (call.run d c (reached d c calls)).loaded ≠ (reached d c calls).loaded →
      (reached d c calls).activePlan = none) ∧
    ∀ more : List Call,
      (∀ n < more.length, (reached d c (calls ++ more.take n)).activePlan ≠ none) →
      (reached d c calls).KeepsPlan (reached d c (calls ++ more)) := by
  have kept (call : Call) := call.keepsPlan (d := d) (c := c) (reached_planSound d c calls)
  refine ⟨fun call active => (kept call).resolve_right active, fun call loads => ?_,
    fun more active => reached_keepsPlan calls more active⟩
  rcases kept call with keeps | idle
  · exact absurd keeps.loaded loads
  · exact idle

def errandPlan : Plan := .ofActions "post" [.findout (.yesNo "late"), .inform ⟨"told", .bool true⟩]

/-- The errand is loaded while no plan is active, and stays active from then on. The answer to its
question completes one of the two steps. -/
theorem errand_advances : (reached errand {} (errandAnswered.take 1)).activePlan = none ∧
    (reached errand {} (errandAnswered.take 2)).plan = some errandPlan ∧
    ∃ next, (reached errand {} errandAnswered).plan = some next ∧ errandPlan.Advances next ∧
      next.steps.map PlanStep.status = [.completed, .pending] := by
  have idle := (running_plan_advances errand {} (errandAnswered.take 1)).2.1
    (.integrate (some (.request .user "post"))) (by decide +kernel)
  have start : (reached errand {} (errandAnswered.take 2)).plan = some errandPlan := by
    decide +kernel
  have kept := (running_plan_advances errand {} (errandAnswered.take 2)).2.2 (errandAnswered.drop 2)
    (by decide +kernel)
  obtain ⟨next, there, forth⟩ := kept.advances _ start
  have final : (reached errand {} errandAnswered).plan.map (·.steps.map PlanStep.status) =
      some [.completed, .pending] := by decide +kernel
  rw [List.take_append_drop] at there
  rw [there] at final
  exact ⟨idle, start, next, there, forth, by simpa using final⟩

end Dialogue
