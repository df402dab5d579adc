import Mathlib.Logic.Function.Iterate
import Dialogue.Proofs.Voicing

/-!
What happens to resolved questions while no move comes in. On top of the discussion they leave it
one by one, and each takes the step that waits for it along; in the plan their steps are completed
without a word. So a question is let go for good as soon as a proposition that settles it is
committed.
-/
namespace Dialogue

variable {d : Domain} {c : Config} {s : State} {q : Question}

namespace UpdateRule

/-- Without a pending move, all rules but the last two are idle. -/
theorem findSome?_of_free (free : s.pending = none) :
    (all.findSome? fun r => (r.run? d c s).map (r, ·)) =
      ((runDowndateQud s).map (downdateQud, ·)).or ((runExecFindout s).map (execFindout, ·)) := by
  simp only [all, List.findSome?_cons, List.findSome?_nil, run?, runIntegrateAsk,
    runIntegrateAnswer, runIntegrateAssert, runIntegrateGreet, runIntegrateQuit,
    runIntegrateFeedback, runFindPlan, runIssueAccommodation, runLocalQuestionAccommodation,
    runDependentIssueAccommodation, free, Option.bind_eq_bind, Option.bind_none, Option.map_none]
  cases runDowndateQud s with
  | some after => rfl
  | none => cases runExecFindout s <;> rfl

end UpdateRule

namespace State

def housekeep (d : Domain) (c : Config) (s : State) : State := (s.integrate d c none).state

theorem integrate_downdates (top : s.top = some q) (resolved : q.resolvedBy s.commitments = true) :
    s.integrate d c none =
      ⟨(s.setPending none).popQuestion.completeStepFor q, some .downdateQud, 1, none⟩ := by
  have top : s.qud.head? = some q := top
  have pops : UpdateRule.runDowndateQud (s.setPending none) =
      some ((s.setPending none).popQuestion.completeStepFor q) := by
    simp [UpdateRule.runDowndateQud, State.top, top, resolved]
  simp [integrate, UpdateRule.findSome?_of_free, pops, abandonPending]

theorem integrate_skips {plan : Plan} {step : PlanStep} (loaded : s.plan = some plan)
    (empty : s.agenda = []) (openTop : ∀ x, s.top = some x → x.resolvedBy s.commitments = false)
    (idle : plan.hasOpenStep s.qud = false) (next : plan.nextStep? s.qud = some step)
    (asks : step.action.question? = some q) (resolved : q.resolvedBy s.commitments = true) :
    s.integrate d c none =
      ⟨(s.setPending none).completeStep step.id, some .execFindout, 1, none⟩ := by
  have stays : UpdateRule.runDowndateQud (s.setPending none) = none := by
    cases top : s.qud.head? with
    | none => simp [UpdateRule.runDowndateQud, State.top, top]
    | some x => simp [UpdateRule.runDowndateQud, State.top, top, openTop x top]
  have active : (s.setPending none).activePlan = some plan :=
    activePlan_eq_some.mpr ⟨by simpa using loaded, Plan.isActive_of_nextStep? next⟩
  have skips : UpdateRule.runExecFindout (s.setPending none) =
      some ((s.setPending none).completeStep step.id) := by
    simp [UpdateRule.runExecFindout, active, empty, idle, next, asks, resolved]
  simp [integrate, UpdateRule.findSome?_of_free, stays, skips, abandonPending]

/-- The topmost `n` questions leave the discussion one by one while no move comes in. -/
def Downdates (d : Domain) (c : Config) (s : State) (n : Nat) : Prop :=
  (∀ k < n, (((housekeep d c)^[k] s).integrate d c none).rule = some .downdateQud) ∧
    ((housekeep d c)^[n] s).qud = s.qud.drop n

/-- Resolved questions on top of the discussion leave it, whatever lies below them. -/
theorem downdates_of_resolved {above below : List Question} (discussed : s.qud = above ++ below)
    (resolved : ∀ x ∈ above, x.resolvedBy s.commitments = true) :
    s.Downdates d c above.length := by
  induction above generalizing s with
  | nil => exact ⟨by simp, rfl⟩
  | cons x above ih =>
    -- when the first one leaves, nothing becomes open again
    obtain ⟨first, others⟩ := List.forall_mem_cons.mp resolved
    have pops := integrate_downdates (d := d) (c := c) (by simp [State.top, discussed]) first
    have next : (s.housekeep d c).qud = above ++ below := by simp [housekeep, pops, discussed]
    have kept : (s.housekeep d c).commitments = s.commitments := by simp [housekeep, pops]
    obtain ⟨rules, rest⟩ := ih next (by simpa [kept] using others)
    constructor
    · intro k bound
      cases k with
      | zero => simp [pops]
      | succ k => exact rules k (by simpa using bound)
    · simpa [next, discussed] using rest

/-- A question is let go: wherever it comes up, it is dropped and not dealt with any more. Only the
clarification after an uncertain turn pays no heed to that, and asks whatever is on top. -/
structure LetsGo (d : Domain) (c : Config) (s : State) (q : Question) : Prop where
  /-- It leaves the discussion as soon as all questions above it are resolved. -/
  downdated : ∀ above below, s.qud = above ++ q :: below →
    (∀ x ∈ above, x.resolvedBy s.commitments = true) → s.Downdates d c (above.length + 1)
  /-- When it leaves the discussion, the first step that waits for it is completed. -/
  completed : s.top = some q →
    (s.housekeep d c).plan = s.plan.map fun plan => plan.markFor q .completed
  /-- Its step is completed, and it is not put under discussion again, when its turn comes. -/
  skipped : ∀ plan step, s.plan = some plan → plan.nextStep? s.qud = some step →
    step.action.question? = some q → plan.hasOpenStep s.qud = false → s.agenda = [] →
    (∀ x, s.top = some x → x.resolvedBy s.commitments = false) →
    (s.integrate d c none).rule = some .execFindout ∧ (s.housekeep d c).qud = s.qud ∧
      (s.housekeep d c).plan = some (plan.mark step.id .completed)
  /-- It is not asked, unless it is on top in an uncertain turn or the ask is on the agenda. -/
  unasked : ∀ r m, (s.select d c).chosen = some (r, m) → m.question? = some q →
    r = .clarify ∧ s.top = some q ∧ s.lastConfidence.lt c.threshold = true ∨
      r = .ask ∧ s.agenda.head? = some m

end State

theorem State.letsGo_of_resolved (resolved : q.resolvedBy s.commitments = true) :
    s.LetsGo d c q where
  downdated above below discussed others := by
    have split : s.qud = (above ++ [q]) ++ below := by simp [discussed]
    have all : ∀ x ∈ above ++ [q], x.resolvedBy s.commitments = true := by
      simpa [or_imp, forall_and] using ⟨others, resolved⟩
    simpa using downdates_of_resolved split all
  completed top := by simp [housekeep, integrate_downdates top resolved]
  skipped plan step loaded next asks idle empty openTop := by
    have skips := integrate_skips (d := d) (c := c) loaded empty openTop idle next asks resolved
    simp [housekeep, skips, loaded]
  unasked r m chosen asks := by
    rcases s.select_cases d c with ⟨r', after, m', fires, outcome⟩ | ⟨_, outcome⟩
    · simp only [outcome, Option.some.injEq, Prod.mk.injEq] at chosen
      obtain ⟨rfl, rfl⟩ := chosen
      exact fires.asks_resolved asks resolved
    · simp [outcome] at chosen

/-- What an answer settles for a question settles the question again as a full answer. So once it is
committed, the question is resolved whatever is called from then on, and is let go. -/
theorem settled_question_let_go (q : Question) (a : Answer) (p : Proposition)
    (settles : q.resolution a = some p) :
    q.resolution (.ofProposition p) = some p ∧
      ∀ (d : Domain) (c : Config) (s : State), p ∈ s.commitments → ∀ calls : List Call,
        q.resolvedBy (calls.foldl (Call.run d c) s).commitments = true ∧
          (calls.foldl (Call.run d c) s).LetsGo d c q := by
  refine ⟨Question.resolution_ofProposition settles, fun d c s committed calls => ?_⟩
  have known := (Call.foldl_grows (d := d) (c := c) calls).commitments p committed
  have resolved := Question.resolvedBy_of_resolution settles known
  exact ⟨resolved, State.letsGo_of_resolved resolved⟩

def shadeAsserted : List Call :=
  paintRequested ++ [.beginCycle .user, .integrate (some (.assert .user ⟨"shade", .text "red"⟩))]

/-- The system says something in return, and it is the user's turn again. -/
def shadeAcknowledged : State :=
  [Call.select, .beginCycle .user].foldl (Call.run painter {}) (reached painter {} shadeAsserted)

theorem asserted_shade_let_go :
    shade.resolution (.short (.text "red")) = some ⟨"shade", .text "red"⟩ ∧
      ⟨"shade", .text "red"⟩ ∈ (reached painter {} shadeAsserted).commitments ∧
      shadeAcknowledged.Downdates painter {} 1 ∧
      (shadeAcknowledged.housekeep painter {}).plan.map Plan.isActive = some false := by
  have settles : shade.resolution (.short (.text "red")) = some ⟨"shade", .text "red"⟩ := by
    decide +kernel
  have committed : ⟨"shade", .text "red"⟩ ∈ (reached painter {} shadeAsserted).commitments := by
    decide +kernel
  have letGo : shadeAcknowledged.LetsGo painter {} shade :=
    ((settled_question_let_go shade _ _ settles).2 painter {} _ committed _).2
  refine ⟨settles, committed, letGo.downdated [] [] (by decide +kernel) (by simp), ?_⟩
  rw [letGo.completed (by decide +kernel)]
  decide +kernel

def shadeMumbled : List Call :=
  paintRequested ++ [.beginCycle .user,
    .integrate (some ((Move.assert .user ⟨"shade", .text "red"⟩).withConfidence ⟨0x3E99999A⟩))]

/-- Not every question that is settled is let go without exception. What was asserted is committed
however uncertain it is, and the question on top is asked again though it is resolved. -/
theorem settled_shade_asked_again :
    shade.resolution (.short (.text "red")) = some ⟨"shade", .text "red"⟩ ∧
      ⟨"shade", .text "red"⟩ ∈ (reached painter {} shadeMumbled).commitments ∧
      shade.resolvedBy (reached painter {} shadeMumbled).commitments = true ∧
      shade ∈ (reached painter {} shadeMumbled).qud ∧
      ((reached painter {} shadeMumbled).select painter {}).chosen =
        some (.clarify, .ask .system shade) := by
  decide +kernel

end Dialogue
