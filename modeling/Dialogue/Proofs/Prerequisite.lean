import Dialogue.Proofs.Dependency
import Dialogue.Proofs.Progress
import Dialogue.Proofs.Quiescence
import Dialogue.Proofs.Voicing

/-!
What an answer waits for. If a question of the user depends on others and has no plan of its own,
the system plans to find out what is unresolved of them. That plan is not given up, its steps are
completed only where their questions are resolved, and nothing that is resolved becomes open again.
So when the plan is no longer active, the question waits for nothing.
-/
namespace Dialogue

variable {d : Domain} {c : Config} {s t : State} {m : Move} {q : Question}
  {commitments : OrderedSet Proposition}

/-- The plan to find out everything that a question depends on and is unresolved. -/
def Domain.planToAnswer (d : Domain) (q : Question) (commitments : OrderedSet Proposition) : Plan :=
  .ofActions ("answer:" ++ q.topic) ((d.unresolvedDependencies q commitments).map .findout)

namespace Plan

variable {p next : Plan} {done : PlanAction → Prop} {action : PlanAction} {task : String}
  {actions : List PlanAction}

theorem exists_step_of_mem (task : String) (planned : action ∈ actions) :
    ∃ step ∈ (ofActions task actions).steps, step.action = action := by
  obtain ⟨i, bound, rfl⟩ := List.getElem_of_mem planned
  exact ⟨_, List.mem_mapIdx.mpr ⟨i, bound, rfl⟩, rfl⟩

theorem Advances.exists_step (h : p.Advances next) {step : PlanStep} (member : step ∈ p.steps) :
    ∃ later ∈ next.steps, step.Advances later := by
  obtain ⟨same, forth⟩ := List.forall₂_iff_get.mp h.steps
  obtain ⟨i, rfl⟩ := List.get_of_mem member
  exact ⟨next.steps.get ⟨i, same ▸ i.isLt⟩, List.get_mem .., forth i i.isLt (same ▸ i.isLt)⟩

/-- When a plan has advanced until it is no longer active, all its actions have been carried out. -/
theorem Sound.done_of_inactive (sound : next.Sound done)
    (h : (ofActions task actions).Advances next) (inactive : next.isActive = false) :
    ∀ action ∈ actions, done action := by
  intro action planned
  obtain ⟨step, member, rfl⟩ := exists_step_of_mem task planned
  obtain ⟨later, among, forth⟩ := h.exists_step member
  have finished := List.any_eq_false.mp inactive later among
  rw [← forth.action]
  exact sound.carriedOut later among (by simpa using finished)

end Plan

namespace Domain

/-- What a question depends on is resolved, if it was so before or has been found out since. -/
theorem unresolvedDependencies_of_found {later : OrderedSet Proposition}
    (grows : ∀ p ∈ commitments, p ∈ later)
    (found : ∀ on ∈ d.unresolvedDependencies q commitments, on.resolvedBy later = true) :
    d.unresolvedDependencies q later = [] := by
  refine List.filter_eq_nil_iff.mpr fun on reachable => ?_
  cases before : on.resolvedBy commitments with
  | true => simp [on.resolvedBy_mono before grows]
  | false =>
    have needed : on ∈ d.unresolvedDependencies q commitments :=
      List.mem_filter.mpr ⟨reachable, by simp [before]⟩
    simp [found on needed]

theorem unresolvedDependencies_mono {later : OrderedSet Proposition}
    (grows : ∀ p ∈ commitments, p ∈ later) (ready : d.unresolvedDependencies q commitments = []) :
    d.unresolvedDependencies q later = [] :=
  unresolvedDependencies_of_found grows (by simp [ready])

end Domain

namespace State

/-- An ask that is integrated is sure enough. -/
theorem sure_of_asked (free : s.pending = none)
    (taken : (s.integrate d c (some m)).rule = some .integrateAsk) :
    c.threshold.le m.confidence = true := by
  have waits : (s.setPending (some m)).pending = some m := setPending_of_free free
  rcases s.integrate_cases d c (some m) with ⟨r, after, fires, outcome⟩ | ⟨_, outcome⟩
  · simp only [outcome, Option.some.injEq] at taken
    subst taken
    cases fires with
    | asked pending _ sure | planned pending _ sure =>
      cases waits.symm.trans pending
      exact sure
  · simp [outcome] at taken

/-- The plan that an ask of the user loads, if it depends on something that is unresolved. -/
theorem integrate_asked_plan (free : s.pending = none) (asks : m.question? = some q)
    (user : m.speaker = .user) (idle : s.activePlan = none) (own : d.planForQuestion? q = none)
    (taken : (s.integrate d c (some m)).rule = some .integrateAsk)
    (needs : d.unresolvedDependencies q s.commitments ≠ []) :
    (s.integrate d c (some m)).state.plan = some (d.planToAnswer q s.commitments) := by
  have waits : (s.setPending (some m)).pending = some m := setPending_of_free free
  have sure := sure_of_asked free taken
  obtain ⟨first, rest, open'⟩ := List.exists_cons_of_ne_nil needs
  have plans : UpdateRule.planForAsked? d q (((s.setPending (some m)).consume m).pushQuestion q) =
      some (d.planToAnswer q s.commitments) := by
    simp [UpdateRule.planForAsked?, own, Domain.planToAnswer, open']
  have unplanned : (((s.setPending (some m)).consume m).pushQuestion q).activePlan = none := by
    simpa [activePlan] using idle
  have asked : UpdateRule.runIntegrateAsk d c (s.setPending (some m)) =
      some ((((s.setPending (some m)).consume m).pushQuestion q).loadPlan
        (d.planToAnswer q s.commitments)) := by
    simp [UpdateRule.runIntegrateAsk, waits, asks, sure, user, plans, unplanned]
  simp [integrate, UpdateRule.all, UpdateRule.run?, asked]

/-- Only what a question depends on can keep the system from answering it from beliefs. -/
theorem runAnswer_isSome (top : s.top = some q) (user : s.lastAsker q = some .user)
    (ready : d.unresolvedDependencies q s.commitments = []) :
    (SelectionRule.runAnswer d s).isSome =
      (d.answerFromBeliefs? q s.beliefs s.commitments).isSome := by
  simp only [SelectionRule.runAnswer, top, user, ready, Option.bind_eq_bind, Option.bind_some,
    decide_true, List.isEmpty_nil, Bool.and_self, guard_true, Option.pure_def]
  cases d.answerFromBeliefs? q s.beliefs s.commitments <;> rfl

end State

/-- A plan for a question that is kept is still active, or the question depends on nothing
unresolved. -/
theorem State.PlanSound.pursues (sound : t.PlanSound t.CarriedOut) (keeps : s.KeepsPlan t)
    (planned : s.plan = some (d.planToAnswer q commitments))
    (grows : ∀ p ∈ commitments, p ∈ t.commitments) :
    s.KeepsPlan t ∧ t.activePlan ≠ none ∨ d.unresolvedDependencies q t.commitments = [] := by
  by_cases idle : t.activePlan = none
  · obtain ⟨next, there, forth⟩ := keeps.advances _ planned
    have inactive : next.isActive = false := by
      simpa [State.activePlan, there, Option.filter_eq_none_iff] using idle
    have done := (sound next there).done_of_inactive forth inactive
    exact .inr (Domain.unresolvedDependencies_of_found grows fun on needed =>
      done (.findout on) (List.mem_map_of_mem needed))
  · exact .inl ⟨keeps, idle⟩

/-- Whatever is called, the plan for a question stays active until the question depends on nothing
unresolved. -/
theorem reached_pursues {calls : List Call} (more : List Call)
    (planned : (reached d c calls).plan = some (d.planToAnswer q commitments))
    (grows : ∀ p ∈ commitments, p ∈ (reached d c calls).commitments) :
    (reached d c calls).KeepsPlan (reached d c (calls ++ more)) ∧
        (reached d c (calls ++ more)).activePlan ≠ none ∨
      d.unresolvedDependencies q (reached d c (calls ++ more)).commitments = [] := by
  induction more using List.reverseRecOn with
  | nil =>
    have sound := reached_planSound d c calls
    simpa using sound.pursues (.same rfl rfl) planned grows
  | append_singleton more call ih =>
    have sound := reached_planSound d c (calls ++ more)
    have last : (reached d c (calls ++ more)).Grows _ := call.grows (d := d) (c := c)
    rw [← List.append_assoc, reached_concat]
    rcases ih with ⟨keeps, active⟩ | ready
    · have still := (call.keepsPlan (d := d) (c := c) sound).resolve_right active
      have since : ∀ p ∈ commitments,
          p ∈ (call.run d c (reached d c (calls ++ more))).commitments := by
        intro p known
        refine last.commitments p ?_
        rw [reached, List.foldl_append]
        exact (Call.foldl_grows more).commitments p (grows p known)
      exact (call.planSound sound).pursues (keeps.trans still) planned since
    · exact .inr (Domain.unresolvedDependencies_mono last.commitments ready)

/-- A question of the user that has no plan of its own, and depends on something unresolved while no
plan is active, has all of that found out by a plan. From then on, whatever is called, that plan is
active, as far as it has come and without another one in its place, or else the question depends on
nothing unresolved any more, and only a missing belief keeps the system from answering it as soon as
it is topmost. -/
theorem dependency_plan_unblocks (d : Domain) (c : Config) (calls : List Call) (m : Move)
    (q : Question) (asks : m.question? = some q) (user : m.speaker = .user)
    (idle : (reached d c calls).activePlan = none) (own : d.planForQuestion? q = none)
    (taken : ((reached d c calls).integrate d c (some m)).rule = some .integrateAsk)
    (needs : d.unresolvedDependencies q (reached d c calls).commitments ≠ []) :
    (reached d c (calls ++ [.integrate (some m)])).plan =
        some (d.planToAnswer q (reached d c calls).commitments) ∧
      ∀ more t, reached d c (calls ++ [.integrate (some m)] ++ more) = t →
        (reached d c (calls ++ [.integrate (some m)])).KeepsPlan t ∧ t.activePlan ≠ none ∨
        d.unresolvedDependencies q t.commitments = [] ∧
          (t.top = some q → t.lastAsker q = some .user →
            (SelectionRule.runAnswer d t).isSome =
              (d.answerFromBeliefs? q t.beliefs t.commitments).isSome) := by
  have planned : (reached d c (calls ++ [.integrate (some m)])).plan =
      some (d.planToAnswer q (reached d c calls).commitments) := by
    rw [reached_concat]
    exact State.integrate_asked_plan (reached_free d c calls) asks user idle own taken needs
  refine ⟨planned, ?_⟩
  rintro more t rfl
  have grows : ∀ p ∈ (reached d c calls).commitments,
      p ∈ (reached d c (calls ++ [.integrate (some m)])).commitments := by
    rw [reached_concat]
    exact (Call.grows (.integrate (some m))).commitments
  exact (reached_pursues more planned grows).imp_right fun ready =>
    ⟨ready, fun top user => State.runAnswer_isSome top user ready⟩

def weather : Domain :=
  ({ name := "weather", questions := [], distinct_topics := List.nodup_nil } : Domain)
    |>.withQuestion (.wh "x" "country" ∅) none |>.withQuestion (.wh "x" "city" ∅) none
    |>.withDependency "weather" "city" |>.withDependency "city" "country"
    |>.withBelief "weather.paris" (.text "rain")

def howWeather : Question := .wh "x" "weather" ∅

/-- The system asks for the city and then for the country, and the user names both. -/
def weatherPlaced : List Call :=
  [.select] ++ Call.cycle .user (some (.answer .user (.short (.text "Paris")))) ++
    [.beginCycle .user, .integrate (some (.answer .user (.short (.text "France"))))]

/-- When both are named, the plan is no longer active, and the system can tell the weather. -/
theorem weather_unblocked :
    (reached weather {} [.beginCycle .user]).activePlan = none ∧
    weather.planForQuestion? howWeather = none ∧
    ((reached weather {} [.beginCycle .user]).integrate weather {}
      (some (.ask .user howWeather))).rule = some .integrateAsk ∧
    weather.unresolvedDependencies howWeather (reached weather {} [.beginCycle .user]).commitments ≠
      [] ∧
    ∃ t, reached weather {} ([.beginCycle .user] ++ [.integrate (some (.ask .user howWeather))] ++
        weatherPlaced) = t ∧ t.activePlan = none ∧
      weather.unresolvedDependencies howWeather t.commitments = [] ∧
      (SelectionRule.runAnswer weather t).isSome = true := by
  have idle : (reached weather {} [.beginCycle .user]).activePlan = none := by decide +kernel
  have own : weather.planForQuestion? howWeather = none := by decide +kernel
  have taken : ((reached weather {} [.beginCycle .user]).integrate weather {}
      (some (.ask .user howWeather))).rule = some .integrateAsk := by decide +kernel
  have needs : weather.unresolvedDependencies howWeather
      (reached weather {} [.beginCycle .user]).commitments ≠ [] := by decide +kernel
  obtain ⟨-, later⟩ := dependency_plan_unblocks weather {} [.beginCycle .user]
    (.ask .user howWeather) howWeather rfl rfl idle own taken needs
  refine ⟨idle, own, taken, needs, _, rfl, ?_⟩
  have finished : (reached weather {} ([.beginCycle .user] ++
      [.integrate (some (.ask .user howWeather))] ++ weatherPlaced)).activePlan = none := by
    decide +kernel
  obtain ⟨ready, answerable⟩ :=
    (later weatherPlaced _ rfl).resolve_left fun still => still.2 finished
  have answered := answerable (by decide +kernel) (by decide +kernel)
  exact ⟨finished, ready, answered.trans (by decide +kernel)⟩

end Dialogue
