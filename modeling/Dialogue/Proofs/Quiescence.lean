import Dialogue.Proofs.Housekeeping
import Dialogue.Proofs.Rest
import Dialogue.Proofs.Underway
import Dialogue.Proofs.Unheard

/-!
Quiescence. A tick in which no rule fires means that the system waits for the user: it has nothing
to say, and its plan waits for a question that is under discussion. Such a tick only counts the
cycle and hands over the floor. Without input no rule goes by that, so all ticks after it are the
same.
-/
namespace Dialogue

namespace Plan

variable {p : Plan} {discussed : List Question}

theorem hasOpenStep_iff : p.hasOpenStep discussed = true ↔ ∃ step ∈ p.steps,
    step.status = .inProgress ∧ ∃ q ∈ discussed, step.action.question? = some q := by
  simp only [hasOpenStep, List.any_eq_true, Bool.and_eq_true, decide_eq_true_eq, Option.any_eq_true]
  refine exists_congr fun step => and_congr_right fun _ => and_congr_right fun _ => ?_
  exact exists_congr fun q => and_comm

/-- An active plan without a next step has begun a step, since only such steps are not due. -/
theorem Underway.open_of_active (h : p.Underway discussed) (active : p.isActive = true)
    (finished : p.nextStep? discussed = none) : p.hasOpenStep discussed = true := by
  obtain ⟨step, member, unfinished⟩ := List.any_eq_true.mp active
  have notDue := List.find?_eq_none.mp finished step member
  cases status : step.status with
  | pending => simp [isDue, status] at notDue
  | completed => simp [status] at unfinished
  | inProgress => exact hasOpenStep_iff.mpr ⟨step, member, status, h.asks step member status⟩

end Plan

namespace State

variable {d : Domain} {c : Config} {s t : State} {q : Question} {plan : Plan}

/-- The system waits for the user. -/
structure NothingLeft (s : State) : Prop where
  agenda : s.agenda = []
  grounded : s.awaitingGrounding = false
  top : ∀ q, s.top = some q → q.resolvedBy s.commitments = false ∧ s.wasAsked q = true
  plan : ∀ plan, s.activePlan = some plan → ∃ step ∈ plan.steps,
    step.status = .inProgress ∧ ∃ q ∈ s.qud, step.action.question? = some q

theorem setPending_none_of_free (free : s.pending = none) : s.setPending none = s := by
  simp [setPending, free, samePending]

/-- No rule applies while no move comes in. -/
structure Dormant (d : Domain) (c : Config) (s : State) : Prop where
  free : s.pending = none
  downdate : UpdateRule.runDowndateQud s = none
  exec : UpdateRule.runExecFindout s = none
  select : ∀ r : SelectionRule, r.run? d c s = none

namespace Dormant

theorem top_open (h : s.Dormant d c) (top : s.top = some q) :
    q.resolvedBy s.commitments = false := by
  by_contra resolved
  have downdate := h.downdate
  simp [UpdateRule.runDowndateQud, h.free, top, resolved] at downdate

/-- An active plan has a step that was begun: the next step would either be carried out without a
word, as it asks a question, or be told to the user. -/
theorem open_of_active (h : s.Dormant d c) (underway : s.Underway)
    (active : s.activePlan = some plan) : plan.hasOpenStep s.qud = true := by
  obtain ⟨loaded, unfinished⟩ := activePlan_eq_some.mp active
  by_contra unopened
  simp only [Bool.not_eq_true] at unopened
  have mute := mute_of_idle h.select
  cases next : plan.nextStep? s.qud with
  | none => simp [(underway plan loaded).open_of_active unfinished next] at unopened
  | some step =>
    obtain ⟨q, asks, resolved⟩ := mute.followed plan step active unopened next
    have exec := h.exec
    simp [UpdateRule.runExecFindout, h.free, mute.empty, active, unopened, next, asks, resolved]
      at exec

theorem nothingLeft (h : s.Dormant d c) (underway : s.Underway) : s.NothingLeft where
  agenda := (mute_of_idle h.select).empty
  grounded := (mute_of_idle h.select).grounded
  top q top := by
    have unresolved := h.top_open top
    exact ⟨unresolved, ((mute_of_idle h.select).settled q top).resolve_right (by simp [unresolved])⟩
  plan plan active := Plan.hasOpenStep_iff.mp (h.open_of_active underway active)

/-- Rules that do not apply in a state do not apply in one that is alike. -/
theorem alike (h : s.Dormant d c) (alike : s.Alike t) (free : t.pending = none) :
    t.Dormant d c where
  free := free
  downdate := by
    have downdate := h.downdate
    simpa only [UpdateRule.runDowndateQud, h.free, free, State.top, alike.qud, alike.commitments,
      Option.bind_eq_bind, Option.bind_eq_none_iff, Option.pure_def, reduceCtorEq] using downdate
  exec := by
    have exec := h.exec
    simpa only [UpdateRule.runExecFindout, h.free, free, State.activePlan, alike.agenda, alike.plan,
      alike.qud, alike.commitments, ← apply_ite some, Option.bind_eq_bind, Option.bind_eq_none_iff,
      Option.pure_def, reduceCtorEq] using exec
  select r := by
    have same := SelectionRule.run?_alike (d := d) (c := c) alike r
    rw [h.select r] at same
    simpa using same

theorem integrate (h : s.Dormant d c) : s.integrate d c none = ⟨s, none, 0, none⟩ := by
  simp [State.integrate, setPending_none_of_free h.free, UpdateRule.findSome?_of_free,
    abandonPending, h.free, h.downdate, h.exec]

theorem select_eq (h : s.Dormant d c) : s.select d c = ⟨s.giveFloor .user, none, 0⟩ := by
  simp [State.select, SelectionRule.all, h.select]

end Dormant

theorem dormant_of_quiet (free : s.pending = none) (update : (s.integrate d c none).rule = none)
    (silent : ((s.integrate d c none).state.select d c).rule = none) : s.Dormant d c := by
  rcases s.integrate_cases d c none with ⟨r, after, _, outcome⟩ | ⟨idle, outcome⟩
  · simp [outcome] at update
  · rw [setPending_none_of_free free] at idle outcome
    simp only [outcome, abandonPending_of_none free] at silent
    rcases s.select_cases d c with ⟨r, after, m, _, selected⟩ | ⟨mute, _⟩
    · simp [selected, Selection.rule] at silent
    · exact ⟨free, idle .downdateQud, idle .execFindout, mute⟩

def rested (s : State) : State := (s.beginCycle .system).giveFloor .user

/-- A state apart from the count of its cycles, whose turn it is, who is next, and the history with
its version. -/
def substance (s : State) : State :=
  { s with cycle := 0, turn := .system, nextSpeaker := .system, version := 0, history := [] }

theorem rested_substance : s.rested.substance = s.substance := by
  unfold rested giveFloor
  split <;> simp [substance, beginCycle, log]

theorem Alike.trans {u : State} (h : s.Alike t) (later : t.Alike u) : s.Alike u where
  agenda := later.agenda.trans h.agenda
  plan := later.plan.trans h.plan
  qud := later.qud.trans h.qud
  commitments := later.commitments.trans h.commitments
  beliefs := later.beliefs.trans h.beliefs
  lastConfidence := later.lastConfidence.trans h.lastConfidence
  awaitingGrounding := later.awaitingGrounding.trans h.awaitingGrounding
  asker q top := by
    have topmost : t.top = some q := by rw [State.top, h.qud, ← State.top, top]
    exact (later.asker q topmost).trans (h.asker q top)

theorem alike_beginCycle : s.Alike (s.beginCycle .system) :=
  ⟨by simp, by simp, by simp, by simp, rfl, by simp, by simp [beginCycle],
    fun _ _ => by simp [lastAsker_eq]⟩

theorem alike_giveFloor {speaker : Speaker} : s.Alike (s.giveFloor speaker) := by
  have beliefs : (s.giveFloor speaker).beliefs = s.beliefs := by
    unfold giveFloor
    split <;> rfl
  exact ⟨by simp, by simp, by simp, by simp, beliefs, by simp, by simp,
    fun _ _ => by simp [lastAsker_eq]⟩

end State

theorem reached_free (d : Domain) (c : Config) (calls : List Call) :
    (reached d c calls).pending = none := by
  refine reached_induction (P := fun s => s.pending = none) (by simp) (fun s call free => ?_) calls
  cases call <;> simp [Call.run, free]

namespace Engine

def Rests (e : Engine) (s t : State) : Prop :=
  ∃ o, e.tick s = .ok o ∧ o.record.isQuiescent = true ∧ o.state = t

inductive RestsFor (e : Engine) : Nat → State → State → Prop
  | zero {s} : RestsFor e 0 s s
  | succ {n s t u} (first : e.Rests s t) (rest : RestsFor e n t u) : RestsFor e (n + 1) s u

variable {e : Engine} {s t : State}

/-- A tick is quiescent if and only if no rule applies when it begins. -/
theorem rests_iff (free : s.pending = none) :
    e.Rests s t ↔ (s.beginCycle .system).Dormant e.domain e.config ∧ t = s.rested := by
  have begun : (s.beginCycle .system).pending = none := by simp [free]
  constructor
  · rintro ⟨o, ticks, quiet, rfl⟩
    have finishes := tick_eq_ok ticks
    simp only [CycleRecord.isQuiescent, Bool.and_eq_true, Option.isNone_iff_eq_none] at quiet
    have dormant := State.dormant_of_quiet begun (finishes.updateRule.symm.trans quiet.1)
      (finishes.selectionRule.symm.trans quiet.2)
    refine ⟨dormant, ?_⟩
    rw [finishes.state, quiet.1]
    simp [develop, integrate, select, dormant.integrate, dormant.select_eq, State.rested]
  · rintro ⟨dormant, rfl⟩
    have develops : e.develop (s.beginCycle .system) none =
        (⟨s.beginCycle .system, none, 0, none⟩, ⟨s.rested, none, 0⟩) := by
      simp only [develop, integrate, select, dormant.integrate, dormant.select_eq, State.rested]
    obtain ⟨o, ticks⟩ : ∃ o, e.tick s = .ok o :=
      finishCycle_ok (by simp [develops, Selection.move])
    have finishes := tick_eq_ok ticks
    refine ⟨o, ticks, ?_, ?_⟩
    · simp [CycleRecord.isQuiescent, finishes.updateRule, finishes.selectionRule, develops,
        Selection.rule]
    · simp [finishes.state, finishes.updateRule, develops]

theorem Rests.again (free : s.pending = none) (h : e.Rests s t) : e.Rests t t.rested := by
  obtain ⟨dormant, rfl⟩ := (rests_iff free).mp h
  have still : s.rested.pending = none := by simp [State.rested, free]
  have alike := State.alike_giveFloor.trans (State.alike_beginCycle (s := s.rested))
  exact (rests_iff still).mpr ⟨dormant.alike alike (by simp [still]), rfl⟩

theorem Rests.forever (free : s.pending = none) (h : e.Rests s t) (n : Nat) :
    ∃ u, e.RestsFor n t u ∧ u.substance = t.substance := by
  induction n generalizing s t with
  | zero => exact ⟨t, .zero, rfl⟩
  | succ n ih =>
    have still : t.pending = none := by
      obtain ⟨-, rfl⟩ := (rests_iff free).mp h
      simp [State.rested, free]
    have next := h.again free
    obtain ⟨u, rest, same⟩ := ih still next
    exact ⟨u, .succ next rest, same.trans State.rested_substance⟩

/-- A tick that is quiescent in a state that is reached shows that there is nothing left to do until
the user speaks: the system waits for an answer to what it has asked, and if its plan has work left,
for a question of the plan. The tick does not change the substance of the state, and neither do
those after it, which are all quiescent. -/
theorem quiescence_is_final (e : Engine) (calls : List Call) {o : TurnOutcome}
    (ticks : e.tick (reached e.domain e.config calls) = .ok o)
    (quiet : o.record.isQuiescent = true) :
    o.state.NothingLeft ∧ o.state.substance = (reached e.domain e.config calls).substance ∧
      ∀ n, ∃ t, e.RestsFor n o.state t ∧ t.substance = o.state.substance := by
  have free := reached_free e.domain e.config calls
  have rests : e.Rests (reached e.domain e.config calls) o.state := ⟨o, ticks, quiet, rfl⟩
  obtain ⟨dormant, rested⟩ := (rests_iff free).mp rests
  have asleep : (reached e.domain e.config calls).rested.Dormant e.domain e.config :=
    dormant.alike State.alike_giveFloor (by simp [State.rested, free])
  have underway : (reached e.domain e.config calls).rested.Underway :=
    (reached_underway e.domain e.config calls).keep (by simp [State.rested])
      (by simp [State.rested])
  exact ⟨rested ▸ asleep.nothingLeft underway, rested ▸ State.rested_substance, rests.forever free⟩

/-- Once its question is asked, the errand waits for the user. -/
theorem errand_waits : ∃ o, (talkative errand).tick (reached errand {} errandAsked) = .ok o ∧
    o.record.isQuiescent = true ∧ o.state.activePlan.isSome = true ∧ o.state.NothingLeft ∧
    ∃ t, (talkative errand).RestsFor 1000 o.state t ∧ t.substance = o.state.substance := by
  obtain ⟨o, ticks, quiet, active⟩ : ∃ o,
      (talkative errand).tick (reached errand {} errandAsked) = .ok o ∧
        o.record.isQuiescent = true ∧ o.state.activePlan.isSome = true := ⟨_, rfl, rfl, rfl⟩
  obtain ⟨nothingLeft, -, forever⟩ :=
    quiescence_is_final (talkative errand) errandAsked ticks quiet
  exact ⟨o, ticks, quiet, active, nothingLeft, forever 1000⟩

end Engine
end Dialogue
