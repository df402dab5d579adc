import Dialogue.Proofs.Courtesy
import Dialogue.Proofs.Quiescence

/-!
The states that an engine visits. They are among those that any calls reach, but a cycle is
completed or comes to nothing, and so between cycles no move waits and there is no reason to
clarify.
-/
namespace Dialogue.Engine

/-- The states that an engine takes a dialogue to, from its start on. The dialogue may be opened
again at any time. -/
inductive Visits (e : Engine) : State → Prop
  | start : Visits e e.initialState
  | opened {s} (before : Visits e s) : Visits e (e.openingState s)
  | turned {s utterance o} (before : Visits e s) (done : e.turn s utterance = .ok o) :
      Visits e o.state
  | ticked {s o} (before : Visits e s) (done : e.tick s = .ok o) : Visits e o.state

/-- A dialogue goes from one state to another by requests of users: an utterance is answered, or the
dialogue is opened. Requests that fail lead nowhere. -/
inductive Converses (e : Engine) (s : State) : State → Prop
  | here : Converses e s s
  | responded {t utterance x} (path : Converses e s t) (done : e.respond t utterance = .ok x) :
      Converses e s x.state
  | opened {t x} (path : Converses e s t) (done : e.opening t = .ok x) : Converses e s x.state

variable {e : Engine} {s t : State} {o : TurnOutcome} {os : List TurnOutcome} {limit : Nat}
  {x : Exchange} {h : Interpretation} {given : Option Move} {utterance : String}

@[simp] theorem openingState_frame :
    (e.openingState s).plan = s.plan ∧ (e.openingState s).qud = s.qud ∧
    (e.openingState s).commitments = s.commitments ∧ (e.openingState s).moves = s.moves ∧
    (e.openingState s).lastConfidence = s.lastConfidence ∧
    (e.openingState s).terminated = s.terminated ∧ (e.openingState s).nextSpeaker = .system := by
  have going : (s.enqueue (.greet .system)).terminated = s.terminated := rfl
  unfold openingState
  split <;> simp [going]

/-- Only the greeting that opens a dialogue is added to the agenda. -/
theorem openingState_agenda : (e.openingState s).agenda = s.agenda ∨
    s.moves = [] ∧ (e.openingState s).agenda = s.agenda ++ [.greet .system] := by
  unfold openingState
  split
  · rename_i greets
    simp only [Bool.and_eq_true, List.isEmpty_iff] at greets
    exact .inr ⟨greets.2, by simp⟩
  · exact .inl (by simp)

@[simp] theorem attentive_frame :
    (attentive s h).agenda = s.agenda ∧ (attentive s h).plan = s.plan ∧
    (attentive s h).qud = s.qud ∧ (attentive s h).commitments = s.commitments ∧
    (attentive s h).pending = s.pending ∧ (attentive s h).moves = s.moves ∧
    (attentive s h).terminated = s.terminated := by
  unfold attentive
  split
  · have going : ((s.beginCycle .user).setConfidence .zero).terminated = s.terminated :=
      State.terminated_of_standing (s := s.beginCycle .user) State.setConfidence_standing
    simp [going]
  · simp

/-- Whatever is heard, the user has said it. -/
theorem interpret_speaker (hears : e.interpret utterance s = .ok h) :
    ∀ m, h.move = some m → m.speaker = .user := by
  rcases interpret_eq_ok hears with ⟨m, _, rfl⟩ | ⟨reason, _, rfl⟩ <;> simp

theorem going_of_turn (done : e.turn s utterance = .ok o) : s.terminated = false := by
  by_contra ended
  simp only [Bool.not_eq_false] at ended
  simp only [turn, ended, if_true] at done
  cases done

/-- What a cycle leaves of the state is what selection left, but for who is next. -/
theorem Finishes.selected (h : e.Finishes s given o) :
    o.state.agenda = (e.develop s given).2.state.agenda ∧
    o.state.commitments = (e.develop s given).2.state.commitments ∧
    o.state.moves = (e.develop s given).2.state.moves ∧
    o.state.terminated = (e.develop s given).2.state.terminated := by
  rw [h.state]
  split <;> simp

theorem opening_eq_ok (done : e.opening s = .ok x) :
    ∃ os, e.Initiative e.config.maxSystemCycles (e.openingState s) os x.state := by
  obtain ⟨os, goes, _⟩ := runSystem_eq_ok done
  exact ⟨os, goes⟩

namespace Visits

theorem reachable (visits : e.Visits s) : Reachable e.domain e.config s := by
  induction visits with
  | start => exact initialState_reachable e
  | opened _ before => exact openingState_reachable before
  | turned _ done before => exact turn_reachable before done
  | ticked _ done before => exact tick_reachable before done

theorem free (visits : e.Visits s) : s.pending = none := by
  obtain ⟨calls, rfl⟩ := visits.reachable
  exact reached_free e.domain e.config calls

theorem courteous (visits : e.Visits s) : s.Courteous := by
  obtain ⟨calls, rfl⟩ := visits.reachable
  exact reached_courteous e.domain e.config calls

theorem sure (visits : e.Visits s) (valid : e.config.validate = .ok ()) :
    s.lastConfidence.lt e.config.threshold = false := by
  induction visits with
  | start =>
    rw [initialState, State.withBeliefs_going.2.2]
    exact Binary32.not_lt_of_le (Config.threshold_le_one valid)
  | opened _ before => simpa using before
  | turned _ done =>
    obtain ⟨_, _, finishes⟩ := turn_eq_ok done
    exact (finishes.clear valid).sure
  | ticked _ done => exact ((tick_eq_ok done).clear valid).sure

/-- Without input, integration gives no reason to clarify either. -/
theorem sure_of_tick (visits : e.Visits s) (valid : e.config.validate = .ok ()) :
    (e.integrate (s.beginCycle .system) none).state.lastConfidence.lt e.config.threshold =
      false := by
  simpa only [integrate, State.integrate_none_lastConfidence, State.beginCycle_frame] using
    visits.sure valid

end Visits

theorem Initiative.visits (goes : e.Initiative limit s os t) (visits : e.Visits s) :
    e.Visits t := by
  induction goes with
  | spent | stopped => exact visits
  | rested _ _ ticks => exact visits.ticked ticks
  | worked _ _ ticks _ _ ih => exact ih (visits.ticked ticks)

theorem Converses.visits (path : e.Converses s t) (visits : e.Visits s) : e.Visits t := by
  induction path with
  | here => exact visits
  | responded _ done ih =>
    obtain ⟨first, later, turns, goes, _⟩ := respond_eq_ok done
    exact goes.visits (ih.turned turns)
  | opened _ done ih =>
    obtain ⟨os, goes⟩ := opening_eq_ok done
    exact goes.visits ih.opened

end Dialogue.Engine
