import Mathlib.Data.List.Induction
import Dialogue.Proofs.Cycle

/-!
Runs: any sequence of calls on the state of a dialogue, in any order. They cover what an engine does
with a state, and more. What holds at the start and is preserved by every call holds in every state
that is reached.
-/
namespace Dialogue

/-- A call on the state of a dialogue. -/
inductive Call where
  | beginCycle (speaker : Speaker)
  | integrate (move : Option Move)
  | select
  /-- An utterance could not be interpreted. -/
  | mishear
  | giveFloor (speaker : Speaker)
  /-- A greeting of the system is to open the dialogue. -/
  | greet
  deriving DecidableEq

def Call.run (d : Domain) (c : Config) (s : State) : Call → State
  | beginCycle speaker => s.beginCycle speaker
  | integrate m => (s.integrate d c m).state
  | select => (s.select d c).state
  | mishear => s.setConfidence .zero
  | giveFloor speaker => s.giveFloor speaker
  | greet => s.enqueue (.greet .system)

/-- The state after a sequence of calls from the start of a dialogue. -/
def reached (d : Domain) (c : Config) (calls : List Call) : State :=
  calls.foldl (Call.run d c) (.withBeliefs d.beliefs)

variable {d : Domain} {c : Config} {s t : State}

@[simp] theorem reached_concat {calls : List Call} {call : Call} :
    reached d c (calls ++ [call]) = call.run d c (reached d c calls) := by
  simp [reached]

theorem reached_induction {P : State → Prop} (start : P (.withBeliefs d.beliefs))
    (step : ∀ s (call : Call), P s → P (call.run d c s)) (calls : List Call) :
    P (reached d c calls) := by
  induction calls using List.reverseRecOn with
  | nil => exact start
  | append_singleton calls call ih =>
    rw [reached_concat]
    exact step _ call ih

/-- A dialogue starts with nothing but beliefs. -/
@[simp] theorem State.withBeliefs_frame {beliefs : OrderedMap String Value} :
    (withBeliefs beliefs).plan = none ∧ (withBeliefs beliefs).commitments = ∅ ∧
      (withBeliefs beliefs).pending = none ∧ (withBeliefs beliefs).moves = [] ∧
      (withBeliefs beliefs).cycle = 0 := by
  unfold withBeliefs
  refine List.foldlRecOn (motive := fun s : State => s.plan = none ∧ s.commitments = ∅ ∧
    s.pending = none ∧ s.moves = [] ∧ s.cycle = 0) _ _ ⟨rfl, rfl, rfl, rfl, rfl⟩ fun s h b _ => ?_
  simpa [State.believe, State.moves] using h

def Domain.ofTask (id : String) (actions : List PlanAction) : Domain :=
  ({ name := id, questions := [], distinct_topics := List.nodup_nil } : Domain).withTask id
    ⟨[], true, actions⟩

/-- A task that finds something out before it informs of something else. -/
def errand : Domain := .ofTask "post" [.findout (.yesNo "late"), .inform ⟨"told", .bool true⟩]

/-- The user asks for the task, the system asks its question, and the user answers. -/
def errandAnswered : List Call :=
  [.beginCycle .user, .integrate (some (.request .user "post")), .select,
    .beginCycle .user, .integrate (some (.answer .user (.short (.bool true))))]

namespace State

structure Grows (s t : State) : Prop where
  commitments : ∀ p ∈ s.commitments, p ∈ t.commitments
  moves : s.moves <+: t.moves

theorem Grows.wasAsked {q : Question} (h : s.Grows t) (asked : s.wasAsked q = true) :
    t.wasAsked q = true := by
  obtain ⟨x, recorded, asks⟩ := wasAsked_iff.mp asked
  exact wasAsked_iff.mpr ⟨x, h.moves.subset recorded, asks⟩

end State

theorem UpdateRule.Fires.grows {r : UpdateRule} (h : Fires d c s r t) : s.Grows t := by
  cases h <;> constructor <;> simp +contextual

theorem SelectionRule.Fires.grows {r : SelectionRule} {m : Move} (h : Fires d c s r t m) :
    s.Grows t := by
  refine ⟨?_, by simp [h.recorded]⟩
  cases h with
  | pursued => split <;> simp
  | _ => simp +contextual

theorem Call.grows (call : Call) : s.Grows (call.run d c s) := by
  cases call with
  | integrate m =>
    rcases s.integrate_cases d c m with ⟨r, after, fires, outcome⟩ | ⟨_, outcome⟩
    · have step := fires.grows
      simp only [run, outcome]
      exact ⟨by simpa using step.commitments, by simpa using step.moves⟩
    · constructor <;> simp [run, outcome]
  | select =>
    rcases s.select_cases d c with ⟨r, after, m, fires, outcome⟩ | ⟨_, outcome⟩
    · have step := fires.grows
      simp only [run, outcome]
      exact ⟨by simpa using step.commitments, by simpa using step.moves⟩
    · constructor <;> simp [run, outcome]
  | _ => constructor <;> simp [run]

theorem Call.foldl_grows (calls : List Call) : s.Grows (calls.foldl (Call.run d c) s) := by
  induction calls using List.reverseRecOn with
  | nil => exact ⟨fun _ h => h, List.prefix_refl _⟩
  | append_singleton calls call ih =>
    have last := call.grows (d := d) (c := c) (s := calls.foldl (Call.run d c) s)
    rw [List.foldl_append, List.foldl_cons, List.foldl_nil]
    exact ⟨fun p h => last.commitments p (ih.commitments p h), ih.moves.trans last.moves⟩

def Reachable (d : Domain) (c : Config) (s : State) : Prop := ∃ calls, reached d c calls = s

theorem Reachable.call (h : Reachable d c s) (call : Call) : Reachable d c (call.run d c s) := by
  obtain ⟨calls, rfl⟩ := h
  exact ⟨calls ++ [call], reached_concat⟩

namespace Engine

variable {e : Engine} {m : Option Move} {heard : List Diagnostic} {speaker : Speaker}
  {o : TurnOutcome} {x y : Exchange} {utterance : String}

theorem initialState_reachable (e : Engine) : Reachable e.domain e.config e.initialState :=
  ⟨[], rfl⟩

theorem Finishes.reachable (h : Reachable e.domain e.config s) (done : e.Finishes s m o) :
    Reachable e.domain e.config o.state := by
  have selected := (h.call (.integrate m)).call .select
  have floored := selected.call (.giveFloor .system)
  rw [done.state]
  split
  · exact floored
  · exact selected

theorem turn_reachable (h : Reachable e.domain e.config s) (done : e.turn s utterance = .ok o) :
    Reachable e.domain e.config o.state := by
  obtain ⟨heard, _, finishes⟩ := turn_eq_ok done
  have begun := h.call (.beginCycle .user)
  unfold attentive at finishes
  split at finishes
  · exact finishes.reachable (begun.call .mishear)
  · exact finishes.reachable begun

theorem tick_reachable (h : Reachable e.domain e.config s) (done : e.tick s = .ok o) :
    Reachable e.domain e.config o.state :=
  (tick_eq_ok done).reachable (h.call (.beginCycle .system))

theorem runSystem_reachable {limit : Nat} (h : Reachable e.domain e.config x.state)
    (done : e.runSystem limit x = .ok y) : Reachable e.domain e.config y.state := by
  induction limit generalizing x with
  | zero =>
    cases done
    exact h
  | succ limit ih =>
    rw [runSystem] at done
    split at done
    · cases done
      exact h
    · obtain ⟨o, ticks, rest⟩ := bind_eq_ok.mp done
      have after : Reachable e.domain e.config (x.push o).state := tick_reachable h ticks
      split at rest
      · cases rest
        exact after
      · exact ih after rest

theorem respond_reachable (h : Reachable e.domain e.config s)
    (done : e.respond s utterance = .ok x) : Reachable e.domain e.config x.state := by
  obtain ⟨o, first, rest⟩ := bind_eq_ok.mp done
  exact runSystem_reachable (turn_reachable h first) rest

theorem openingState_reachable (h : Reachable e.domain e.config s) :
    Reachable e.domain e.config (e.openingState s) := by
  simp only [openingState]
  split
  · exact (h.call .greet).call (.giveFloor .system)
  · exact h.call (.giveFloor .system)

theorem opening_reachable (h : Reachable e.domain e.config s) (done : e.opening s = .ok x) :
    Reachable e.domain e.config x.state :=
  runSystem_reachable (x := { state := e.openingState s }) (openingState_reachable h) done

end Engine
end Dialogue
