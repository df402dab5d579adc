import Mathlib.Data.List.Induction
import Dialogue.State.Basic

/-!
The history is a complete log. Whatever operations led to a state, carrying out the recorded changes
one after the other on a fresh state rebuilds it. The entries are numbered from one, and each bears
the number of the cycles begun by then.
-/
namespace Dialogue

inductive Mutation where
  | pushQuestion (question : Question)
  | popQuestion
  | commit (proposition : Proposition)
  | recordMove (move : Move) (integrated : Bool)
  | enqueue (move : Move)
  | dequeue
  | loadPlan (plan : Plan)
  | startStep (step : StepId)
  | completeStep (step : StepId)
  | completeStepFor (question : Question)
  | believe (proposition : Proposition)
  | beginCycle (speaker : Speaker)
  | setPending (move : Option Move)
  | takePending
  | setConfidence (confidence : Binary32)
  | setGrounding (awaiting : Bool)
  | giveFloor (speaker : Speaker)
  | terminate

namespace Mutation

def run (s : State) : Mutation → State
  | pushQuestion q => s.pushQuestion q
  | popQuestion => s.popQuestion
  | commit p => s.commit p
  | recordMove m integrated => s.recordMove m integrated
  | enqueue m => s.enqueue m
  | dequeue => s.dequeue
  | loadPlan p => s.loadPlan p
  | startStep id => s.startStep id
  | completeStep id => s.completeStep id
  | completeStepFor q => s.completeStepFor q
  | believe p => s.believe p
  | beginCycle speaker => s.beginCycle speaker
  | setPending m => s.setPending m
  | takePending => s.takePending
  | setConfidence c => s.setConfidence c
  | setGrounding awaiting => s.setGrounding awaiting
  | giveFloor speaker => s.giveFloor speaker
  | terminate => s.terminate

def plan? : Mutation → Option Plan
  | loadPlan p => some p
  | _ => none

end Mutation

/-- The state after a sequence of operations on a fresh one. -/
def State.mutated (ops : List Mutation) : State := ops.foldl Mutation.run .fresh

/-- What the history is a log of: the state without the history and the count of its entries. -/
def State.content (s : State) : State := { s with history := [], version := 0 }

@[simp] theorem State.content_log (s : State) (d : Delta) : (s.log d).content = s.content := rfl

namespace Delta

def startsCycle : Delta → Bool
  | cycleStarted _ => true
  | _ => false

def loadsPlan : Delta → Bool
  | planLoaded _ => true
  | _ => false

/-- Carries out a recorded change, unless it does not fit the state: what is taken away must be
there, and a step must have another status. Of a plan only the task is recorded, so the plan is
given. -/
def change? (given : Option Plan) (s : State) : Delta → Option State
  | cycleStarted speaker => some { s with
      cycle := s.cycle + 1
      turn := speaker
      awaitingGrounding := if speaker = .user then false else s.awaitingGrounding }
  | moveRecorded _ _ => some s
  | questionPushed q => some { s with qud := q :: s.qud }
  | questionPopped q => if s.qud.head? = some q then some { s with qud := s.qud.tail } else none
  | commitmentAdded p => some { s with commitments := s.commitments.insert p }
  | moveEnqueued m => some { s with agenda := s.agenda ++ [m] }
  | moveDequeued m =>
    if s.agenda.head? = some m then some { s with agenda := s.agenda.tail } else none
  | planLoaded task => (given.filter (·.task = task)).map fun p => { s with plan := some p }
  | stepStarted id =>
    (s.plan.bind (·.setStatus? id .inProgress)).map fun p => { s with plan := some p }
  | stepCompleted id =>
    (s.plan.bind (·.setStatus? id .completed)).map fun p => { s with plan := some p }
  | beliefSet p => some { s with beliefs := s.beliefs.insert p.predicate p.value }
  | pendingSet m => some { s with pending := m }
  | pendingTaken m => if s.pending = some m then some { s with pending := none } else none
  | confidenceSet c => some { s with lastConfidence := c }
  | groundingSet awaiting => some { s with awaitingGrounding := awaiting }
  | floorSet speaker => some { s with nextSpeaker := speaker }
  | terminated => some { s with terminated := true }

end Delta

/-- How far a replay has come: the state rebuilt so far, and the plans still to be loaded. -/
structure Replay where
  state : State
  plans : List Plan

namespace Replay

def step? (r : Replay) (d : Delta) : Option Replay :=
  (d.change? r.plans.head? r.state).map fun s => ⟨s, if d.loadsPlan then r.plans.tail else r.plans⟩

/-- Replays recorded changes on a fresh state, with the plans in the order in which they were
loaded. -/
def run? (plans : List Plan) (recorded : List Delta) : Option Replay :=
  recorded.foldlM step? ⟨.fresh, plans⟩

end Replay

namespace State

/-- The ways in which an operation may go: it changes nothing and records nothing, or it records one
change and makes it. -/
inductive Records (s : State) (given : Option Plan) : State → Prop
  | nothing (loads : given = none) : Records s given s
  | change {d : Delta} {t : State} (applies : d.change? given s = some t)
      (loads : d.loadsPlan = given.isSome) : Records s given (t.log d)

/-- The history is the complete log of the state, given the plans that were loaded. -/
structure Logged (s : State) (plans : List Plan) : Prop where
  replays : ∀ later,
    Replay.run? (plans ++ later) (s.history.map Entry.delta) = some ⟨s.content, later⟩
  counts : s.version = s.history.length
  cycles : s.cycle = s.history.countP (·.delta.startsCycle)
  numbers : ∀ i e, s.history[i]? = some e → e.version = i + 1
  stamps : ∀ i e, s.history[i]? = some e →
    e.cycle = (s.history.take (i + 1)).countP (·.delta.startsCycle)

end State

variable {s t : State} {op : Mutation} {d : Delta} {given : Option Plan} {plans : List Plan}

/-- A recorded change touches neither the history nor the count of its entries. -/
theorem Delta.change?_frame (h : d.change? given s = some t) :
    t.history = s.history ∧ t.version = s.version ∧
      t.cycle = s.cycle + if d.startsCycle then 1 else 0 := by
  cases d with
  | questionPopped | moveDequeued | pendingTaken =>
    obtain ⟨_, applied⟩ := Option.ite_none_right_eq_some.mp h
    cases applied
    exact ⟨rfl, rfl, rfl⟩
  | planLoaded | stepStarted | stepCompleted =>
    obtain ⟨_, _, rfl⟩ := Option.map_eq_some_iff.mp h
    exact ⟨rfl, rfl, rfl⟩
  | _ =>
    cases h
    exact ⟨rfl, rfl, rfl⟩

/-- Whether and how a change is carried out does not depend on the history. -/
theorem Delta.change?_content (h : d.change? given s = some t) :
    d.change? given s.content = some t.content := by
  cases d with
  | questionPopped | moveDequeued | pendingTaken =>
    obtain ⟨fits, applied⟩ := Option.ite_none_right_eq_some.mp h
    cases applied
    exact if_pos fits
  | planLoaded | stepStarted | stepCompleted =>
    obtain ⟨p, found, rfl⟩ := Option.map_eq_some_iff.mp h
    exact Option.map_eq_some_iff.mpr ⟨p, found, rfl⟩
  | _ =>
    cases h
    rfl

theorem Delta.change?_of_not_loadsPlan (h : d.loadsPlan = false) (other : Option Plan) :
    d.change? given s = d.change? other s := by
  cases d with
  | planLoaded => contradiction
  | _ => rfl

namespace State

/-- Setting the status of a step records it where it changes the plan. -/
theorem setStep_records {id : StepId} {status : StepStatus}
    (sets : d.change? none s =
      (s.plan.bind (·.setStatus? id status)).map fun p => { s with plan := some p })
    (loads : d.loadsPlan = false) : s.Records none (s.setStep id status d) := by
  unfold setStep
  split
  · rename_i p set
    exact .change (sets.trans (by rw [set]; rfl)) loads
  · exact .nothing rfl

theorem completeStepFor_records (q : Question) : s.Records none (s.completeStepFor q) := by
  unfold completeStepFor
  split
  · exact setStep_records rfl rfl
  · exact .nothing rfl

theorem popQuestion_records : s.Records none s.popQuestion := by
  unfold popQuestion
  split
  · exact .nothing rfl
  · rename_i q rest discussed
    exact .change (t := { s with qud := rest }) (by simp [Delta.change?, discussed]) rfl

theorem dequeue_records : s.Records none s.dequeue := by
  unfold dequeue
  split
  · exact .nothing rfl
  · rename_i m rest waiting
    exact .change (t := { s with agenda := rest }) (by simp [Delta.change?, waiting]) rfl

theorem takePending_records : s.Records none s.takePending := by
  unfold takePending
  split
  · exact .nothing rfl
  · rename_i m waiting
    exact .change (t := { s with pending := none }) (by simp [Delta.change?, waiting]) rfl

theorem beginCycle_records (speaker : Speaker) : s.Records none (s.beginCycle speaker) := by
  have applies : (Delta.cycleStarted speaker).change? none s = some { s with
      cycle := s.cycle + 1
      turn := speaker
      awaitingGrounding := s.awaitingGrounding && speaker ≠ .user } := by
    cases speaker <;> simp [Delta.change?]
  exact .change applies rfl

/-- Writing a value records it, unless the value is there already. -/
theorem records_ite {known : Prop} [Decidable known] (applies : d.change? none s = some t)
    (loads : d.loadsPlan = false) : s.Records none (if known then s else t.log d) := by
  split
  · exact .nothing rfl
  · exact .change applies loads

end State

theorem Mutation.records (op : Mutation) (s : State) : s.Records op.plan? (op.run s) := by
  cases op with
  | loadPlan p =>
    exact .change (t := { s with plan := some p }) (by simp [Delta.change?, plan?]) rfl
  | popQuestion => exact State.popQuestion_records
  | dequeue => exact State.dequeue_records
  | startStep | completeStep => exact State.setStep_records rfl rfl
  | completeStepFor q => exact State.completeStepFor_records q
  | beginCycle speaker => exact State.beginCycle_records speaker
  | takePending => exact State.takePending_records
  | commit | setPending | setConfidence | setGrounding | giveFloor | terminate =>
    refine State.records_ite ?_ ?_ <;> rfl
  | pushQuestion | recordMove | enqueue | believe => exact .change rfl rfl

/-- A change recorded by an operation is replayed with the plan that the operation loaded. -/
theorem Replay.step?_content (applies : d.change? given s = some t)
    (loads : d.loadsPlan = given.isSome) (later : List Plan) :
    step? ⟨s.content, given.toList ++ later⟩ d = some ⟨t.content, later⟩ := by
  cases given with
  | some p => simp [step?, Delta.change?_content applies, loads]
  | none =>
    have applies := (Delta.change?_of_not_loadsPlan loads later.head?).symm.trans applies
    simp [step?, Delta.change?_content applies, loads]

namespace State

theorem fresh_logged : fresh.Logged [] where
  replays _ := rfl
  counts := rfl
  cycles := rfl
  numbers _ _ none := by simp [fresh] at none
  stamps _ _ none := by simp [fresh] at none

theorem getElem?_concat {history : List Entry} {e last : Entry} {i : Nat}
    (h : (history ++ [last])[i]? = some e) :
    history[i]? = some e ∧ i < history.length ∨ i = history.length ∧ e = last := by
  rcases Nat.lt_trichotomy i history.length with before | rfl | beyond
  · exact .inl ⟨by rwa [List.getElem?_append_left before] at h, before⟩
  · exact .inr ⟨rfl, by simpa using h.symm⟩
  · rw [List.getElem?_append_right (by omega)] at h
    have : i - history.length ≠ 0 := by omega
    simp [this] at h

theorem Logged.record (h : s.Logged plans) (records : s.Records given t) :
    t.Logged (plans ++ given.toList) := by
  cases records with
  | nothing loads =>
    subst loads
    simpa using h
  | @change d u applies loads =>
    obtain ⟨history, version, cycle⟩ := Delta.change?_frame applies
    have recorded : (u.log d).history = s.history ++ [⟨u.cycle, s.version + 1, d⟩] := by
      simp only [log, history, version]
    have cycles : u.cycle = (u.log d).history.countP (·.delta.startsCycle) := by
      simp [recorded, List.countP_append, cycle, h.cycles, List.countP_cons]
    have length : (u.log d).history.length = s.history.length + 1 := by simp [recorded]
    constructor
    · intro later
      have before := h.replays (given.toList ++ later)
      have last := Replay.step?_content applies loads later
      simp only [Replay.run?, List.append_assoc, recorded, List.map_append,
        List.foldlM_append] at before ⊢
      rw [before]
      simpa using last
    · rw [length, ← h.counts, ← version]
      rfl
    · exact cycles
    · intro i e entry
      rw [recorded] at entry
      rcases getElem?_concat entry with ⟨earlier, _⟩ | ⟨rfl, rfl⟩
      · exact h.numbers i e earlier
      · simp [h.counts]
    · intro i e entry
      rw [recorded] at entry
      rcases getElem?_concat entry with ⟨earlier, bound⟩ | ⟨rfl, rfl⟩
      · rw [recorded, List.take_append_of_le_length bound]
        exact h.stamps i e earlier
      · rw [List.take_of_length_le (by simp [recorded])]
        exact cycles

end State

theorem mutated_logged (ops : List Mutation) :
    (State.mutated ops).Logged (ops.filterMap Mutation.plan?) := by
  induction ops using List.reverseRecOn with
  | nil => exact State.fresh_logged
  | append_singleton ops op ih =>
    have loaded : [op].filterMap Mutation.plan? = op.plan?.toList := by
      cases h : op.plan? <;> simp [h]
    have step := ih.record (op.records (State.mutated ops))
    rw [List.filterMap_append, loaded]
    simpa [State.mutated] using step

/-- The history is a complete log of the state. After any sequence of operations on a fresh state, a
replay of the recorded changes rebuilds everything but the history, using up the plans that were
loaded; the entries are numbered from one, as many as the version says, and each bears the number of
cycles begun up to and including it. -/
theorem history_rebuilds_state (ops : List Mutation) :
    Replay.run? (ops.filterMap Mutation.plan?) ((State.mutated ops).history.map Entry.delta) =
        some ⟨(State.mutated ops).content, []⟩ ∧
      (State.mutated ops).version = (State.mutated ops).history.length ∧
      ∀ i e, (State.mutated ops).history[i]? = some e → e.version = i + 1 ∧
        e.cycle = ((State.mutated ops).history.take (i + 1)).countP (·.delta.startsCycle) := by
  have logged := mutated_logged ops
  refine ⟨?_, logged.counts, fun i e entry => ⟨logged.numbers i e entry, logged.stamps i e entry⟩⟩
  simpa using logged.replays []

/-- Two cycles with a plan. Giving the floor to the system and taking a question off an empty stack
change nothing, so they leave no entry. -/
def bookkeeping : List Mutation :=
  [.giveFloor .system, .beginCycle .user, .loadPlan (.ofActions "post" [.findout (.yesNo "late")]),
    .pushQuestion (.yesNo "late"), .startStep ⟨"post/0"⟩, .beginCycle .user,
    .commit ⟨"late", .bool true⟩, .popQuestion, .completeStepFor (.yesNo "late"), .popQuestion]

theorem bookkeeping_commitment_stamped :
    (State.mutated bookkeeping).history[5]? =
        some ⟨2, 6, .commitmentAdded ⟨"late", .bool true⟩⟩ ∧
      6 = 5 + 1 ∧
      2 = ((State.mutated bookkeeping).history.take (5 + 1)).countP (·.delta.startsCycle) := by
  have entry : (State.mutated bookkeeping).history[5]? =
      some ⟨2, 6, .commitmentAdded ⟨"late", .bool true⟩⟩ := by decide +kernel
  exact ⟨entry, (history_rebuilds_state bookkeeping).2.2 5 _ entry⟩

end Dialogue
