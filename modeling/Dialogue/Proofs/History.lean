import Dialogue.Proofs.Integration
import Dialogue.Proofs.Selection

/-!
What the history says of plans and of the questions under discussion: which plans have been loaded,
and which questions were taken off the stack. Of the operations on states only one loads a plan, and
only one takes a question off.
-/
namespace Dialogue

namespace Delta

def popped? : Delta → Option Question
  | questionPopped q => some q
  | _ => none

def loaded? : Delta → Option String
  | planLoaded task => some task
  | _ => none

end Delta

namespace State

def popped (s : State) : List Question := s.history.filterMap (·.delta.popped?)

def loaded (s : State) : List String := s.history.filterMap (·.delta.loaded?)

variable {s : State} {q : Question} {p : Proposition} {m : Move} {d : Delta} {id : StepId}
  {plan : Plan} {speaker : Speaker} {heard : Option Move} {c : Binary32} {flag : Bool}

/-- Whether an operation writes to the log does not matter as long as it is of another kind. -/
theorem recorded_of_log {t : State} (same : t.history = s.history) (pop : d.popped? = none)
    (load : d.loaded? = none) : (t.log d).popped = s.popped ∧ (t.log d).loaded = s.loaded := by
  simp [popped, loaded, same, pop, load]

@[simp] theorem pushQuestion_recorded :
    (s.pushQuestion q).popped = s.popped ∧ (s.pushQuestion q).loaded = s.loaded :=
  recorded_of_log rfl rfl rfl

@[simp] theorem popQuestion_popped : s.popQuestion.popped = s.popped ++ s.qud.head?.toList := by
  unfold popQuestion
  split <;> simp [*, popped, Delta.popped?]

@[simp] theorem popQuestion_loaded : s.popQuestion.loaded = s.loaded := by
  unfold popQuestion
  split <;> simp [*, loaded, Delta.loaded?]

@[simp] theorem commit_recorded :
    (s.commit p).popped = s.popped ∧ (s.commit p).loaded = s.loaded := by
  unfold commit
  split
  · exact ⟨rfl, rfl⟩
  · exact recorded_of_log rfl rfl rfl

@[simp] theorem recordMove_recorded :
    (s.recordMove m flag).popped = s.popped ∧ (s.recordMove m flag).loaded = s.loaded :=
  recorded_of_log rfl rfl rfl

@[simp] theorem enqueue_recorded :
    (s.enqueue m).popped = s.popped ∧ (s.enqueue m).loaded = s.loaded :=
  recorded_of_log rfl rfl rfl

@[simp] theorem dequeue_recorded :
    s.dequeue.popped = s.popped ∧ s.dequeue.loaded = s.loaded := by
  unfold dequeue
  split
  · exact ⟨rfl, rfl⟩
  · exact recorded_of_log rfl rfl rfl

@[simp] theorem loadPlan_popped : (s.loadPlan plan).popped = s.popped := by
  simp [loadPlan, popped, Delta.popped?]

/-- Setting the status of a step leaves no entry of the two kinds. -/
theorem setStep_recorded {status : StepStatus} (pop : d.popped? = none) (load : d.loaded? = none) :
    (s.setStep id status d).popped = s.popped ∧ (s.setStep id status d).loaded = s.loaded := by
  unfold setStep
  split
  · exact recorded_of_log rfl pop load
  · exact ⟨rfl, rfl⟩

@[simp] theorem completeStep_recorded :
    (s.completeStep id).popped = s.popped ∧ (s.completeStep id).loaded = s.loaded :=
  setStep_recorded rfl rfl

@[simp] theorem startStep_recorded :
    (s.startStep id).popped = s.popped ∧ (s.startStep id).loaded = s.loaded :=
  setStep_recorded rfl rfl

@[simp] theorem completeStepFor_recorded :
    (s.completeStepFor q).popped = s.popped ∧ (s.completeStepFor q).loaded = s.loaded := by
  unfold completeStepFor
  split <;> simp only [completeStep_recorded, and_self]

@[simp] theorem startStepFor_recorded :
    (s.startStepFor q).popped = s.popped ∧ (s.startStepFor q).loaded = s.loaded := by
  unfold startStepFor
  split <;> simp only [startStep_recorded, and_self]

@[simp] theorem beginCycle_recorded :
    (s.beginCycle speaker).popped = s.popped ∧ (s.beginCycle speaker).loaded = s.loaded :=
  recorded_of_log rfl rfl rfl

@[simp] theorem setPending_recorded :
    (s.setPending heard).popped = s.popped ∧ (s.setPending heard).loaded = s.loaded := by
  unfold setPending
  split
  · exact ⟨rfl, rfl⟩
  · exact recorded_of_log rfl rfl rfl

@[simp] theorem takePending_recorded :
    s.takePending.popped = s.popped ∧ s.takePending.loaded = s.loaded := by
  unfold takePending
  split
  · exact ⟨rfl, rfl⟩
  · exact recorded_of_log rfl rfl rfl

@[simp] theorem setConfidence_recorded :
    (s.setConfidence c).popped = s.popped ∧ (s.setConfidence c).loaded = s.loaded := by
  unfold setConfidence
  split
  · exact ⟨rfl, rfl⟩
  · exact recorded_of_log rfl rfl rfl

@[simp] theorem setGrounding_recorded :
    (s.setGrounding flag).popped = s.popped ∧ (s.setGrounding flag).loaded = s.loaded := by
  unfold setGrounding
  split
  · exact ⟨rfl, rfl⟩
  · exact recorded_of_log rfl rfl rfl

@[simp] theorem giveFloor_recorded :
    (s.giveFloor speaker).popped = s.popped ∧ (s.giveFloor speaker).loaded = s.loaded := by
  unfold giveFloor
  split
  · exact ⟨rfl, rfl⟩
  · exact recorded_of_log rfl rfl rfl

@[simp] theorem terminate_recorded :
    s.terminate.popped = s.popped ∧ s.terminate.loaded = s.loaded := by
  unfold terminate
  split
  · exact ⟨rfl, rfl⟩
  · exact recorded_of_log rfl rfl rfl

@[simp] theorem settle_recorded :
    (s.settle q p).popped = s.popped ∧ (s.settle q p).loaded = s.loaded := by
  simp only [settle, completeStepFor_recorded, commit_recorded, and_self]

@[simp] theorem ground_recorded :
    (s.ground speaker).popped = s.popped ∧ (s.ground speaker).loaded = s.loaded := by
  unfold ground
  split <;> simp only [setGrounding_recorded, and_self]

@[simp] theorem consume_recorded :
    (s.consume m).popped = s.popped ∧ (s.consume m).loaded = s.loaded := by
  simp only [consume, recordMove_recorded, setConfidence_recorded, takePending_recorded, and_self]

@[simp] theorem emit_recorded : (s.emit m).popped = s.popped ∧ (s.emit m).loaded = s.loaded := by
  simp only [emit, setGrounding_recorded, recordMove_recorded, and_self]

@[simp] theorem abandonPending_recorded :
    s.abandonPending.popped = s.popped ∧ s.abandonPending.loaded = s.loaded := by
  unfold abandonPending
  split <;> simp

end State

variable {d : Domain} {c : Config} {s after : State}

/-- What an update rule takes off the stack, if anything, is resolved when it has fired. -/
theorem UpdateRule.Fires.popped {r : UpdateRule} (h : Fires d c s r after) :
    ∃ gone, after.popped = s.popped ++ gone ∧
      ∀ q ∈ gone, q.resolvedBy after.commitments = true := by
  cases h with
  | @settled m a q p heard top settles =>
    have top : s.qud.head? = some q := top
    refine ⟨[q], by simp [top], ?_⟩
    simp [Question.resolvedBy_insert settles]
  | @issueSettled m a q p _ _ settles | @buried m a q p _ _ settles
  | @volunteered m a _ q p _ _ settles =>
    refine ⟨[q], by simp, ?_⟩
    simp [Question.resolvedBy_insert settles]
  | @downdated q _ top resolved =>
    have top : s.qud.head? = some q := top
    exact ⟨[q], by simp [top], by simpa using resolved⟩
  | _ => exact ⟨[], by simp, by simp⟩

/-- A selection rule takes a question off the stack only to answer it. -/
theorem SelectionRule.Fires.popped {r : SelectionRule} {m : Move} (h : Fires d c s r after m) :
    ∃ gone, after.popped = s.popped ++ gone ∧
      ∀ q ∈ gone, q.resolvedBy after.commitments = true := by
  cases h with
  | @answered q p top _ _ believes =>
    obtain ⟨v, _, settles⟩ := Option.bind_eq_some_iff.mp believes
    have top : s.qud.head? = some q := top
    refine ⟨[q], by simp [top], ?_⟩
    simp [Question.resolvedBy_insert settles]
  | pursued => exact ⟨[], by split <;> simp, by simp⟩
  | _ => exact ⟨[], by simp, by simp⟩

theorem SelectionRule.Fires.loaded {r : SelectionRule} {m : Move} (h : Fires d c s r after m) :
    after.loaded = s.loaded := by
  cases h with
  | pursued => split <;> simp
  | _ => simp

end Dialogue
