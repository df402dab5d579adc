import Dialogue.Proofs.Integration
import Dialogue.Proofs.Selection

/-!
What stands while a dialogue is carried on. Contributions change neither the beliefs nor whose turn
it is, nor who is next, nor whether the dialogue has ended; only a farewell ends it.
-/
namespace Dialogue

/-- What the system believes, whose turn it is, who is next, and whether the dialogue has ended. -/
structure Standing where
  beliefs : OrderedMap String Value
  turn : Speaker
  nextSpeaker : Speaker
  terminated : Bool

namespace State

def standing (s : State) : Standing := ⟨s.beliefs, s.turn, s.nextSpeaker, s.terminated⟩

variable {s t : State} {q : Question} {p : Proposition} {m : Move} {d : Delta} {id : StepId}
  {plan : Plan} {speaker : Speaker} {heard : Option Move} {x : Binary32} {flag : Bool}

theorem terminated_of_standing (same : t.standing = s.standing) : t.terminated = s.terminated :=
  congrArg Standing.terminated same

@[simp] theorem log_standing : (s.log d).standing = s.standing := rfl

@[simp] theorem pushQuestion_standing : (s.pushQuestion q).standing = s.standing := rfl

@[simp] theorem recordMove_standing : (s.recordMove m flag).standing = s.standing := rfl

@[simp] theorem enqueue_standing : (s.enqueue m).standing = s.standing := rfl

@[simp] theorem loadPlan_standing : (s.loadPlan plan).standing = s.standing := rfl

@[simp] theorem popQuestion_standing : s.popQuestion.standing = s.standing := by
  unfold popQuestion
  split <;> rfl

@[simp] theorem commit_standing : (s.commit p).standing = s.standing := by
  unfold commit
  split <;> rfl

@[simp] theorem dequeue_standing : s.dequeue.standing = s.standing := by
  unfold dequeue
  split <;> rfl

@[simp] theorem setStep_standing {status : StepStatus} :
    (s.setStep id status d).standing = s.standing := by
  unfold setStep
  split <;> rfl

@[simp] theorem startStep_standing : (s.startStep id).standing = s.standing := setStep_standing

@[simp] theorem completeStep_standing : (s.completeStep id).standing = s.standing :=
  setStep_standing

@[simp] theorem startStepFor_standing : (s.startStepFor q).standing = s.standing := by
  unfold startStepFor
  split <;> simp

@[simp] theorem completeStepFor_standing : (s.completeStepFor q).standing = s.standing := by
  unfold completeStepFor
  split <;> simp

@[simp] theorem setPending_standing : (s.setPending heard).standing = s.standing := by
  unfold setPending
  split <;> rfl

@[simp] theorem takePending_standing : s.takePending.standing = s.standing := by
  unfold takePending
  split <;> rfl

@[simp] theorem setConfidence_standing : (s.setConfidence x).standing = s.standing := by
  unfold setConfidence
  split <;> rfl

@[simp] theorem setGrounding_standing : (s.setGrounding flag).standing = s.standing := by
  unfold setGrounding
  split <;> rfl

@[simp] theorem settle_standing : (s.settle q p).standing = s.standing := by
  simp [settle]

@[simp] theorem ground_standing : (s.ground speaker).standing = s.standing := by
  unfold ground
  split <;> simp

@[simp] theorem consume_standing : (s.consume m).standing = s.standing := by
  simp [consume]

@[simp] theorem emit_standing : (s.emit m).standing = s.standing := by
  simp [emit]

@[simp] theorem abandonPending_standing : s.abandonPending.standing = s.standing := by
  unfold abandonPending
  split <;> simp

@[simp] theorem beginCycle_terminated : (s.beginCycle speaker).terminated = s.terminated := rfl

@[simp] theorem giveFloor_terminated : (s.giveFloor speaker).terminated = s.terminated := by
  unfold giveFloor
  split <;> rfl

@[simp] theorem terminate_terminated : s.terminate.terminated = true := by
  unfold terminate
  split <;> simp_all [log]

end State

variable {d : Domain} {c : Config} {s after : State}

theorem SelectionRule.Fires.standing {r : SelectionRule} {m : Move} (h : Fires d c s r after m) :
    after.standing = s.standing := by
  cases h with
  | pursued => split <;> simp
  | _ => simp

end Dialogue
