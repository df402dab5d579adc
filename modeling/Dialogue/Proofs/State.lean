import Dialogue.Rules.Update
import Dialogue.Rules.Selection
import Dialogue.Proofs.Plan
import Dialogue.Proofs.Resolution

/-!
Laws of the operations on states. Each operation changes one part of a state and leaves the others
as they are, among them the moves on record, to which only recording adds.
-/
namespace Dialogue.State

variable {s : State} {q : Question} {p : Proposition} {m : Move} {d : Delta} {id : StepId}
  {plan : Plan} {speaker : Speaker} {heard : Option Move} {c : Binary32} {flag : Bool}

@[simp] theorem log_frame :
    (s.log d).agenda = s.agenda ∧ (s.log d).plan = s.plan ∧ (s.log d).qud = s.qud ∧
    (s.log d).commitments = s.commitments ∧ (s.log d).pending = s.pending ∧
    (s.log d).lastConfidence = s.lastConfidence ∧
    (s.log d).awaitingGrounding = s.awaitingGrounding ∧ (s.log d).cycle = s.cycle := by
  simp [log]

@[simp] theorem log_history :
    (s.log d).history = s.history ++ [⟨s.cycle, s.version + 1, d⟩] := rfl

@[simp] theorem pushQuestion_frame :
    (s.pushQuestion q).agenda = s.agenda ∧ (s.pushQuestion q).plan = s.plan ∧
    (s.pushQuestion q).commitments = s.commitments ∧ (s.pushQuestion q).pending = s.pending ∧
    (s.pushQuestion q).lastConfidence = s.lastConfidence ∧
    (s.pushQuestion q).awaitingGrounding = s.awaitingGrounding ∧
    (s.pushQuestion q).moves = s.moves ∧ (s.pushQuestion q).cycle = s.cycle := by
  simp [pushQuestion, moves]

@[simp] theorem pushQuestion_qud : (s.pushQuestion q).qud = q :: s.qud := by
  simp [pushQuestion]

@[simp] theorem popQuestion_frame :
    s.popQuestion.agenda = s.agenda ∧ s.popQuestion.plan = s.plan ∧
    s.popQuestion.commitments = s.commitments ∧ s.popQuestion.pending = s.pending ∧
    s.popQuestion.lastConfidence = s.lastConfidence ∧
    s.popQuestion.awaitingGrounding = s.awaitingGrounding ∧ s.popQuestion.moves = s.moves ∧
    s.popQuestion.cycle = s.cycle := by
  unfold popQuestion
  split <;> simp [moves]

@[simp] theorem popQuestion_qud : s.popQuestion.qud = s.qud.tail := by
  unfold popQuestion
  split <;> simp [*]

@[simp] theorem commit_frame :
    (s.commit p).agenda = s.agenda ∧ (s.commit p).plan = s.plan ∧ (s.commit p).qud = s.qud ∧
    (s.commit p).pending = s.pending ∧ (s.commit p).lastConfidence = s.lastConfidence ∧
    (s.commit p).awaitingGrounding = s.awaitingGrounding ∧ (s.commit p).moves = s.moves ∧
    (s.commit p).cycle = s.cycle := by
  unfold commit
  split <;> simp [moves]

@[simp] theorem commit_commitments : (s.commit p).commitments = s.commitments.insert p := by
  unfold commit
  split
  · rename_i known
    exact (OrderedSet.insert_of_mem known).symm
  · simp

@[simp] theorem recordMove_frame :
    (s.recordMove m flag).agenda = s.agenda ∧ (s.recordMove m flag).plan = s.plan ∧
    (s.recordMove m flag).qud = s.qud ∧ (s.recordMove m flag).commitments = s.commitments ∧
    (s.recordMove m flag).pending = s.pending ∧
    (s.recordMove m flag).lastConfidence = s.lastConfidence ∧
    (s.recordMove m flag).awaitingGrounding = s.awaitingGrounding ∧
    (s.recordMove m flag).cycle = s.cycle := by
  simp [recordMove]

@[simp] theorem recordMove_moves : (s.recordMove m flag).moves = s.moves ++ [(m, flag)] := by
  simp [recordMove, moves]

@[simp] theorem enqueue_frame :
    (s.enqueue m).plan = s.plan ∧ (s.enqueue m).qud = s.qud ∧
    (s.enqueue m).commitments = s.commitments ∧ (s.enqueue m).pending = s.pending ∧
    (s.enqueue m).lastConfidence = s.lastConfidence ∧
    (s.enqueue m).awaitingGrounding = s.awaitingGrounding ∧ (s.enqueue m).moves = s.moves ∧
    (s.enqueue m).cycle = s.cycle := by
  simp [enqueue, moves]

@[simp] theorem enqueue_agenda : (s.enqueue m).agenda = s.agenda ++ [m] := by
  simp [enqueue]

@[simp] theorem dequeue_frame :
    s.dequeue.plan = s.plan ∧ s.dequeue.qud = s.qud ∧ s.dequeue.commitments = s.commitments ∧
    s.dequeue.pending = s.pending ∧ s.dequeue.lastConfidence = s.lastConfidence ∧
    s.dequeue.awaitingGrounding = s.awaitingGrounding ∧ s.dequeue.moves = s.moves ∧
    s.dequeue.cycle = s.cycle := by
  unfold dequeue
  split <;> simp [moves]

@[simp] theorem dequeue_agenda : s.dequeue.agenda = s.agenda.tail := by
  unfold dequeue
  split <;> simp [*]

@[simp] theorem loadPlan_frame :
    (s.loadPlan plan).agenda = s.agenda ∧ (s.loadPlan plan).qud = s.qud ∧
    (s.loadPlan plan).commitments = s.commitments ∧ (s.loadPlan plan).pending = s.pending ∧
    (s.loadPlan plan).lastConfidence = s.lastConfidence ∧
    (s.loadPlan plan).awaitingGrounding = s.awaitingGrounding ∧
    (s.loadPlan plan).moves = s.moves ∧ (s.loadPlan plan).cycle = s.cycle := by
  simp [loadPlan, moves]

@[simp] theorem loadPlan_plan : (s.loadPlan plan).plan = some plan := by
  simp [loadPlan]

@[simp] theorem completeStep_frame :
    (s.completeStep id).agenda = s.agenda ∧ (s.completeStep id).qud = s.qud ∧
    (s.completeStep id).commitments = s.commitments ∧ (s.completeStep id).pending = s.pending ∧
    (s.completeStep id).lastConfidence = s.lastConfidence ∧
    (s.completeStep id).awaitingGrounding = s.awaitingGrounding ∧
    (s.completeStep id).moves = s.moves ∧ (s.completeStep id).cycle = s.cycle := by
  unfold completeStep setStep
  split <;> simp [moves]

@[simp] theorem startStep_frame :
    (s.startStep id).agenda = s.agenda ∧ (s.startStep id).qud = s.qud ∧
    (s.startStep id).commitments = s.commitments ∧ (s.startStep id).pending = s.pending ∧
    (s.startStep id).lastConfidence = s.lastConfidence ∧
    (s.startStep id).awaitingGrounding = s.awaitingGrounding ∧
    (s.startStep id).moves = s.moves ∧ (s.startStep id).cycle = s.cycle := by
  unfold startStep setStep
  split <;> simp [moves]

@[simp] theorem completeStepFor_frame :
    (s.completeStepFor q).agenda = s.agenda ∧ (s.completeStepFor q).qud = s.qud ∧
    (s.completeStepFor q).commitments = s.commitments ∧ (s.completeStepFor q).pending = s.pending ∧
    (s.completeStepFor q).lastConfidence = s.lastConfidence ∧
    (s.completeStepFor q).awaitingGrounding = s.awaitingGrounding ∧
    (s.completeStepFor q).moves = s.moves ∧ (s.completeStepFor q).cycle = s.cycle := by
  unfold completeStepFor
  split <;> simp only [completeStep_frame, and_self]

@[simp] theorem startStepFor_frame :
    (s.startStepFor q).agenda = s.agenda ∧ (s.startStepFor q).qud = s.qud ∧
    (s.startStepFor q).commitments = s.commitments ∧ (s.startStepFor q).pending = s.pending ∧
    (s.startStepFor q).lastConfidence = s.lastConfidence ∧
    (s.startStepFor q).awaitingGrounding = s.awaitingGrounding ∧
    (s.startStepFor q).moves = s.moves ∧ (s.startStepFor q).cycle = s.cycle := by
  unfold startStepFor
  split <;> simp only [startStep_frame, and_self]

@[simp] theorem beginCycle_frame :
    (s.beginCycle speaker).agenda = s.agenda ∧ (s.beginCycle speaker).plan = s.plan ∧
    (s.beginCycle speaker).qud = s.qud ∧ (s.beginCycle speaker).commitments = s.commitments ∧
    (s.beginCycle speaker).pending = s.pending ∧
    (s.beginCycle speaker).lastConfidence = s.lastConfidence ∧
    (s.beginCycle speaker).moves = s.moves := by
  simp [beginCycle, moves]

@[simp] theorem setPending_frame :
    (s.setPending heard).agenda = s.agenda ∧ (s.setPending heard).plan = s.plan ∧
    (s.setPending heard).qud = s.qud ∧ (s.setPending heard).commitments = s.commitments ∧
    (s.setPending heard).lastConfidence = s.lastConfidence ∧
    (s.setPending heard).awaitingGrounding = s.awaitingGrounding ∧
    (s.setPending heard).moves = s.moves ∧ (s.setPending heard).cycle = s.cycle := by
  unfold setPending
  split <;> simp [moves]

@[simp] theorem setPending_pending_none : (s.setPending none).pending = none := by
  unfold setPending
  split
  · rename_i same
    cases waiting : s.pending <;> simp_all [samePending]
  · simp

@[simp] theorem takePending_frame :
    s.takePending.agenda = s.agenda ∧ s.takePending.plan = s.plan ∧
    s.takePending.qud = s.qud ∧ s.takePending.commitments = s.commitments ∧
    s.takePending.lastConfidence = s.lastConfidence ∧
    s.takePending.awaitingGrounding = s.awaitingGrounding ∧ s.takePending.moves = s.moves ∧
    s.takePending.cycle = s.cycle := by
  unfold takePending
  split <;> simp [moves]

@[simp] theorem takePending_pending : s.takePending.pending = none := by
  unfold takePending
  split <;> simp [*]

@[simp] theorem setConfidence_frame :
    (s.setConfidence c).agenda = s.agenda ∧ (s.setConfidence c).plan = s.plan ∧
    (s.setConfidence c).qud = s.qud ∧ (s.setConfidence c).commitments = s.commitments ∧
    (s.setConfidence c).pending = s.pending ∧
    (s.setConfidence c).awaitingGrounding = s.awaitingGrounding ∧
    (s.setConfidence c).moves = s.moves ∧ (s.setConfidence c).cycle = s.cycle := by
  unfold setConfidence
  split <;> simp [moves]

@[simp] theorem setGrounding_frame :
    (s.setGrounding flag).agenda = s.agenda ∧ (s.setGrounding flag).plan = s.plan ∧
    (s.setGrounding flag).qud = s.qud ∧ (s.setGrounding flag).commitments = s.commitments ∧
    (s.setGrounding flag).pending = s.pending ∧
    (s.setGrounding flag).lastConfidence = s.lastConfidence ∧
    (s.setGrounding flag).moves = s.moves ∧ (s.setGrounding flag).cycle = s.cycle := by
  unfold setGrounding
  split <;> simp [moves]

@[simp] theorem setGrounding_awaitingGrounding :
    (s.setGrounding flag).awaitingGrounding = flag := by
  unfold setGrounding
  split <;> simp_all

@[simp] theorem giveFloor_frame :
    (s.giveFloor speaker).agenda = s.agenda ∧ (s.giveFloor speaker).plan = s.plan ∧
    (s.giveFloor speaker).qud = s.qud ∧ (s.giveFloor speaker).commitments = s.commitments ∧
    (s.giveFloor speaker).pending = s.pending ∧
    (s.giveFloor speaker).lastConfidence = s.lastConfidence ∧
    (s.giveFloor speaker).awaitingGrounding = s.awaitingGrounding ∧
    (s.giveFloor speaker).moves = s.moves ∧ (s.giveFloor speaker).cycle = s.cycle := by
  unfold giveFloor
  split <;> simp [moves]

@[simp] theorem giveFloor_nextSpeaker : (s.giveFloor speaker).nextSpeaker = speaker := by
  unfold giveFloor
  split <;> simp_all [log]

@[simp] theorem terminate_frame :
    s.terminate.agenda = s.agenda ∧ s.terminate.plan = s.plan ∧ s.terminate.qud = s.qud ∧
    s.terminate.commitments = s.commitments ∧ s.terminate.pending = s.pending ∧
    s.terminate.lastConfidence = s.lastConfidence ∧
    s.terminate.awaitingGrounding = s.awaitingGrounding ∧ s.terminate.moves = s.moves ∧
    s.terminate.cycle = s.cycle := by
  unfold terminate
  split <;> simp [moves]

@[simp] theorem settle_frame :
    (s.settle q p).agenda = s.agenda ∧ (s.settle q p).qud = s.qud ∧
    (s.settle q p).pending = s.pending ∧ (s.settle q p).lastConfidence = s.lastConfidence ∧
    (s.settle q p).awaitingGrounding = s.awaitingGrounding ∧ (s.settle q p).moves = s.moves ∧
    (s.settle q p).cycle = s.cycle := by
  simp only [settle, completeStepFor_frame, commit_frame, and_self]

@[simp] theorem ground_frame :
    (s.ground speaker).agenda = s.agenda ∧ (s.ground speaker).plan = s.plan ∧
    (s.ground speaker).qud = s.qud ∧ (s.ground speaker).commitments = s.commitments ∧
    (s.ground speaker).pending = s.pending ∧ (s.ground speaker).lastConfidence = s.lastConfidence ∧
    (s.ground speaker).moves = s.moves ∧ (s.ground speaker).cycle = s.cycle := by
  unfold ground
  split <;> simp only [setGrounding_frame, and_self]

@[simp] theorem consume_frame :
    (s.consume m).agenda = s.agenda ∧ (s.consume m).plan = s.plan ∧ (s.consume m).qud = s.qud ∧
    (s.consume m).commitments = s.commitments ∧
    (s.consume m).awaitingGrounding = s.awaitingGrounding ∧ (s.consume m).cycle = s.cycle := by
  simp only [consume, recordMove_frame, setConfidence_frame, takePending_frame, and_self]

@[simp] theorem emit_frame :
    (s.emit m).agenda = s.agenda ∧ (s.emit m).plan = s.plan ∧ (s.emit m).qud = s.qud ∧
    (s.emit m).commitments = s.commitments ∧ (s.emit m).pending = s.pending ∧
    (s.emit m).lastConfidence = s.lastConfidence ∧ (s.emit m).cycle = s.cycle := by
  simp only [emit, recordMove_frame, setGrounding_frame, and_self]

@[simp] theorem emit_moves : (s.emit m).moves = s.moves ++ [(m, true)] := by
  simp [emit]

@[simp] theorem emit_awaitingGrounding : (s.emit m).awaitingGrounding = false := by
  simp [emit]

@[simp] theorem consume_moves : (s.consume m).moves = s.moves ++ [(m, true)] := by
  simp [consume]

@[simp] theorem consume_pending : (s.consume m).pending = none := by
  simp [consume]

@[simp] theorem settle_commitments : (s.settle q p).commitments = s.commitments.insert p := by
  simp [settle]

@[simp] theorem completeStep_plan :
    (s.completeStep id).plan = s.plan.map fun plan => plan.mark id .completed := by
  unfold completeStep setStep Plan.mark
  cases plan : s.plan with
  | none => simp [plan]
  | some p => cases set : p.setStatus? id .completed <;> simp [plan, set]

@[simp] theorem startStep_plan :
    (s.startStep id).plan = s.plan.map fun plan => plan.mark id .inProgress := by
  unfold startStep setStep Plan.mark
  cases plan : s.plan with
  | none => simp [plan]
  | some p => cases set : p.setStatus? id .inProgress <;> simp [plan, set]

@[simp] theorem completeStepFor_plan :
    (s.completeStepFor q).plan = s.plan.map fun plan => plan.markFor q .completed := by
  unfold completeStepFor stepFor? Plan.markFor
  cases plan : s.plan with
  | none => simp [plan]
  | some p => cases waits : p.stepFor? q <;> simp [plan, waits]

@[simp] theorem startStepFor_plan :
    (s.startStepFor q).plan = s.plan.map fun plan => plan.markFor q .inProgress := by
  unfold startStepFor stepFor? Plan.markFor
  cases plan : s.plan with
  | none => simp [plan]
  | some p => cases waits : p.stepFor? q <;> simp [plan, waits]

@[simp] theorem settle_plan :
    (s.settle q p).plan = s.plan.map fun plan => plan.markFor q .completed := by
  simp [settle]

theorem activePlan_eq_some : s.activePlan = some plan ↔ s.plan = some plan ∧ plan.isActive = true :=
  Option.filter_eq_some_iff

/-- Who asked a question last can be told from the moves on record. -/
theorem lastAsker_eq : s.lastAsker q = s.moves.reverse.findSome? fun x =>
    if x.1.question? = some q then some x.1.speaker else none := by
  rw [lastAsker, moves, ← List.filterMap_reverse, ← List.head?_filterMap, ← List.head?_filterMap,
    List.filterMap_filterMap]
  congr 2
  funext e
  unfold Entry.asker?
  cases e.delta <;> rfl

theorem wasAsked_iff : s.wasAsked q = true ↔ ∃ x ∈ s.moves, x.1.question? = some q := by
  simp only [wasAsked, lastAsker_eq, List.isSome_findSome?, List.any_reverse, List.any_eq_true]
  refine exists_congr fun x => and_congr_right fun _ => ?_
  split <;> simp [*]

theorem wasAsked_emit_ask : (s.emit (.ask speaker q)).wasAsked q = true :=
  wasAsked_iff.mpr ⟨(.ask speaker q, true), by simp, rfl⟩

end Dialogue.State
