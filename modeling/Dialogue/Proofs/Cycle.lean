import Dialogue.Proofs.Integration
import Dialogue.Proofs.Outcome
import Dialogue.Proofs.Selection
import Dialogue.Engine

/-!
What a cycle comes to. A cycle that is completed has integrated what was heard and selected what was
said, its record says so, and the words are those that the generator found.
-/
namespace Dialogue

/-- A record says that all four phases ran, in order, and counts the rules that it names. -/
structure CycleRecord.Complete (r : CycleRecord) : Prop where
  phases : r.phases = [.interpret, .integrate, .select, .generate]
  updateBodies : r.updateBodies = if r.updateRule.isSome then 1 else 0
  selectionBodies : r.selectionBodies = if r.selectionRule.isSome then 1 else 0

namespace Engine

/-- Integration and selection in a cycle, from the state and with the move that hearing left. -/
def develop (e : Engine) (s : State) (given : Option Move) : Integration × Selection :=
  let integrated := e.integrate s given
  (integrated, e.select integrated.state)

/-- What the generator finds for a move, if there is one: its words. -/
inductive Voices (e : Engine) (s : State) : Option Move → Option String → Prop
  | silent : Voices e s none none
  | spoken {m text} (words : e.generator m s = .done text) : Voices e s (some m) (some text)

/-- What a cycle comes to, from the state and with the move that hearing left. -/
structure Finishes (e : Engine) (s : State) (given : Option Move) (o : TurnOutcome) : Prop where
  state : o.state =
    if o.move.isNone && o.record.updateRule.isSome
    then (e.develop s given).2.state.giveFloor .system
    else (e.develop s given).2.state
  cycle : o.record.cycle = s.cycle
  complete : o.record.Complete
  updateRule : o.record.updateRule = (e.develop s given).1.rule
  selectionRule : o.record.selectionRule = (e.develop s given).2.rule
  diagnostics : ∃ heard, o.record.diagnostics =
    heard ++ (e.develop s given).1.diagnostics ++ (e.develop s given).2.diagnostics
  move : o.move = (e.develop s given).2.move
  voiced : e.Voices o.state o.move o.utterance

variable {e : Engine} {s : State} {given : Option Move} {record : CycleRecord} {o : TurnOutcome}
  {utterance : String}

theorem generate_eq_ok {m : Move} {text : String} (done : e.generate m s = .ok text) :
    e.generator m s = .done text := by
  unfold generate at done
  split at done
  · rename_i said
    cases done
    exact said
  · cases done
  · cases done

theorem voices_of_generate {m : Option Move} {words : Option String}
    (done : m.mapM (e.generate · s) = .ok words) : e.Voices s m words := by
  cases m with
  | none =>
    cases done
    exact .silent
  | some m =>
    obtain ⟨text, generated, wrapped⟩ := bind_eq_ok.mp done
    cases wrapped
    exact .spoken (generate_eq_ok generated)

/-- Where the record has been begun for the cycle, it is complete in the end. -/
theorem finishCycle_eq_ok (cycle : record.cycle = s.cycle) (phases : record.phases = [.interpret])
    (done : e.finishCycle s given record = .ok o) : e.Finishes s given o := by
  obtain ⟨words, generated, outcome⟩ := bind_eq_ok.mp done
  cases outcome
  exact {
    state := rfl
    cycle
    complete := {
      phases := congrArg (· ++ [.integrate] ++ [.select] ++ [.generate]) phases
      updateBodies := State.integrate_bodies
      selectionBodies := State.select_bodies }
    updateRule := rfl
    selectionRule := rfl
    diagnostics := ⟨record.diagnostics, rfl⟩
    move := rfl
    voiced := voices_of_generate generated }

/-- A cycle is completed if the generator has words for the move selected. -/
theorem finishCycle_ok
    (speaks : ∀ m, (e.develop s given).2.move = some m →
      ∀ s, ∃ text, e.generator m s = .done text) :
    ∃ o, e.finishCycle s given record = .ok o := by
  unfold finishCycle
  simp only [develop] at speaks
  cases move : (e.select (e.integrate s given).state).move with
  | none => exact ⟨_, by simp only [move]; rfl⟩
  | some m =>
    obtain ⟨text, words⟩ := speaks m move (e.select (e.integrate s given).state).state
    exact ⟨_, by
      simp only [move, Option.isNone_some, Bool.false_and, Bool.false_eq_true, if_false,
        Option.mapM_some, generate, words]
      rfl⟩

/-- A move that is made comes with words. -/
theorem Finishes.said (h : e.Finishes s given o) : o.said.map (·.1) = o.move := by
  obtain ⟨state, record, move, words⟩ := o
  have voiced : e.Voices state move words := h.voiced
  cases voiced <;> rfl

theorem interpret_eq_ok {h : Interpretation} (done : e.interpret utterance s = .ok h) :
    (∃ m, e.interpreter utterance s = .done m ∧ h = ⟨some { m with speaker := .user }, none⟩) ∨
      ∃ reason, e.interpreter utterance s = .failed (.interpretation reason) ∧
        h = ⟨none, some (.interpretationFailed reason)⟩ := by
  unfold interpret at done
  split at done
  · rename_i m answer
    cases done
    exact .inl ⟨m, answer, rfl⟩
  · rename_i reason answer
    cases done
    exact .inr ⟨reason, answer, rfl⟩
  · cases done
  · cases done

def attentive (s : State) (h : Interpretation) : State :=
  if h.diagnostic.isSome then (s.beginCycle .user).setConfidence .zero else s.beginCycle .user

theorem turn_eq_ok (done : e.turn s utterance = .ok o) :
    ∃ h, e.interpret utterance (s.beginCycle .user) = .ok h ∧
      e.Finishes (attentive s h) h.move o := by
  unfold turn at done
  split at done
  · cases done
  · obtain ⟨h, heard, rest⟩ := bind_eq_ok.mp done
    have cycle : (attentive s h).cycle = (s.beginCycle .user).cycle := by
      unfold attentive
      split <;> simp
    exact ⟨h, heard, finishCycle_eq_ok cycle.symm rfl rest⟩

theorem tick_eq_ok (done : e.tick s = .ok o) : e.Finishes (s.beginCycle .system) none o :=
  finishCycle_eq_ok rfl rfl done

end Engine
end Dialogue
