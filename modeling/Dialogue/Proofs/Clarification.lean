import Dialogue.Proofs.Confidence
import Dialogue.Proofs.Exchange

/-!
What the user gets in return. A turn that was not understood is clarified, and only such a turn, and
few contributions are taken without a word. So nothing of a cycle is left to the next one: no move
waits, no contribution is still to be grounded, and the confidence does not ask for a clarification.
-/
namespace Dialogue

/-- A contribution that may be taken without a word. A question or a task changes what the system is
about to do, and what was acknowledged needs no answer. -/
def Move.NeedsNoReply (m : Move) : Prop :=
  (∃ q, m.act = .ask q) ∨ (∃ task, m.act = .request task) ∨ m.act = .feedback .acknowledge

namespace UpdateRule

variable {d : Domain} {c : Config} {s after : State} {r : UpdateRule} {m : Move}

/-- A move that a rule takes makes the state uncertain if it is uncertain itself, or tells that the
user has not understood. -/
theorem Fires.unsure_iff (valid : c.validate = .ok ())
    (positive : Binary32.zero.lt c.threshold = true) (h : Fires d c s r after)
    (waits : s.pending = some m) : after.lastConfidence.lt c.threshold = true ↔
      m.confidence.lt c.threshold = true ∨ m.act = .feedback .notUnderstood := by
  have clamped (x : Binary32) : x.clampUnit.lt c.threshold = x.lt c.threshold :=
    Binary32.clampUnit_lt positive (Config.threshold_le_one valid)
  have consumed : (s.consume m).lastConfidence.lt c.threshold = m.confidence.lt c.threshold := by
    simp only [State.consume, State.recordMove_frame, State.setConfidence_lt, clamped]
  have answers {a : Answer} (heard : s.Heard c m a) : m.act ≠ .feedback .notUnderstood := by
    intro tells
    simpa [Move.answer?, tells] using heard.answers
  have asks {q : Question} (question : m.question? = some q) :
      m.act ≠ .feedback .notUnderstood := by
    intro tells
    simp [Move.question?, tells] at question
  cases h with
  | settled heard | narrowed heard | needed heard | issueSettled heard | issueNarrowed heard
  | buried heard | volunteered heard =>
    cases waits.symm.trans heard.pending
    simp [consumed, answers heard]
  | asked pending question | planned pending question =>
    cases waits.symm.trans pending
    simp [consumed, asks question]
  | asserted pending act | requested pending act | greeted pending _ act | parted pending _ act
  | ended pending _ act | acknowledged pending _ act =>
    cases waits.symm.trans pending
    simp [consumed, act]
  | misunderstood pending _ act =>
    cases waits.symm.trans pending
    simp [State.setConfidence_lt, clamped, positive, act]
  | downdated free | skipped free | begun free => simp [waits] at free

/-- Taking a contribution of the user leaves something to be said, with few exceptions. -/
theorem Fires.leaves_reply (h : Fires d c s r after) (waits : s.pending = some m)
    (user : m.speaker = .user) : after.awaitingGrounding = true ∨ after.agenda ≠ [] ∨
      m.act = .feedback .notUnderstood ∨ m.NeedsNoReply := by
  cases h with
  | settled heard | narrowed heard | needed heard | issueSettled heard | issueNarrowed heard
  | buried heard | volunteered heard =>
    cases waits.symm.trans heard.pending
    exact .inl (by simp [State.ground, user])
  | asserted pending =>
    cases waits.symm.trans pending
    exact .inl (by simp [State.ground, user])
  | greeted | parted => exact .inr (.inl (by simp))
  | ended pending system =>
    cases waits.symm.trans pending
    simp [user] at system
  | misunderstood pending _ act =>
    cases waits.symm.trans pending
    exact .inr (.inr (.inl act))
  | asked pending asks | planned pending asks =>
    cases waits.symm.trans pending
    refine .inr (.inr (.inr (.inl ?_)))
    unfold Move.question? at asks
    split at asks
    · rename_i q act
      exact ⟨q, act⟩
    · contradiction
  | requested pending act =>
    cases waits.symm.trans pending
    exact .inr (.inr (.inr (.inr (.inl ⟨_, act⟩))))
  | acknowledged pending _ act =>
    cases waits.symm.trans pending
    exact .inr (.inr (.inr (.inr (.inr act))))
  | downdated free | skipped free | begun free => simp [waits] at free

end UpdateRule

namespace State

variable {d : Domain} {c : Config} {s : State} {m : Move}

/-- The move that waits has the same speaker, act, reference and certainty as the one given. -/
theorem setPending_some (s : State) (m : Move) : ∃ waiting,
    (s.setPending (some m)).pending = some waiting ∧ waiting.speaker = m.speaker ∧
      waiting.act = m.act ∧ waiting.addresses = m.addresses ∧
      ∀ t, waiting.confidence.lt t = m.confidence.lt t := by
  have waits : (s.setPending (some m)).pending = some m ∨ _ := setPending_pending
  rcases waits with given | ⟨_, same⟩
  · exact ⟨m, given, rfl, rfl, rfl, fun _ => rfl⟩
  · cases pending : (s.setPending (some m)).pending with
    | none => simp [pending, samePending] at same
    | some waiting =>
      simp only [pending, samePending, Move.agrees, Bool.and_eq_true, decide_eq_true_eq] at same
      obtain ⟨⟨⟨speaker, act⟩, addresses⟩, confidence⟩ := same
      exact ⟨waiting, rfl, speaker, act, addresses, fun _ => Binary32.lt_congr confidence⟩

/-- Without a move, integration leaves the confidence as it is. -/
theorem integrate_none_lastConfidence :
    (s.integrate d c none).state.lastConfidence = s.lastConfidence := by
  rcases s.integrate_cases d c none with ⟨r, after, fires, outcome⟩ | ⟨_, outcome⟩
  · have free : (s.setPending none).pending = none := setPending_pending_none
    have same : after.lastConfidence = (s.setPending none).lastConfidence := by
      cases fires.tidies free <;> simp
    simp [outcome, same]
  · simp [outcome, abandonPending_of_none]

/-- When integration of a move leaves an uncertain state. -/
theorem integrate_unsure_iff (valid : c.validate = .ok ())
    (positive : Binary32.zero.lt c.threshold = true) :
    (s.integrate d c (some m)).state.lastConfidence.lt c.threshold = true ↔
      (s.integrate d c (some m)).rule = none ∨ m.confidence.lt c.threshold = true ∨
        (s.integrate d c (some m)).rule.isSome = true ∧ m.act = .feedback .notUnderstood := by
  obtain ⟨waiting, waits, -, act, -, certainty⟩ := s.setPending_some m
  rcases s.integrate_cases d c (some m) with ⟨r, after, fires, outcome⟩ | ⟨_, outcome⟩
  · simp [outcome, fires.unsure_iff valid positive waits, act, certainty]
  · have dropped : Binary32.zero.clampUnit = .zero := by decide
    simp [outcome, abandonPending, waits, setConfidence_lt, dropped, positive]

theorem integrate_leaves_reply (taken : (s.integrate d c (some m)).rule.isSome = true)
    (user : m.speaker = .user) : (s.integrate d c (some m)).state.awaitingGrounding = true ∨
      (s.integrate d c (some m)).state.agenda ≠ [] ∨ m.act = .feedback .notUnderstood ∨
      m.NeedsNoReply := by
  obtain ⟨waiting, waits, speaker, act, -⟩ := s.setPending_some m
  rcases s.integrate_cases d c (some m) with ⟨r, after, fires, outcome⟩ | ⟨_, outcome⟩
  · simpa only [outcome, Move.NeedsNoReply, act] using
      fires.leaves_reply waits (speaker.trans user)
  · simp [outcome] at taken

theorem select_clarifies_iff :
    (s.select d c).rule = some .clarify ↔ s.lastConfidence.lt c.threshold = true := by
  constructor
  · intro clarifies
    rcases s.select_cases d c with ⟨r, after, m, fires, outcome⟩ | ⟨_, outcome⟩
    · simp only [outcome, Selection.rule, Option.map_some, Option.some.injEq] at clarifies
      subst clarifies
      cases fires with
      | repeated unsure | confused unsure => exact unsure
    · simp [outcome, Selection.rule] at clarifies
  · intro unsure
    rw [← SelectionRule.runClarify_isSome] at unsure
    obtain ⟨_, clarifies⟩ := Option.isSome_iff_exists.mp unsure
    simp [select, SelectionRule.all, SelectionRule.run?, clarifies, Selection.rule]

/-- Nothing is left to the next cycle. -/
structure Clear (c : Config) (s : State) : Prop where
  free : s.pending = none
  grounded : s.awaitingGrounding = false
  sure : s.lastConfidence.lt c.threshold = false

theorem select_clear (valid : c.validate = .ok ()) (free : s.pending = none) :
    (s.select d c).state.Clear c := by
  have certain : Binary32.one.clampUnit.lt c.threshold = false :=
    Binary32.clampUnit_not_lt (Config.threshold_le_one valid)
      (Binary32.not_lt_of_le (Config.threshold_le_one valid))
  rcases s.select_cases d c with ⟨r, after, m, fires, outcome⟩ | ⟨idle, outcome⟩
  · refine ⟨by simp [free], by simp [outcome, fires.recorded.2], ?_⟩
    by_cases clarify : r = .clarify
    · subst clarify
      cases fires with
      | repeated | confused => simp [outcome, setConfidence_lt, certain]
    · -- Any other rule fires only where there is no reason to clarify.
      have sure : s.lastConfidence.lt c.threshold = false := by
        have clarifies := s.select_clarifies_iff (d := d) (c := c)
        simpa [outcome, Selection.rule, clarify] using clarifies
      have same : after.lastConfidence = s.lastConfidence := by
        cases fires with
        | repeated | confused => contradiction
        | pursued => split <;> simp
        | _ => simp
      simp [outcome, same, sure]
  · have mute := mute_of_idle idle
    exact ⟨by simp [free], by simp [outcome, mute.grounded], by simp [outcome, mute.sure]⟩

end State

namespace Engine

variable {e : Engine} {s : State} {given : Option Move} {o : TurnOutcome} {utterance : String}

theorem Finishes.clear (valid : e.config.validate = .ok ()) (h : e.Finishes s given o) :
    o.state.Clear e.config := by
  have selected : (e.develop s given).2.state.Clear e.config :=
    State.select_clear valid (by simp [integrate])
  rw [h.state]
  split
  · exact ⟨by simp [selected.free], by simp [selected.grounded], by simp [selected.sure]⟩
  · exact selected

structure Attended (e : Engine) (s : State) (utterance : String) (o : TurnOutcome) : Prop where
  /-- The system clarifies if and only if the utterance was not interpreted, or no rule took the
  move, or the move was uncertain, or the user has not understood. -/
  clarifies : o.record.selectionRule = some .clarify ↔
    (∃ reason, e.interpreter utterance (s.beginCycle .user) = .failed (.interpretation reason)) ∨
    ∃ m, e.interpreter utterance (s.beginCycle .user) = .done m ∧
      (o.record.updateRule = none ∨ m.confidence.lt e.config.threshold = true ∨
        o.record.updateRule.isSome = true ∧ m.act = .feedback .notUnderstood)
  /-- The system says something, unless a rule took a move that needs no reply. -/
  silent : o.move = none → ∃ m, e.interpreter utterance (s.beginCycle .user) = .done m ∧
    o.record.updateRule.isSome = true ∧ m.NeedsNoReply
  clear : o.state.Clear e.config

/-- An utterance that is not interpreted is clarified, whatever housekeeping is done before. -/
theorem misheard_clarifies (positive : Binary32.zero.lt e.config.threshold = true)
    {h : Interpretation} (misheard : h.diagnostic.isSome = true) (nothing : h.move = none)
    (finishes : e.Finishes (attentive s h) h.move o) : o.record.selectionRule = some .clarify := by
  have dropped : Binary32.zero.clampUnit = .zero := by decide
  have unsure : (attentive s h).lastConfidence.lt e.config.threshold = true := by
    simp only [attentive, misheard, if_true, State.setConfidence_lt, dropped, positive]
  rw [nothing] at finishes
  refine finishes.selectionRule.trans (State.select_clarifies_iff.mpr ?_)
  simpa only [integrate, State.integrate_none_lastConfidence] using unsure

theorem Finishes.mute (h : e.Finishes s given o) (silent : o.move = none) :
    (e.integrate s given).state.Mute e.config ∧ o.record.selectionRule = none := by
  have nothing : (e.develop s given).2.move = none := h.move.symm.trans silent
  rw [h.selectionRule]
  rcases (e.integrate s given).state.select_cases e.domain e.config with
    ⟨r, after, m, fires, outcome⟩ | ⟨idle, outcome⟩
  · simp [develop, select, outcome, Selection.move] at nothing
  · exact ⟨State.mute_of_idle idle, by simp [develop, select, outcome, Selection.rule]⟩

theorem turn_attended (valid : e.config.validate = .ok ())
    (positive : Binary32.zero.lt e.config.threshold = true) (done : e.turn s utterance = .ok o) :
    e.Attended s utterance o := by
  obtain ⟨h, hears, finishes⟩ := turn_eq_ok done
  rcases interpret_eq_ok hears with ⟨m, answer, rfl⟩ | ⟨reason, answer, rfl⟩
  · have clarifies : o.record.selectionRule = some .clarify ↔ o.record.updateRule = none ∨
        m.confidence.lt e.config.threshold = true ∨
          o.record.updateRule.isSome = true ∧ m.act = .feedback .notUnderstood := by
      rw [finishes.selectionRule, finishes.updateRule]
      exact State.select_clarifies_iff.trans (State.integrate_unsure_iff valid positive)
    refine ⟨by simpa [answer] using clarifies, fun silent => ?_, finishes.clear valid⟩
    obtain ⟨mute, unselected⟩ := finishes.mute silent
    obtain ⟨taken, -, understood⟩ : o.record.updateRule.isSome = true ∧
        m.confidence.lt e.config.threshold = false ∧ m.act ≠ .feedback .notUnderstood := by
      cases rule : o.record.updateRule <;> simp_all
    refine ⟨m, answer, taken, ?_⟩
    rw [finishes.updateRule] at taken
    rcases State.integrate_leaves_reply taken rfl with awaited | waiting | tells | curt
    · cases awaited.symm.trans mute.grounded
    · exact absurd mute.empty waiting
    · exact absurd tells understood
    · exact curt
  · have clarifies := misheard_clarifies positive rfl rfl finishes
    refine ⟨by simp [answer, clarifies], fun silent => ?_, finishes.clear valid⟩
    simp [(finishes.mute silent).2] at clarifies

/-- No contribution of the user meets silence but those that need no reply, and the system clarifies
exactly where it has to. After a turn or a tick nothing is left to the next cycle. -/
theorem user_attended (valid : e.config.validate = .ok ())
    (positive : Binary32.zero.lt e.config.threshold = true) :
    (∀ s utterance o, e.turn s utterance = .ok o → e.Attended s utterance o) ∧
      ∀ s o, e.tick s = .ok o → o.state.Clear e.config :=
  ⟨fun _ _ _ => turn_attended valid positive, fun _ _ done => (tick_eq_ok done).clear valid⟩

def perplexed : Engine :=
  { obliging with interpreter := fun _ _ => .failed (.interpretation "noise") }

/-- Also when the system has asked its question, what is not understood is clarified. -/
theorem perplexed_clarifies : perplexed.config.validate = .ok () ∧
    Binary32.zero.lt perplexed.config.threshold = true ∧
    ∃ o, perplexed.turn (reached errand {} errandAsked) "post" = .ok o ∧
      o.record.selectionRule = some .clarify ∧ o.move.isSome = true ∧
      o.state.Clear perplexed.config := by
  obtain ⟨o, done⟩ : ∃ o, perplexed.turn (reached errand {} errandAsked) "post" = .ok o :=
    ⟨_, rfl⟩
  have valid : perplexed.config.validate = .ok () := rfl
  have positive : Binary32.zero.lt perplexed.config.threshold = true := by decide
  have attended := (user_attended valid positive).1 _ _ _ done
  refine ⟨valid, positive, o, done, attended.clarifies.mpr (.inl ⟨_, rfl⟩), ?_, attended.clear⟩
  by_contra silent
  obtain ⟨m, understood, -⟩ := attended.silent (by simpa using silent)
  contradiction

end Engine
end Dialogue
