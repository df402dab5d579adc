import Dialogue.Proofs.Confidence
import Dialogue.Proofs.Discussion

/-!
What becomes of a move that no rule takes. It drops the confidence and is recorded as not
integrated. The record shows that its speaker asked a question aloud, if it did, whether or not the
move was integrated; but for this it has no influence on what the system says next.
-/
namespace Dialogue

namespace State

/-- Two states in which selection goes by the same. Of the history only the last asker of the
topmost question counts. -/
structure Alike (s t : State) : Prop where
  agenda : t.agenda = s.agenda
  plan : t.plan = s.plan
  qud : t.qud = s.qud
  commitments : t.commitments = s.commitments
  beliefs : t.beliefs = s.beliefs
  lastConfidence : t.lastConfidence = s.lastConfidence
  awaitingGrounding : t.awaitingGrounding = s.awaitingGrounding
  asker : ∀ q, s.top = some q → t.lastAsker q = s.lastAsker q

end State

namespace SelectionRule

variable {d : Domain} {c : Config} {s t : State}

theorem runClarify_alike (alike : s.Alike t) :
    (runClarify c t).map Prod.snd = (runClarify c s).map Prod.snd := by
  simp only [runClarify, emitting, alike.lastConfidence, State.top, State.setConfidence_frame,
    alike.qud]
  cases unsure : s.lastConfidence.lt c.threshold with
  | false => simp
  | true =>
    cases top : s.qud.head? with
    | none => simp
    | some q =>
      have asker := alike.asker q top
      simp only [State.lastAsker_eq] at asker
      simp only [State.lastAsker_eq, State.setConfidence_frame, asker]
      split <;> simp

theorem runAsk_alike (alike : s.Alike t) : (runAsk t).map Prod.snd = (runAsk s).map Prod.snd := by
  simp only [runAsk, emitting, alike.agenda, Option.bind_eq_bind, Option.map_bind,
    Function.comp_def, Option.pure_def, Option.map_some]

theorem runFromAgenda_alike (alike : s.Alike t) :
    (runFromAgenda t).map Prod.snd = (runFromAgenda s).map Prod.snd := by
  simp only [runFromAgenda, emitting, alike.agenda, Option.bind_eq_bind, Option.map_bind,
    Function.comp_def, Option.pure_def]
  congr 1
  funext m
  cases m.act <;> rfl

theorem runRaiseQuestion_alike (alike : s.Alike t) :
    (runRaiseQuestion t).map Prod.snd = (runRaiseQuestion s).map Prod.snd := by
  simp only [runRaiseQuestion, emitting, State.top, alike.qud, State.wasAsked, State.stepFor?,
    alike.plan, alike.commitments]
  cases top : s.qud.head? with
  | none => rfl
  | some q =>
    simp only [Option.bind_eq_bind, Option.bind_some, Option.map_bind, alike.asker q top]
    congr 1
    funext _
    simp only [Function.comp_def]
    split <;> rfl

theorem runFromPlan_alike (alike : s.Alike t) :
    (runFromPlan t).map Prod.snd = (runFromPlan s).map Prod.snd := by
  simp only [runFromPlan, emitting, State.activePlan, alike.agenda, alike.plan, alike.qud,
    alike.commitments, Option.bind_eq_bind, Option.map_bind, Function.comp_def, Option.pure_def]
  congr 1
  funext _
  congr 1
  funext plan
  congr 1
  funext _
  congr 1
  funext step
  split <;> simp [Option.map_bind]

theorem runAnswer_alike (alike : s.Alike t) :
    (runAnswer d t).map Prod.snd = (runAnswer d s).map Prod.snd := by
  simp only [runAnswer, emitting, State.top, alike.qud, alike.commitments, alike.beliefs]
  cases top : s.qud.head? with
  | none => rfl
  | some q =>
    simp only [Option.bind_eq_bind, Option.bind_some, Option.map_bind, Function.comp_def,
      Option.pure_def, Option.map_some, alike.asker q top]

theorem runGrounding_alike (alike : s.Alike t) :
    (runGrounding t).map Prod.snd = (runGrounding s).map Prod.snd := by
  simp only [runGrounding, emitting, alike.awaitingGrounding, Option.bind_eq_bind, Option.map_bind,
    Function.comp_def, Option.pure_def, Option.map_some]

/-- A rule applies in both of two states that are alike or in neither, with the same move. -/
theorem run?_alike (alike : s.Alike t) (r : SelectionRule) :
    (r.run? d c t).map Prod.snd = (r.run? d c s).map Prod.snd := by
  cases r with
  | clarify => exact runClarify_alike alike
  | ask => exact runAsk_alike alike
  | fromAgenda => exact runFromAgenda_alike alike
  | raiseQuestion => exact runRaiseQuestion_alike alike
  | fromPlan => exact runFromPlan_alike alike
  | answer => exact runAnswer_alike alike
  | grounding => exact runGrounding_alike alike

end SelectionRule

namespace State

variable {d : Domain} {c : Config} {s t : State} {m : Move} {q : Question}

theorem chosen_eq (d : Domain) (c : Config) (s : State) : (s.select d c).chosen =
    SelectionRule.all.findSome? fun r => ((r.run? d c s).map Prod.snd).map (r, ·) := by
  have outcomes : (fun r : SelectionRule => ((r.run? d c s).map Prod.snd).map (r, ·)) =
      Option.map (fun x => (x.1, x.2.2)) ∘ fun r => (r.run? d c s).map (r, ·) := by
    funext r
    simp [Function.comp_def]
  rw [outcomes, ← List.map_findSome?]
  unfold select
  split <;> simp [*]

/-- In two states that are alike the same rule selects the same move. -/
theorem Alike.chosen (alike : s.Alike t) : (t.select d c).chosen = (s.select d c).chosen := by
  simp only [chosen_eq, SelectionRule.run?_alike alike]

@[simp] theorem setPending_beliefs {given : Option Move} :
    (s.setPending given).beliefs = s.beliefs := by
  unfold setPending
  split <;> rfl

@[simp] theorem takePending_beliefs : s.takePending.beliefs = s.beliefs := by
  unfold takePending
  split <;> rfl

@[simp] theorem setConfidence_beliefs {x : Binary32} :
    (s.setConfidence x).beliefs = s.beliefs := by
  unfold setConfidence
  split <;> rfl

@[simp] theorem recordMove_beliefs {integrated : Bool} :
    (s.recordMove m integrated).beliefs = s.beliefs := rfl

theorem setConfidence_lastConfidence {x : Binary32} (same : s.lastConfidence = t.lastConfidence) :
    (s.setConfidence x).lastConfidence = (t.setConfidence x).lastConfidence := by
  unfold setConfidence
  rw [same]
  split <;> simp [same]

/-- Whoever asks a question aloud is its last asker from then on, integrated or not. -/
theorem lastAsker_of_moves {integrated : Bool} (recorded : t.moves = s.moves ++ [(m, integrated)]) :
    t.lastAsker q = if m.question? = some q then some m.speaker else s.lastAsker q := by
  simp only [lastAsker_eq, recorded, List.reverse_append, List.reverse_singleton,
    List.singleton_append, List.findSome?_cons]
  split <;> simp_all

/-- A move that no rule takes drops the confidence and is recorded as not integrated. -/
theorem integrate_unheard (free : s.pending = none)
    (idle : (s.integrate d c (some m)).rule = none) :
    (s.integrate d c (some m)).state =
        ((s.setPending (some m)).takePending.setConfidence .zero).recordMove m false ∧
      ∀ r : UpdateRule, r.run? d c (s.setPending (some m)) = none := by
  have waits : (s.setPending (some m)).pending = some m := setPending_of_free free
  rcases s.integrate_cases d c (some m) with ⟨r, after, _, outcome⟩ | ⟨none, outcome⟩
  · simp [outcome] at idle
  · exact ⟨by simp only [outcome, abandonPending, waits], none⟩

/-- An ask that no rule takes is not sure enough. -/
theorem unsure_of_unheard (free : s.pending = none)
    (idle : (s.integrate d c (some m)).rule = none) (asks : m.question? = some q) :
    c.threshold.le m.confidence = false := by
  have refused : UpdateRule.runIntegrateAsk d c (s.setPending (some m)) = none :=
    (integrate_unheard free idle).2 .integrateAsk
  have waits : (s.setPending (some m)).pending = some m := setPending_of_free free
  simp only [UpdateRule.runIntegrateAsk, waits, asks, Option.bind_eq_bind, Option.bind_some]
    at refused
  cases sure : c.threshold.le m.confidence with
  | false => rfl
  | true =>
    simp only [sure, guard_true, Option.pure_def, Option.bind_some] at refused
    split at refused
    · split at refused <;> contradiction
    · contradiction

/-- For selection, an unheard move does no more than a drop of the confidence and a move on record,
whether integrated or not. -/
theorem alike_unheard (free : s.pending = none) (idle : (s.integrate d c (some m)).rule = none)
    (integrated : Bool) :
    ((s.setConfidence .zero).recordMove m integrated).Alike (s.integrate d c (some m)).state := by
  rw [(integrate_unheard free idle).1]
  refine ⟨by simp, by simp, by simp, by simp, by simp, ?_, by simp, fun q _ => ?_⟩
  · simpa using setConfidence_lastConfidence (by simp)
  · rw [lastAsker_of_moves recordMove_moves, lastAsker_of_moves recordMove_moves]
    simp [lastAsker_eq]

/-- What is left of a move that no rule took, in the state `t` after it, seen from the state `s`
before it with the confidence dropped. -/
structure OnRecord (d : Domain) (c : Config) (s : State) (m : Move) (t : State) : Prop where
  /-- It makes no difference to who asked a question that it does not ask. -/
  others : ∀ q, m.question? ≠ some q →
    t.lastAsker q = s.lastAsker q ∧ t.wasAsked q = s.wasAsked q
  /-- If it asks a question, it was not sure enough, and it is on record that its speaker asked. -/
  asked : ∀ q, m.question? = some q →
    c.threshold.le m.confidence = false ∧ t.lastAsker q = some m.speaker
  /-- Selection does what it does when the move is put on record and nothing else happens. -/
  recorded : ∀ integrated, (t.select d c).chosen = ((s.recordMove m integrated).select d c).chosen
  /-- Not even the record matters, unless the move asks the topmost question, and another party or
  nobody asked it last. -/
  unnoticed : (∀ q, s.top = some q → m.question? = some q → s.lastAsker q = some m.speaker) →
    (t.select d c).chosen = (s.select d c).chosen
  /-- A clarification after an ask of the topmost question leaves that question to a user. -/
  clarified : Binary32.zero.lt c.threshold = true → ∀ q, s.top = some q → m.question? = some q →
    (t.select d c).chosen = some (.clarify,
      if m.speaker = .user then .feedback .system .notUnderstood else .ask .system q)

theorem chosen_of_unsure (unsure : s.lastConfidence.lt c.threshold = true) (top : s.top = some q) :
    (s.select d c).chosen = some (.clarify,
      if s.lastAsker q = some .user then .feedback .system .notUnderstood else .ask .system q) := by
  have head : s.qud.head? = some q := top
  have asker : (s.setConfidence .one).lastAsker q = s.lastAsker q := by simp [lastAsker_eq]
  have clarifies : (SelectionRule.runClarify c s).map Prod.snd = some
      (if s.lastAsker q = some .user then .feedback .system .notUnderstood
        else .ask .system q) := by
    simp only [SelectionRule.runClarify, unsure, State.top, setConfidence_frame, head, asker]
    split <;> simp [SelectionRule.emitting, *]
  simp only [chosen_eq, SelectionRule.all, List.findSome?_cons, SelectionRule.run?, clarifies,
    Option.map_some]

end State

/-- A move that no rule takes matters to selection by the drop of the confidence, and beyond that
only by being on record: whose the topmost question is goes by who asked it aloud last, heard for
sure or not. -/
theorem unheard_move_on_record (d : Domain) (c : Config) (s : State) (m : Move)
    (free : s.pending = none) (idle : (s.integrate d c (some m)).rule = none) :
    (s.setConfidence .zero).OnRecord d c m (s.integrate d c (some m)).state where
  others q apart := by
    have asker : (s.integrate d c (some m)).state.lastAsker q =
        (s.setConfidence .zero).lastAsker q := by
      rw [(State.integrate_unheard free idle).1, State.lastAsker_of_moves State.recordMove_moves]
      simp [apart, State.lastAsker_eq]
    exact ⟨asker, by simp only [State.wasAsked, asker]⟩
  asked q asks := by
    refine ⟨State.unsure_of_unheard free idle asks, ?_⟩
    rw [(State.integrate_unheard free idle).1, State.lastAsker_of_moves State.recordMove_moves]
    simp [asks]
  recorded integrated := (State.alike_unheard free idle integrated).chosen
  unnoticed same := by
    rw [(State.alike_unheard free idle false).chosen]
    refine State.Alike.chosen ⟨rfl, rfl, rfl, rfl, rfl, rfl, rfl, fun q top => ?_⟩
    rw [State.lastAsker_of_moves State.recordMove_moves]
    split
    · rename_i asks
      exact (same q top asks).symm
    · rfl
  clarified positive q top asks := by
    have alike := State.alike_unheard (d := d) (c := c) free idle false
    rw [alike.chosen, State.chosen_of_unsure (q := q)]
    · rw [State.lastAsker_of_moves State.recordMove_moves]
      simp [asks]
    · have kept : Binary32.zero.clampUnit = .zero := by decide
      simpa only [State.recordMove_frame, State.setConfidence_lt, kept] using positive
    · simpa [State.top] using top

/-- A move that is hard to understand. -/
def Move.mumbled (m : Move) : Move := m.withConfidence ⟨0x3E99999A⟩

theorem mumbled_answer_on_record :
    (reached errand {} errandAsked).pending = none ∧
      ((reached errand {} errandAsked).integrate errand {} (some sayYes.mumbled)).rule = none ∧
      (((reached errand {} errandAsked).integrate errand {} (some sayYes.mumbled)).state.select
          errand {}).chosen =
        (((reached errand {} errandAsked).setConfidence .zero).select errand {}).chosen := by
  have free : (reached errand {} errandAsked).pending = none := by decide +kernel
  have idle : ((reached errand {} errandAsked).integrate errand {} (some sayYes.mumbled)).rule =
      none := by
    decide +kernel
  have silent : sayYes.mumbled.question? = none := rfl
  exact ⟨free, idle, (unheard_move_on_record errand {} _ _ free idle).unnoticed
    fun q _ asks => by simp [silent] at asks⟩

/-- The user asks back what the system has asked, and is hard to understand. -/
def lateMumbled : Move := (Move.ask .user (.yesNo "late")).mumbled

/-- An unheard move can do more than drop the confidence. The topmost question, which the system
asked, passes to the user who asked it without being understood, and is not asked again. -/
theorem mumbled_ask_noticed :
    (reached errand {} errandAsked).pending = none ∧ (({} : Config).validate = .ok ()) ∧
      ((reached errand {} errandAsked).integrate errand {} (some lateMumbled)).rule = none ∧
      ((reached errand {} errandAsked).setConfidence .zero).lastAsker (.yesNo "late") =
        some .system ∧
      ((reached errand {} errandAsked).integrate errand {} (some lateMumbled)).state.lastAsker
        (.yesNo "late") = some .user ∧
      (((reached errand {} errandAsked).setConfidence .zero).select errand {}).chosen =
        some (.clarify, .ask .system (.yesNo "late")) ∧
      (((reached errand {} errandAsked).integrate errand {} (some lateMumbled)).state.select
          errand {}).chosen =
        some (.clarify, .feedback .system .notUnderstood) := by
  have valid : ({} : Config).validate = .ok () := rfl
  exact ⟨by decide +kernel, valid, by decide +kernel⟩

end Dialogue
