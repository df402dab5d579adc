import Dialogue.Proofs.Clarification
import Dialogue.Proofs.Standing

/-!
Greetings and farewells. The system returns both by putting a move of its own on the agenda, and
puts nothing else there. What is on the agenda is said in order, one move in each cycle, except that
a cycle that clarifies leaves it as it is.
-/
namespace Dialogue

variable {d : Domain} {c : Config} {s after : State} {m : Move} {given : Option Move}

/-- The confidence that is kept of the move is below the threshold. -/
def Move.isDoubtful (c : Config) (m : Move) : Bool := m.confidence.clampUnit.lt c.threshold

theorem Move.act_of_answer? {a : Answer} (h : m.answer? = some a) : ∃ b, m.act = .answer b := by
  by_contra silent
  simp only [not_exists] at silent
  simp [Move.answer?_eq_none silent] at h

namespace State

inductive Returns (c : Config) (s : State) (given : Option Move) (t : State) : Prop
  | greeting {m : Move} (said : given = some m) (greets : m.act = .greet)
      (recorded : t.moves = s.moves ++ [(m, true)])
      (doubt : t.lastConfidence.lt c.threshold = m.isDoubtful c)
      (agenda : t.agenda = s.agenda ++ [.greet .system]) (going : t.terminated = s.terminated)
  | farewell {m : Move} (said : given = some m) (quits : m.act = .quit)
      (recorded : t.moves = s.moves ++ [(m, true)])
      (doubt : t.lastConfidence.lt c.threshold = m.isDoubtful c)
      (agenda : t.agenda = s.agenda ++ [.quit .system]) (ended : t.terminated = true)
  | nothing (plain : ∀ m, given = some m → m.act ≠ .greet ∧ m.act ≠ .quit)
      (agenda : t.agenda = s.agenda) (going : t.terminated = s.terminated)

/-- All that waits on the agenda is greetings, and a farewell once the dialogue has ended. -/
def Courteous (s : State) : Prop :=
  ∀ m ∈ s.agenda, m = .greet .system ∨ s.terminated = true ∧ m = .quit .system

theorem Courteous.question?_eq_none (h : s.Courteous) (waits : m ∈ s.agenda) :
    m.question? = none := by
  rcases h m waits with rfl | ⟨_, rfl⟩ <;> rfl

theorem Courteous.greetings (h : s.Courteous) (going : s.terminated = false) :
    ∀ m ∈ s.agenda, m = .greet .system :=
  fun m waits => (h m waits).resolve_right (by simp [going])

/-- What only greets, while it goes on or has ended just as before, stays courteous. -/
theorem Courteous.keep {t : State} (h : s.Courteous)
    (agenda : ∀ m ∈ t.agenda, m ∈ s.agenda ∨ m = .greet .system)
    (going : t.terminated = s.terminated) : t.Courteous := by
  intro m waits
  rcases agenda m waits with before | greeting
  · simpa only [going] using h m before
  · exact .inl greeting

theorem consume_doubt : (s.consume m).lastConfidence.lt c.threshold = m.isDoubtful c := by
  simp [consume, setConfidence_lt, Move.isDoubtful]

end State

theorem UpdateRule.Fires.returns {r : UpdateRule} (h : Fires d c s r after)
    (own : ∀ m, s.pending = some m → m.speaker = .user) : s.Returns c s.pending after := by
  have plain {m : Move} (pending : s.pending = some m) (act : m.act ≠ .greet ∧ m.act ≠ .quit) :
      ∀ m', s.pending = some m' → m'.act ≠ .greet ∧ m'.act ≠ .quit := by
    intro m' also
    cases pending.symm.trans also
    exact act
  cases h with
  | greeted pending _ greets =>
    exact .greeting pending greets (by simp) (by simp [State.consume_doubt]) (by simp)
      (State.terminated_of_standing (by simp))
  | parted pending _ quits =>
    exact .farewell pending quits (by simp) (by simp [State.consume_doubt]) (by simp) (by simp)
  | ended pending system => simp [own _ pending] at system
  | asked pending asks | planned pending asks =>
    exact .nothing (plain pending (by simp [Move.act_of_question? asks])) (by simp)
      (State.terminated_of_standing (by simp))
  | settled heard | narrowed heard | needed heard | issueSettled heard | issueNarrowed heard
  | buried heard | volunteered heard =>
    obtain ⟨b, act⟩ := Move.act_of_answer? heard.answers
    exact .nothing (plain heard.pending (by simp [act])) (by simp)
      (State.terminated_of_standing (by simp))
  | asserted pending act | misunderstood pending _ act | acknowledged pending _ act
  | requested pending act =>
    exact .nothing (plain pending (by simp [act])) (by simp)
      (State.terminated_of_standing (by simp))
  | downdated free | skipped free | begun free =>
    exact .nothing (by simp [free]) (by simp) (State.terminated_of_standing (by simp))

namespace State

/-- Integration returns a greeting or a farewell of the user, and does nothing to the agenda
otherwise. -/
theorem integrate_returns (free : s.pending = none)
    (own : ∀ m, given = some m → m.speaker = .user) :
    s.Returns c given (s.integrate d c given).state := by
  have waits : (s.setPending given).pending = given := setPending_of_free free
  have going : (s.setPending given).terminated = s.terminated := terminated_of_standing (by simp)
  rcases s.integrate_cases d c given with ⟨r, after, fires, outcome⟩ | ⟨idle, outcome⟩
  · simp only [outcome]
    cases fires.returns (by simpa only [waits] using own) with
    | greeting said greets recorded doubt agenda same =>
      exact .greeting (waits ▸ said) greets (by simpa using recorded) doubt (by simpa using agenda)
        (same.trans going)
    | farewell said quits recorded doubt agenda ended =>
      exact .farewell (waits ▸ said) quits (by simpa using recorded) doubt (by simpa using agenda)
        ended
    | nothing plain agenda same =>
      exact .nothing (waits ▸ plain) (by simpa using agenda) (same.trans going)
  · simp only [outcome]
    refine .nothing (fun m said => ?_) (by simp)
      ((terminated_of_standing (by simp)).trans going)
    subst said
    have unreturned : UpdateRule.runIntegrateGreet (s.setPending (some m)) = none :=
      idle .integrateGreet
    have unended : UpdateRule.runIntegrateQuit (s.setPending (some m)) = none :=
      idle .integrateQuit
    constructor <;> intro act
    · simp [UpdateRule.runIntegrateGreet, waits, own m rfl, act] at unreturned
    · simp [UpdateRule.runIntegrateQuit, waits, act] at unended

/-- A clarification says nothing from the agenda. -/
theorem select_of_unsure (unsure : s.lastConfidence.lt c.threshold = true) :
    (s.select d c).state.agenda = s.agenda ∧
      ∃ m, (s.select d c).move = some m ∧ m.act ≠ .quit := by
  rcases s.select_cases d c with ⟨r, after, m, fires, outcome⟩ | ⟨idle, _⟩
  · have clarifies := (s.select_clarifies_iff (d := d)).mpr unsure
    simp only [outcome, Selection.rule, Option.map_some, Option.some.injEq] at clarifies
    subst clarifies
    have left : after.agenda = s.agenda ∧ m.act ≠ .quit := by
      cases fires <;> simp [Move.ask, Move.feedback]
    exact ⟨by simp [outcome, left.1], m, by simp [outcome, Selection.move], left.2⟩
  · simp [(mute_of_idle idle).sure] at unsure

/-- Without a reason to clarify, the front of the agenda is said. -/
theorem select_of_sure (sure : s.lastConfidence.lt c.threshold = false) :
    (s.select d c).state.agenda = s.agenda.tail ∧
      ∀ m, s.agenda.head? = some m → (s.select d c).move = some m := by
  have quiet : SelectionRule.runClarify c s = none := by simp [SelectionRule.runClarify, sure]
  cases agenda : s.agenda with
  | nil =>
    refine ⟨?_, by simp⟩
    rcases s.select_cases d c with ⟨r, after, m, fires, outcome⟩ | ⟨_, outcome⟩
    · have same : after.agenda = [] := by
        cases fires with
        | pursued => split <;> simp [agenda]
        | _ => simp [agenda]
      simp [outcome, same]
    · simp [outcome, agenda]
  | cons first rest =>
    cases act : first.act <;>
      simp [select, SelectionRule.all, SelectionRule.run?, quiet, SelectionRule.runAsk,
        SelectionRule.runFromAgenda, SelectionRule.emitting, Move.question?, agenda, act,
        Selection.move]

/-- While something waits on the agenda, a move is said: the one in front, or a clarification. -/
theorem select_of_agenda (waits : s.agenda ≠ []) : ∃ said, (s.select d c).move = some said ∧
    (s.lastConfidence.lt c.threshold = false →
      said :: (s.select d c).state.agenda = s.agenda) ∧
    (s.lastConfidence.lt c.threshold = true →
      said.act ≠ .quit ∧ (s.select d c).state.agenda = s.agenda) := by
  obtain ⟨front, rest, agenda⟩ := List.exists_cons_of_ne_nil waits
  cases doubt : s.lastConfidence.lt c.threshold with
  | true =>
    obtain ⟨same, said, selected, other⟩ := select_of_unsure (d := d) doubt
    exact ⟨said, selected, by simp, fun _ => ⟨other, same⟩⟩
  | false =>
    obtain ⟨left, speaks⟩ := select_of_sure (d := d) doubt
    exact ⟨front, speaks front (by simp [agenda]), fun _ => by simp [left, agenda], by simp⟩

theorem select_terminated : (s.select d c).state.terminated = s.terminated := by
  rcases s.select_cases d c with ⟨r, after, m, fires, outcome⟩ | ⟨_, outcome⟩
  · simp [outcome, terminated_of_standing fires.standing]
  · simp [outcome]

theorem select_agenda_suffix : (s.select d c).state.agenda <:+ s.agenda := by
  cases unsure : s.lastConfidence.lt c.threshold with
  | true => exact (select_of_unsure unsure).1 ▸ List.suffix_refl _
  | false => exact (select_of_sure unsure).1 ▸ List.tail_suffix _

end State

theorem UpdateRule.Fires.courteous {r : UpdateRule} (h : Fires d c s r after)
    (courteous : s.Courteous) : after.Courteous := by
  cases h with
  | parted =>
    intro m waits
    simp only [State.terminate_frame, State.enqueue_agenda, State.consume_frame, List.mem_append,
      List.mem_singleton] at waits
    rcases waits with before | farewell
    · exact (courteous m before).imp_right fun ended => ⟨by simp, ended.2⟩
    · exact .inr ⟨by simp, farewell⟩
  | ended =>
    intro m waits
    exact (courteous m (by simpa using waits)).imp_right fun ended => ⟨by simp, ended.2⟩
  | _ => exact courteous.keep (by simp +contextual) (State.terminated_of_standing (by simp))

theorem Call.courteous (call : Call) (courteous : s.Courteous) : (call.run d c s).Courteous := by
  cases call with
  | integrate given =>
    rcases s.integrate_cases d c given with ⟨r, after, fires, outcome⟩ | ⟨_, outcome⟩
    · simp only [run, outcome]
      exact fires.courteous (courteous.keep (by simp +contextual)
        (State.terminated_of_standing (by simp)))
    · exact courteous.keep (by simp +contextual [run, outcome])
        (State.terminated_of_standing (by simp [run, outcome]))
  | select =>
    exact courteous.keep (fun m waits => .inl (State.select_agenda_suffix.subset waits))
      State.select_terminated
  | greet => exact courteous.keep (by simp [run]) rfl
  | beginCycle | giveFloor => exact courteous.keep (by simp +contextual [run]) (by simp [run])
  | mishear =>
    exact courteous.keep (by simp +contextual [run]) (State.terminated_of_standing (by simp [run]))

theorem State.withBeliefs_going {beliefs : OrderedMap String Value} :
    (withBeliefs beliefs).agenda = [] ∧ (withBeliefs beliefs).terminated = false ∧
      (withBeliefs beliefs).lastConfidence = .one := by
  unfold withBeliefs
  refine List.foldlRecOn (motive := fun s : State => s.agenda = [] ∧ s.terminated = false ∧
    s.lastConfidence = .one) _ _ ⟨rfl, rfl, rfl⟩ fun s h b _ => ?_
  simpa [State.believe, State.log] using h

theorem reached_courteous (d : Domain) (c : Config) (calls : List Call) :
    (reached d c calls).Courteous :=
  reached_induction (P := State.Courteous) (fun m waits => by
    simp [State.withBeliefs_going.1] at waits) (fun _ call => call.courteous) calls

end Dialogue
