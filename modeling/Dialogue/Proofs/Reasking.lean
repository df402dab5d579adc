import Dialogue.Proofs.Visit
import Dialogue.Proofs.Voicing

/-!
Questions that are settled. The system asks one of them only to clarify an uncertain turn: it
repeats the topmost question then, whether or not that is still open. In cycles of its own, where
there is nothing to clarify, it asks only what is open.
-/
namespace Dialogue

variable {d : Domain} {c : Config} {s after : State} {m : Move} {q : Question}

/-- The question that the system asks next, if that is what it does next. -/
def State.asksNext? (d : Domain) (c : Config) (s : State) : Option Question :=
  (s.select d c).move.bind Move.question?

namespace SelectionRule

variable {r : SelectionRule}

/-- What is asked adds nothing to the commitments. -/
theorem Fires.commitments_of_asks (h : Fires d c s r after m) (asks : m.question? = some q) :
    after.commitments = s.commitments := by
  cases h with
  | asserted _ asserts => simp [Move.question?, asserts] at asks
  | informed | answered => cases asks
  | pursued => split <;> simp
  | _ => simp

/-- With a courteous agenda, only a clarification asks what is resolved. -/
theorem Fires.repeated_of_resolved (h : Fires d c s r after m) (courteous : s.Courteous)
    (asks : m.question? = some q) (resolved : q.resolvedBy s.commitments = true) :
    r = .clarify ∧ s.lastConfidence.lt c.threshold = true ∧ s.top = some q ∧
      s.lastAsker q ≠ some .user := by
  rcases h.asks_resolved asks resolved with ⟨rfl, _⟩ | ⟨_, front⟩
  · cases h with
    | repeated unsure top other =>
      cases asks
      exact ⟨rfl, unsure, top, other⟩
    | confused => cases asks
  · simp [courteous.question?_eq_none (List.mem_of_head? front)] at asks

end SelectionRule

namespace State

theorem asksNext?_resolved_iff (courteous : s.Courteous)
    (resolved : q.resolvedBy s.commitments = true) : s.asksNext? d c = some q ↔
      s.lastConfidence.lt c.threshold = true ∧ s.top = some q ∧ s.lastAsker q ≠ some .user := by
  constructor
  · intro asks
    rcases s.select_cases d c with ⟨r, after, m, fires, outcome⟩ | ⟨_, outcome⟩
    · have asks : m.question? = some q := by
        simpa [asksNext?, outcome, Selection.move] using asks
      exact (fires.repeated_of_resolved courteous asks resolved).2
    · simp [asksNext?, outcome, Selection.move] at asks
  · rintro ⟨unsure, top, other⟩
    have chosen := chosen_of_unsure (d := d) unsure top
    simp [asksNext?, Selection.move, chosen, other, Move.ask, Move.question?]

end State

/-- A question of the system's own cycles is open. -/
theorem Engine.Visits.asks_unresolved {e : Engine} {o : TurnOutcome} (visits : e.Visits s)
    (valid : e.config.validate = .ok ()) (ticks : e.tick s = .ok o)
    (made : o.move = some m) (asks : m.question? = some q) :
    q.resolvedBy o.state.commitments = false := by
  have finishes := tick_eq_ok ticks
  have sure := visits.sure_of_tick valid
  have courteous : (e.integrate (s.beginCycle .system) none).state.Courteous := by
    obtain ⟨calls, reached⟩ :=
      (visits.reachable.call (.beginCycle .system)).call (.integrate none)
    have courteous := reached_courteous e.domain e.config calls
    rwa [reached] at courteous
  rw [finishes.move] at made
  rw [finishes.selected.2.1]
  simp only [develop, select] at made ⊢
  generalize (e.integrate (s.beginCycle .system) none).state = i at *
  rcases i.select_cases e.domain e.config with ⟨r, after, m', fires, outcome⟩ | ⟨_, outcome⟩
  · simp only [outcome, Selection.move, Option.map_some, Option.some.injEq] at made
    subst made
    simp only [outcome, State.giveFloor_frame, fires.commitments_of_asks asks]
    by_contra resolved
    have repeated := fires.repeated_of_resolved courteous asks (by simpa using resolved)
    simp [sure] at repeated
  · simp [outcome, Selection.move] at made

/-- In every state that is reached, what the commitments resolve is asked next if and only if the
last turn was uncertain and the question is topmost and was not last asked by the user, which is
what a clarification repeats. After what an engine does, a cycle of the system without input never
asks what is resolved. -/
theorem settled_question_asked_iff (e : Engine) (valid : e.config.validate = .ok ()) :
    (∀ calls q, q.resolvedBy (reached e.domain e.config calls).commitments = true →
      ((reached e.domain e.config calls).asksNext? e.domain e.config = some q ↔
        (reached e.domain e.config calls).lastConfidence.lt e.config.threshold = true ∧
          (reached e.domain e.config calls).top = some q ∧
          (reached e.domain e.config calls).lastAsker q ≠ some .user) ∧
      ((reached e.domain e.config calls).asksNext? e.domain e.config = some q →
        ((reached e.domain e.config calls).select e.domain e.config).rule = some .clarify)) ∧
    ∀ s o m q, e.Visits s → e.tick s = .ok o → o.move = some m → m.question? = some q →
      q.resolvedBy o.state.commitments = false := by
  refine ⟨fun calls q resolved => ?_, fun s o m q visits ticks made asks =>
    visits.asks_unresolved valid ticks made asks⟩
  have asked := State.asksNext?_resolved_iff (d := e.domain) (c := e.config)
    (reached_courteous e.domain e.config calls) resolved
  exact ⟨asked, fun asks => State.select_clarifies_iff.mpr (asked.mp asks).1⟩

def notice : Domain := .ofTask "post" [.inform ⟨"told", .bool true⟩, .findout (.yesNo "late")]

def lateAsserted : Move := .assert .user ⟨"late", .bool true⟩

/-- The user asks for the task, and everything else is taken for an assertion, though with doubt. -/
def noticing : Engine where
  domain := notice
  interpreter utterance _ := .done (
    if utterance = "post" then .request .user "post" else lateAsserted.mumbled)
  generator _ _ := .done "..."

/-- The user is told something and asked, and asserts the answer without being understood well. -/
def noticeAsserted : List Call :=
  Call.cycle .user (some (.request .user "post")) ++ Call.cycle .system none ++
    [.beginCycle .user, .integrate (some lateAsserted.mumbled)]

/-- A doubtful assertion settles the question, which is asked again nevertheless; when it was asked
for the first time, it was open. -/
theorem late_asked_twice : noticing.config.validate = .ok () ∧
    (Question.yesNo "late").resolvedBy (reached notice {} noticeAsserted).commitments = true ∧
    (reached notice {} noticeAsserted).asksNext? notice {} = some (.yesNo "late") ∧
    ((reached notice {} noticeAsserted).select notice {}).rule = some .clarify ∧
    ∃ told asked, noticing.turn noticing.initialState "post" = .ok told ∧
      noticing.tick told.state = .ok asked ∧
      asked.move = some (.ask .system (.yesNo "late")) ∧
      (Question.yesNo "late").resolvedBy asked.state.commitments = false := by
  have valid : noticing.config.validate = .ok () := rfl
  have resolved : (Question.yesNo "late").resolvedBy
      (reached notice {} noticeAsserted).commitments = true := by decide +kernel
  obtain ⟨anyRun, ticks⟩ := settled_question_asked_iff noticing valid
  obtain ⟨asked, clarifies⟩ := anyRun noticeAsserted (.yesNo "late") resolved
  have again := asked.mpr (by decide +kernel)
  obtain ⟨told, asked, turned, ticked, made⟩ : ∃ told asked,
      noticing.turn noticing.initialState "post" = .ok told ∧
        noticing.tick told.state = .ok asked ∧
        asked.move = some (.ask .system (.yesNo "late")) := ⟨_, _, rfl, rfl, rfl⟩
  have unresolved :=
    ticks told.state asked _ (.yesNo "late") (.turned .start turned) ticked made rfl
  exact ⟨valid, resolved, again, clarifies again, told, asked, turned, ticked, made, unresolved⟩

/-- The system does ask what is settled already. After it has answered the request, the user's
assertion settles the question that is topmost, and the same cycle asks that question. -/
theorem settled_late_asked : noticing.config.validate = .ok () ∧
    Binary32.zero.le lateAsserted.mumbled.confidence = true ∧
    lateAsserted.mumbled.confidence.le .one = true ∧
    ∃ x, noticing.respond noticing.initialState "post" = .ok x ∧
      (Question.yesNo "late").resolvedBy (noticing.develop (x.state.beginCycle .user)
        (some lateAsserted.mumbled)).1.state.commitments = true ∧
      (noticing.develop (x.state.beginCycle .user) (some lateAsserted.mumbled)).2.move =
        some (.ask .system (.yesNo "late")) ∧
      ∃ o, noticing.turn x.state "it is late" = .ok o ∧
        o.move = some (.ask .system (.yesNo "late")) := by
  refine ⟨rfl, by decide, by decide, _, rfl, by decide +kernel, by decide +kernel, _, rfl, ?_⟩
  decide +kernel

end Dialogue
