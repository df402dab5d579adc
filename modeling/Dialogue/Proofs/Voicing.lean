import Dialogue.Proofs.Confidence
import Dialogue.Proofs.Run

/-!
What integration puts under discussion is asked aloud in the same cycle, if it is open and nobody
has asked it before. A question that was asked before is not asked again, and one that the
commitments resolve already is not asked at all.
-/
namespace Dialogue

variable {d : Domain} {c : Config} {s after : State} {q : Question}

theorem SelectionRule.runClarify_top (unsure : s.lastConfidence.lt c.threshold = true)
    (top : s.top = some q) (unasked : s.wasAsked q = false) :
    ∃ after, runClarify c s = some (after, .ask .system q) := by
  have top : s.qud.head? = some q := top
  have nobody : (s.setConfidence .one).lastAsker q = none := by
    simpa [State.wasAsked, State.lastAsker_eq] using unasked
  simp [runClarify, unsure, State.top, top, nobody, emitting]

theorem SelectionRule.runRaiseQuestion_top (top : s.top = some q) (unasked : s.wasAsked q = false)
    (unresolved : q.resolvedBy s.commitments = false) :
    ∃ after, runRaiseQuestion s = some (after, .ask .system q) := by
  simp only [runRaiseQuestion, top, unasked, unresolved, Option.bind_eq_bind, Option.bind_some]
  split <;> simp [emitting]

/-- An open question on top that nobody has asked is asked next, unless the agenda comes first. -/
theorem State.select_asks_top (top : s.top = some q) (empty : s.agenda = [])
    (unasked : s.wasAsked q = false) (unresolved : q.resolvedBy s.commitments = false) :
    (s.select d c).move = some (.ask .system q) := by
  by_cases unsure : s.lastConfidence.lt c.threshold = true
  · obtain ⟨after, clarifies⟩ := SelectionRule.runClarify_top unsure top unasked
    simp [select, SelectionRule.all, SelectionRule.run?, clarifies, Selection.move]
  · obtain ⟨after, raises⟩ := SelectionRule.runRaiseQuestion_top top unasked unresolved
    have sure : SelectionRule.runClarify c s = none := by simp [SelectionRule.runClarify, unsure]
    have noAsk : SelectionRule.runAsk s = none := by simp [SelectionRule.runAsk, empty]
    have noOther : SelectionRule.runFromAgenda s = none := by
      simp [SelectionRule.runFromAgenda, empty]
    simp [select, SelectionRule.all, SelectionRule.run?, sure, noAsk, noOther, raises,
      Selection.move]

/-- What is resolved is asked only to clarify the top after an uncertain turn, or because the ask is
on the agenda. -/
theorem SelectionRule.Fires.asks_resolved {r : SelectionRule} {m : Move}
    (h : Fires d c s r after m) (asks : m.question? = some q)
    (resolved : q.resolvedBy s.commitments = true) :
    r = .clarify ∧ s.top = some q ∧ s.lastConfidence.lt c.threshold = true ∨
      r = .ask ∧ s.agenda.head? = some m := by
  cases h with
  | repeated unsure top =>
    cases asks
    exact .inl ⟨rfl, top, unsure⟩
  | asked front => exact .inr ⟨rfl, front⟩
  | raised _ _ unresolved | voiced _ _ unresolved | pursued _ _ _ _ _ unresolved
  | posed _ _ _ _ _ unresolved =>
    cases asks
    simp [resolved] at unresolved
  | uttered _ silent => simp [silent] at asks
  | asserted _ asserts => simp [Move.question?, asserts] at asks
  | _ => cases asks

/-- Outside a clarification, the system asks of its own accord only what is open. -/
theorem SelectionRule.Fires.unresolved {r : SelectionRule} {m : Move} (h : Fires d c s r after m)
    (sure : s.lastConfidence.lt c.threshold = false) (empty : s.agenda = [])
    (asks : m.question? = some q) : q.resolvedBy s.commitments = false := by
  by_contra resolved
  rcases h.asks_resolved asks (by simpa using resolved) with ⟨_, _, unsure⟩ | ⟨_, front⟩
  · simp [sure] at unsure
  · simp [empty] at front

/-- A rule that makes the discussion grow takes a question, or an answer that leaves a residual and
was understood, or begins a step whose question is open. -/
theorem UpdateRule.Fires.grown {r : UpdateRule} (h : Fires d c s r after)
    (valid : c.validate = .ok ()) (longer : s.qud.length < after.qud.length) :
    after.lastConfidence.lt c.threshold = false ∨
      ∃ q, after.top = some q ∧ q.resolvedBy after.commitments = false := by
  cases h with
  | asked _ _ sure | planned _ _ sure =>
    exact .inl (by simp [State.consume_sure valid (Binary32.not_lt_of_le sure)])
  | narrowed heard | issueNarrowed heard =>
    exact .inl (by simp [State.consume_sure valid heard.confident])
  | @begun plan step q _ _ _ _ _ _ unresolved =>
    exact .inr ⟨q, by simp [State.top], by simpa using unresolved⟩
  | settled | downdated =>
    simp only [State.ground_frame, State.settle_frame, State.popQuestion_qud, State.consume_frame,
      State.completeStepFor_frame, List.length_tail] at longer
    omega
  | _ => simp at longer

theorem State.wasAsked_select (asks : (s.select d c).move = some (.ask .system q)) :
    (s.select d c).state.wasAsked q = true := by
  rcases s.select_cases d c with ⟨r, after, m, fires, outcome⟩ | ⟨_, outcome⟩
  · simp only [outcome, Selection.move, Option.map_some, Option.some.injEq] at asks ⊢
    subst asks
    refine wasAsked_iff.mpr ⟨(.ask .system q, true), ?_, rfl⟩
    simp [fires.recorded.1]
  · simp [outcome, Selection.move] at asks

/-- Whenever integration makes the discussion grow and leaves the agenda empty, selection asks the
question on top if it is open and was not asked before, and does not ask it if the commitments
resolve it. So what is under discussion has been asked aloud by then, or is resolved. -/
theorem discussed_question_asked (d : Domain) (c : Config) (valid : c.validate = .ok ()) (s : State)
    (m : Option Move) (longer : s.qud.length < (s.integrate d c m).state.qud.length)
    (empty : (s.integrate d c m).state.agenda = []) :
    ∃ q, (s.integrate d c m).state.top = some q ∧
      (q.resolvedBy (s.integrate d c m).state.commitments = false →
        (s.integrate d c m).state.wasAsked q = false →
        ((s.integrate d c m).state.select d c).move = some (.ask .system q)) ∧
      (q.resolvedBy (s.integrate d c m).state.commitments = true →
        ((s.integrate d c m).state.select d c).move ≠ some (.ask .system q)) ∧
      (q.resolvedBy (s.integrate d c m).state.commitments = true ∨
        ((s.integrate d c m).state.select d c).state.wasAsked q = true) := by
  rcases s.integrate_cases d c m with ⟨r, after, fires, outcome⟩ | ⟨_, outcome⟩
  · simp only [outcome] at longer empty ⊢
    obtain ⟨q, top⟩ : ∃ q, after.top = some q := by
      cases discussed : after.qud with
      | nil => simp [discussed] at longer
      | cons q rest => exact ⟨q, by simp [State.top, discussed]⟩
    have asked := State.select_asks_top (d := d) (c := c) top empty
    refine ⟨q, top, fun unresolved unasked => asked unasked unresolved, fun resolved asks => ?_, ?_⟩
    · rcases fires.grown valid (by simpa using longer) with sure | ⟨q', top', unresolved⟩
      · rcases after.select_cases d c with ⟨r', t, said, chosen, selection⟩ | ⟨_, selection⟩
        · simp only [selection, Selection.move, Option.map_some, Option.some.injEq] at asks
          have asks : said.question? = some q := by simp [asks, Move.ask, Move.question?]
          have unresolved := chosen.unresolved sure empty asks
          simp [resolved] at unresolved
        · simp [selection, Selection.move] at asks
      · cases top.symm.trans top'
        simp [resolved] at unresolved
    · cases resolved : q.resolvedBy after.commitments with
      | true => exact .inl rfl
      | false =>
        cases before : after.wasAsked q with
        | true => exact .inr ((Call.grows (.select : Call)).wasAsked before)
        | false => exact .inr (State.wasAsked_select (asked before resolved))
  · simp [outcome] at longer

def Call.cycle (speaker : Speaker) (m : Option Move) : List Call :=
  [.beginCycle speaker, .integrate m, .select]

def shade : Question := .wh "x" "shade" (OrderedMap.ofList [("one_of", "light blue|dark blue|red")])

def painter : Domain := .ofTask "paint" [.findout shade]

def paintRequested : List Call := Call.cycle .user (some (.request .user "paint"))

def sayBlue : Move := .answer .user (.short (.text "blue"))

theorem narrowed_shade_asked :
    (((reached painter {} paintRequested).integrate painter {} (some sayBlue)).state.select
      painter {}).move = some (.ask .system (.alt "shade" ["light blue", "dark blue"])) := by
  obtain ⟨q, top, asked, _⟩ := discussed_question_asked painter {} rfl
    (reached painter {} paintRequested) (some sayBlue) (by decide +kernel) (by decide +kernel)
  have narrowed :
      ((reached painter {} paintRequested).integrate painter {} (some sayBlue)).state.top =
        some (.alt "shade" ["light blue", "dark blue"]) := by decide +kernel
  cases narrowed.symm.trans top
  exact asked (by decide +kernel) (by decide +kernel)

def reminder : Domain :=
  .ofTask "remind" [.raise (.yesNo "late"), .inform ⟨"told", .bool true⟩, .findout (.yesNo "late")]

/-- The question is raised, the user lets it pass, and the system informs of something else. -/
def reminded : List Call :=
  Call.cycle .user (some (.request .user "remind")) ++
    Call.cycle .user (some (.feedback .user .acknowledge)) ++ [.beginCycle .system]

/-- The user asserts a shade unasked, and the question stays under discussion for a while. -/
def paintAsserted : List Call :=
  paintRequested ++ Call.cycle .user (some (.assert .user ⟨"shade", .text "light blue"⟩)) ++
    [.beginCycle .user]

/-- Not every question that a cycle of a run puts under discussion is asked in that cycle. The first
was asked before, and is not asked again though it is still open; the second is what is left of a
question after an answer, and the commitments resolve it. -/
theorem discussed_question_left_unasked :
    ((reached reminder {} reminded).qud.length <
        ((reached reminder {} reminded).integrate reminder {} none).state.qud.length ∧
      ((reached reminder {} reminded).integrate reminder {} none).state.agenda = [] ∧
      ((reached reminder {} reminded).integrate reminder {} none).state.top =
        some (.yesNo "late") ∧
      (((reached reminder {} reminded).integrate reminder {} none).state.select reminder {}).move =
        none) ∧
    (reached painter {} paintAsserted).qud.length <
        ((reached painter {} paintAsserted).integrate painter {} (some sayBlue)).state.qud.length ∧
      ((reached painter {} paintAsserted).integrate painter {} (some sayBlue)).state.agenda = [] ∧
      ((reached painter {} paintAsserted).integrate painter {} (some sayBlue)).state.top =
        some (.alt "shade" ["light blue", "dark blue"]) ∧
      (((reached painter {} paintAsserted).integrate painter {} (some sayBlue)).state.select
        painter {}).move = some (.feedback .system .acknowledge) := by
  decide +kernel

end Dialogue
