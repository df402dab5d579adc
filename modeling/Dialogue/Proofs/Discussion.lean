import Mathlib.Logic.Basic
import Dialogue.Proofs.Dependency
import Dialogue.Proofs.Run

/-!
What integration does to the questions under discussion. An answer that was integrated has settled a
question or narrowed one down, never neither and never both. Whatever is called, nothing below the
topmost question is removed or moved.
-/
namespace Dialogue

namespace State

/-- An answer was bound: what settles some question by it is committed, and the question leaves the
discussion if it was on top. -/
def Bound (s t : State) (a : Answer) : Prop :=
  ∃ q p, q.resolution a = some p ∧ t.commitments = s.commitments.insert p ∧
    t.qud = if s.top = some q then s.qud.tail else s.qud

/-- An answer left something open: the residual lies directly above the question, which was on top
or has been put there. -/
def Narrowed (s t : State) (a : Answer) : Prop :=
  ∃ q residual, q.combines a = some residual ∧ t.commitments = s.commitments ∧
    (s.top = some q ∧ t.qud = residual :: s.qud ∨ t.qud = residual :: q :: s.qud)

/-- What becomes of the questions under discussion when no answer is integrated. -/
inductive Restacked (s t : State) : Option UpdateRule → Prop
  | kept {r} (asks : r ≠ some .integrateAsk) (pops : r ≠ some .downdateQud)
      (same : t.qud = s.qud) : Restacked s t r
  | asked {m : Move} {q : Question} (recorded : t.moves = s.moves ++ [(m, true)])
      (asks : m.question? = some q) (pushed : t.qud = q :: s.qud) :
      Restacked s t (some .integrateAsk)
  | downdated {q : Question} (resolved : q.resolvedBy s.commitments = true)
      (popped : s.qud = q :: t.qud) : Restacked s t (some .downdateQud)
  | begun {plan : Plan} {step : PlanStep} {q : Question} (active : s.activePlan = some plan)
      (member : step ∈ plan.steps) (asks : step.action.question? = some q)
      (pushed : t.qud = q :: s.qud) : Restacked s t (some .execFindout)

end State

variable {d : Domain} {c : Config} {s after : State} {m : Move} {a : Answer} {q : Question}
  {given : Option Move}

namespace Move

theorem act_of_question? (h : m.question? = some q) : m.act = .ask q := by
  unfold question? at h
  split at h
  · cases h
    assumption
  · contradiction

theorem answer?_eq_none (h : ∀ b, m.act ≠ .answer b) : m.answer? = none := by
  unfold answer?
  split
  · rename_i b said
    exact absurd said (h b)
  · rfl

end Move

namespace UpdateRule

variable {r earlier : UpdateRule}

theorem not_applicable_before (fired : (s.integrate d c given).rule = some r)
    (before : all.idxOf earlier < all.idxOf r) :
    earlier.run? d c (s.setPending given) = none := by
  unfold State.integrate at fired
  cases found : all.findSome? fun r => (r.run? d c (s.setPending given)).map (r, ·) with
  | none => simp [found] at fired
  | some outcome =>
    obtain ⟨skipped, first, rest, split, ran, idle⟩ := List.findSome?_eq_some_iff.mp found
    obtain ⟨after, _, rfl⟩ := Option.map_eq_some_iff.mp ran
    simp only [found, Option.some.injEq] at fired
    subst fired
    have fresh : first ∉ skipped := by
      intro member
      have := idle first member
      simp_all
    have place : all.idxOf first = skipped.length := by
      rw [split, List.idxOf_append_of_notMem fresh, List.idxOf_cons_self]
      rfl
    have member : earlier ∈ skipped := by
      by_contra absent
      rw [place, split, List.idxOf_append_of_notMem absent] at before
      omega
    simpa using idle earlier member

theorem pendingAnswer_of_heard (heard : s.Heard c m a) : s.pendingAnswer c = some a := by
  simp [State.pendingAnswer, heard.pending, heard.confident, heard.answers]

/-- An answer that is not integrated at the topmost question does not fit it. -/
theorem unfit_of_not_applicable (heard : s.Heard c m a) (top : s.top = some q)
    (idle : runIntegrateAnswer d c s = none) : a.integrable q = false := by
  by_contra fits
  simp [runIntegrateAnswer, heard.pending, pendingAnswer_of_heard heard, top, fits] at idle

/-- A rule that fires records the pending move as integrated, unless there is none. -/
theorem Fires.recorded (h : Fires d c s r after) :
    (∃ m, s.pending = some m ∧ after.moves = s.moves ++ [(m, true)]) ∨
      s.pending = none ∧ after.moves = s.moves := by
  cases h with
  | asked pending | planned pending | asserted pending | greeted pending | parted pending
  | ended pending | misunderstood pending | acknowledged pending | requested pending =>
    exact .inl ⟨_, pending, by simp⟩
  | settled heard | narrowed heard | needed heard | issueSettled heard | issueNarrowed heard
  | buried heard | volunteered heard => exact .inl ⟨_, heard.pending, by simp⟩
  | downdated free | skipped free | begun free => exact .inr ⟨free, by simp⟩

theorem silent_of_act (pending : s.pending = some m) (act : ∀ b, m.act ≠ .answer b) :
    ∀ m', s.pending = some m' → m'.answer? = none := by
  intro m' also
  cases pending.symm.trans also
  exact Move.answer?_eq_none act

/-- An answer that was heard is bound or narrows a question down, provided that it did not fit the
topmost question where a later rule takes it. Without an answer at most one question is pushed or
popped. -/
theorem Fires.discussed (h : Fires d c s r after)
    (unfit : ∀ m a q, s.Heard c m a → all.idxOf integrateAnswer < all.idxOf r → s.top = some q →
      a.integrable q = false) :
    (∃ m a, s.Heard c m a ∧ (s.Bound after a ∨ s.Narrowed after a)) ∨
      (∀ m, s.pending = some m → m.answer? = none) ∧ s.Restacked after (some r) := by
  -- a question beside the topmost that the answer settles is not equal to it
  have beside {m : Move} {a : Answer} {q : Question} (heard : s.Heard c m a)
      (later : all.idxOf integrateAnswer < all.idxOf r) (resolves : a.resolves q = true) :
      s.top ≠ some q := by
    intro top
    have := unfit m a q heard later top
    simp [Answer.integrable, resolves] at this
  cases h with
  | @settled m a q p heard top settles =>
    exact .inl ⟨m, a, heard, .inl ⟨q, p, settles, by simp, by simp [top]⟩⟩
  | @narrowed m a q residual heard top _ narrows =>
    exact .inl ⟨m, a, heard, .inr ⟨q, residual, narrows, by simp, .inl ⟨top, by simp⟩⟩⟩
  | @needed m a t q p heard top _ finds settles =>
    have apart := (Domain.mem_reachable.mp (List.mem_of_find?_eq_some finds)).1
    have other : s.top ≠ some q := by simpa [top] using apart.symm
    exact .inl ⟨m, a, heard, .inl ⟨q, p, settles, by simp, by simp [other]⟩⟩
  | @issueSettled m a q p heard finds settles =>
    have absent := (plannedQuestion?_eq_some finds).2.2.1
    have other : s.top ≠ some q := fun top => absent (List.mem_of_head? top)
    exact .inl ⟨m, a, heard, .inl ⟨q, p, settles, by simp, by simp [other]⟩⟩
  | @issueNarrowed m a q residual heard _ _ narrows =>
    exact .inl ⟨m, a, heard, .inr ⟨q, residual, narrows, by simp, .inr (by simp)⟩⟩
  | @buried m a q p heard finds settles =>
    have other := beside heard (by decide) (mem_of_buriedQuestion? finds).2
    exact .inl ⟨m, a, heard, .inl ⟨q, p, settles, by simp, by simp [other]⟩⟩
  | @volunteered m a plan q p heard finds settles =>
    have other := beside heard (by decide) (answeredTask?_eq_some finds).2.2
    exact .inl ⟨m, a, heard, .inl ⟨q, p, settles, by simp, by simp [other]⟩⟩
  | asked pending asks | planned pending asks =>
    have silent := silent_of_act pending (by simp [Move.act_of_question? asks])
    exact .inr ⟨silent, .asked (by simp) asks (by simp)⟩
  | asserted pending act | greeted pending _ act | parted pending _ act | ended pending _ act
  | misunderstood pending _ act | acknowledged pending _ act | requested pending act =>
    exact .inr ⟨silent_of_act pending (by simp [act]), .kept (by simp) (by simp) (by simp)⟩
  | @downdated q free top resolved =>
    obtain ⟨rest, discussed⟩ := List.head?_eq_some_iff.mp top
    exact .inr ⟨by simp [free], .downdated resolved (by simp [discussed])⟩
  | skipped free => exact .inr ⟨by simp [free], .kept (by simp) (by simp) (by simp)⟩
  | begun free _ active _ next asks =>
    have member := (Plan.nextStep?_eq_some next).1
    exact .inr ⟨by simp [free], .begun active member asks (by simp)⟩

/-- What only adds to the questions under discussion leaves those below the topmost as they are. -/
theorem tail_suffix_of_suffix {before after : List Question} (h : before <:+ after) :
    before.tail <:+ after := (List.tail_suffix before).trans h

theorem Fires.tail_suffix (h : Fires d c s r after) : s.qud.tail <:+ after.qud := by
  cases h with
  | settled | downdated => simp
  | asked | planned | narrowed | begun =>
    exact tail_suffix_of_suffix (by simp)
  | @issueNarrowed m a q residual =>
    exact tail_suffix_of_suffix ⟨[residual, q], by simp⟩
  | _ => simp [List.tail_suffix]

end UpdateRule

theorem SelectionRule.Fires.tail_suffix {r : SelectionRule} (h : Fires d c s r after m) :
    s.qud.tail <:+ after.qud := by
  cases h with
  | answered => simp
  | asked | posed => exact UpdateRule.tail_suffix_of_suffix (by simp)
  | pursued => exact UpdateRule.tail_suffix_of_suffix (by split <;> simp)
  | _ => simp [List.tail_suffix]

theorem Call.tail_suffix (call : Call) : s.qud.tail <:+ (call.run d c s).qud := by
  cases call with
  | integrate m =>
    rcases s.integrate_cases d c m with ⟨r, after, fires, outcome⟩ | ⟨_, outcome⟩
    · simpa [run, outcome] using fires.tail_suffix
    · simp [run, outcome, List.tail_suffix]
  | select =>
    rcases s.select_cases d c with ⟨r, after, m, fires, outcome⟩ | ⟨_, outcome⟩
    · simpa [run, outcome] using fires.tail_suffix
    · simp [run, outcome, List.tail_suffix]
  | _ => simp [run, List.tail_suffix]

namespace State

variable {t : State}

theorem Bound.not_narrowed (h : s.Bound t a) : ¬ s.Narrowed t a := by
  rintro ⟨_, _, _, _, narrowed⟩
  obtain ⟨_, _, _, _, bound⟩ := h
  have shorter : t.qud.length ≤ s.qud.length := by
    rw [bound]
    split <;> simp
  rcases narrowed with ⟨_, longer⟩ | longer <;>
  · simp only [longer, List.length_cons] at shorter
    omega

@[simp] theorem setPending_top : (s.setPending given).top = s.top := by
  simp only [top, setPending_frame]

/-- Which move waits plays no part in what becomes of the questions. -/
theorem Bound.of_setPending (h : (s.setPending given).Bound t a) : s.Bound t a := by
  simpa only [Bound, setPending_top, setPending_frame] using h

theorem Narrowed.of_setPending (h : (s.setPending given).Narrowed t a) : s.Narrowed t a := by
  simpa only [Narrowed, setPending_top, setPending_frame] using h

theorem Restacked.of_setPending {r : Option UpdateRule} (h : (s.setPending given).Restacked t r) :
    s.Restacked t r := by
  cases h with
  | kept asks pops same => exact .kept asks pops (by simpa using same)
  | asked recorded asks pushed =>
    exact .asked (by simpa using recorded) asks (by simpa using pushed)
  | downdated resolved popped => exact .downdated (by simpa using resolved) (by simpa using popped)
  | begun active member asks pushed =>
    exact .begun (by simpa [activePlan] using active) member asks (by simpa using pushed)

end State

/-- Integration binds the answer that it records as integrated or narrows a question down by it, or
it records no answer as integrated. -/
theorem State.integrate_discussed (d : Domain) (c : Config) (s : State) (given : Option Move) :
    (∃ m a, (s.integrate d c given).state.moves = s.moves ++ [(m, true)] ∧ m.answer? = some a ∧
      (s.Bound (s.integrate d c given).state a ∨ s.Narrowed (s.integrate d c given).state a)) ∨
    (∀ m, (s.integrate d c given).state.moves = s.moves ++ [(m, true)] → m.answer? = none) ∧
      s.Restacked (s.integrate d c given).state (s.integrate d c given).rule := by
  rcases s.integrate_cases d c given with ⟨r, after, fires, outcome⟩ | ⟨_, outcome⟩
  · have discussed := fires.discussed fun m a q heard later top =>
      UpdateRule.unfit_of_not_applicable heard top
        (UpdateRule.not_applicable_before (by rw [outcome]) later)
    rw [outcome]
    rcases discussed with ⟨m, a, heard, outcomes⟩ | ⟨silent, restacked⟩
    · rcases fires.recorded with ⟨m', pending, moves⟩ | ⟨free, _⟩
      · cases heard.pending.symm.trans pending
        exact .inl ⟨m, a, by simp [moves], heard.answers,
          outcomes.imp Bound.of_setPending Narrowed.of_setPending⟩
      · simp [heard.pending] at free
    · refine .inr ⟨fun m recorded => ?_, restacked.of_setPending⟩
      rcases fires.recorded with ⟨m', pending, moves⟩ | ⟨_, moves⟩
      · refine silent m ?_
        simp_all
      · simp [moves] at recorded
  · have same : s.Restacked (s.setPending given).abandonPending none :=
      .kept (by simp) (by simp) (by simp)
    exact .inr ⟨by simp [outcome], by simpa [outcome] using same⟩

/-- An answer that integration records as integrated was either bound or narrowed a question down.
Otherwise integration pushes a question that was asked, or one of the plan, or pops a topmost
question that is resolved, or leaves the questions as they are. No call of any kind removes or moves
what is below the topmost question. -/
theorem answers_bound_or_narrowed (d : Domain) (c : Config) (s : State) :
    (∀ given m a, (s.integrate d c given).state.moves = s.moves ++ [(m, true)] →
      m.answer? = some a → Xor (s.Bound (s.integrate d c given).state a)
        (s.Narrowed (s.integrate d c given).state a)) ∧
    (∀ given, (∀ m, (s.integrate d c given).state.moves = s.moves ++ [(m, true)] →
      m.answer? = none) →
        s.Restacked (s.integrate d c given).state (s.integrate d c given).rule) ∧
    ∀ call : Call, s.qud.tail <:+ (call.run d c s).qud := by
  refine ⟨fun given m a recorded answers => ?_, fun given silent => ?_, Call.tail_suffix⟩
  · rcases s.integrate_discussed d c given with
      ⟨m', a', recorded', answers', outcomes⟩ | ⟨silent, _⟩
    · have same : m' = m := by simpa using recorded'.symm.trans recorded
      subst same
      cases answers'.symm.trans answers
      rcases outcomes with bound | narrowed
      · exact .inl ⟨bound, bound.not_narrowed⟩
      · exact .inr ⟨narrowed, fun bound => bound.not_narrowed narrowed⟩
    · simp [silent m recorded] at answers
  · rcases s.integrate_discussed d c given with ⟨m, a, recorded, answers, _⟩ | ⟨_, restacked⟩
    · simp [silent m recorded] at answers
    · exact restacked

def errandAsked : List Call := errandAnswered.take 4

def sayYes : Move := .answer .user (.short (.bool true))

theorem errand_answer_bound :
    ((reached errand {} errandAsked).integrate errand {} (some sayYes)).state.moves =
        (reached errand {} errandAsked).moves ++ [(sayYes, true)] ∧
      sayYes.answer? = some (.short (.bool true)) ∧
      Xor ((reached errand {} errandAsked).Bound
          ((reached errand {} errandAsked).integrate errand {} (some sayYes)).state
          (.short (.bool true)))
        ((reached errand {} errandAsked).Narrowed
          ((reached errand {} errandAsked).integrate errand {} (some sayYes)).state
          (.short (.bool true))) := by
  have recorded : ((reached errand {} errandAsked).integrate errand {} (some sayYes)).state.moves =
      (reached errand {} errandAsked).moves ++ [(sayYes, true)] := by decide +kernel
  exact ⟨recorded, rfl, (answers_bound_or_narrowed errand {} _).1 _ _ _ recorded rfl⟩

end Dialogue
