import Dialogue.Proofs.Dependency
import Dialogue.Proofs.Run

/-!
Where commitments come from. A call adds one commitment at most, and only for a reason: what was
asserted, an answer to a question at one of the places where integration looks for it, or what the
system says itself. The history of a run is covered by applying this to each of its calls.
-/
namespace Dialogue

namespace State

/-- The places where integration looks for a question that an answer settles. -/
inductive Offers (d : Domain) (s : State) (q : Question) : Prop
  | discussed (on : q ∈ s.qud)
  | needed {t} (top : s.top = some t) (needs : d.Needs t q)
  | planned {plan step} (active : s.activePlan = some plan) (member : step ∈ plan.steps)
      (unfinished : step.status ≠ .completed) (finds : step.action = .findout q)
  | accommodable {id task} (idle : s.activePlan = none) (listed : d.tasks.get? id = some task)
      (accommodable : task.accommodable = true) (finds : .findout q ∈ task.actions)

/-- What a move of either party commits to when it is integrated. -/
inductive Grants (d : Domain) (c : Config) (s : State) (m : Move) (p : Proposition) : Prop
  | asserted (asserts : m.act = .assert p)
  | answered {a q} (answers : m.answer? = some a)
      (confident : m.confidence.lt c.threshold = false) (offered : s.Offers d q)
      (settles : q.resolution a = some p) (key : ∀ k, a.question = some k → q.key = k)
      (predicate : ∀ n, a.predicate = some n → p.predicate = n)

/-- What the system commits to by a move of its own. -/
inductive Volunteers (d : Domain) (s : State) (m : Move) (p : Proposition) : Prop
  | asserted (front : s.agenda.head? = some m) (asserts : m.act = .assert p)
  | informed {plan step} (active : s.activePlan = some plan)
      (next : plan.nextStep? s.qud = some step) (informs : step.action = .inform p)
      (utters : m = .assert .system p)
  | believed {q} (top : s.top = some q) (user : s.lastAsker q = some .user)
      (ready : ∀ on, on ≠ q → d.Needs q on → on.resolvedBy s.commitments = true)
      (believes : d.answerFromBeliefs? q s.beliefs s.commitments = some p)
      (utters : m = .answer .system ((Answer.ofProposition p).addressing q.key))

end State

/-- A call has a reason to commit to a proposition. A move that was waiting already stands for one
that it agrees with. -/
inductive Call.Commits (d : Domain) (c : Config) (s : State) (p : Proposition) : Call → Prop
  | integrate {given heard}
      (same : heard = given ∨ s.pending = some heard ∧ heard.agrees given = true)
      (recorded : (s.integrate d c (some given)).state.moves = s.moves ++ [(heard, true)])
      (grants : s.Grants d c heard p) : Commits d c s p (.integrate (some given))
  | select {r said} (chosen : (s.select d c).chosen = some (r, said))
      (volunteers : s.Volunteers d said p) : Commits d c s p .select

variable {d : Domain} {c : Config} {s after : State} {m : Move} {a : Answer} {q : Question}
  {p : Proposition}

theorem State.Heard.grants (heard : s.Heard c m a) (offered : s.Offers d q)
    (settles : q.resolution a = some p) : s.Grants d c m p := by
  obtain ⟨addressed, _, topic, _⟩ := Question.resolution_eq_some.mp settles
  simp only [Answer.addresses, Bool.and_eq_true, Option.all_eq_true, decide_eq_true_eq] at addressed
  refine .answered heard.answers heard.confident offered settles ?_ ?_
  · exact fun k named => (addressed.1 k named).symm
  · exact fun n named => topic.trans (addressed.2 n named).symm

/-- A rule that changes the commitments adds what the pending move grants, and takes the move. -/
theorem UpdateRule.Fires.grants {r : UpdateRule} (h : Fires d c s r after) :
    after.commitments = s.commitments ∨ ∃ m p, s.pending = some m ∧
      after.commitments = s.commitments.insert p ∧ after.moves = s.moves ++ [(m, true)] ∧
      s.Grants d c m p := by
  cases h with
  | settled heard top settles =>
    have offered : s.Offers d _ := .discussed (List.mem_of_head? top)
    exact .inr ⟨_, _, heard.pending, by simp, by simp, heard.grants offered settles⟩
  | needed heard top _ finds settles =>
    have found := Domain.mem_reachable.mp (List.mem_of_find?_eq_some finds)
    have offered : s.Offers d _ := .needed top found.2
    exact .inr ⟨_, _, heard.pending, by simp, by simp, heard.grants offered settles⟩
  | asserted pending asserts =>
    exact .inr ⟨_, _, pending, by simp, by simp, .asserted asserts⟩
  | issueSettled heard finds settles =>
    obtain ⟨_, ⟨plan, id, active, waits⟩, _⟩ := plannedQuestion?_eq_some finds
    obtain ⟨step, member, waits, action⟩ := Plan.mem_openFindouts waits
    have offered : s.Offers d _ := .planned active member waits action
    exact .inr ⟨_, _, heard.pending, by simp, by simp, heard.grants offered settles⟩
  | buried heard finds settles =>
    have offered : s.Offers d _ := .discussed (mem_of_buriedQuestion? finds).1
    exact .inr ⟨_, _, heard.pending, by simp, by simp, heard.grants offered settles⟩
  | volunteered heard finds settles =>
    obtain ⟨idle, ⟨id, _, accommodable, plans, waits⟩, _⟩ := answeredTask?_eq_some finds
    obtain ⟨task, listed, rfl⟩ := Option.map_eq_some_iff.mp plans
    obtain ⟨step, member, _, action⟩ := Plan.mem_openFindouts waits
    have action := action ▸ (Plan.mem_ofActions member).1
    have offered : s.Offers d _ :=
      .accommodable idle listed (by simpa [Domain.isAccommodable, listed] using accommodable) action
    exact .inr ⟨_, _, heard.pending, by simp, by simp, heard.grants offered settles⟩
  | _ => exact .inl (by simp)

/-- A rule that changes the commitments adds what its move volunteers. -/
theorem SelectionRule.Fires.volunteers {r : SelectionRule} (h : Fires d c s r after m) :
    after.commitments = s.commitments ∨
      ∃ p, after.commitments = s.commitments.insert p ∧ s.Volunteers d m p := by
  cases h with
  | asserted front asserts => exact .inr ⟨_, by simp, .asserted front asserts⟩
  | informed _ active _ next informs => exact .inr ⟨_, by simp, .informed active next informs rfl⟩
  | answered top user ready believes =>
    have ready := Domain.unresolvedDependencies_eq_nil.mp ready
    exact .inr ⟨_, by simp, .believed top user ready believes rfl⟩
  | pursued => exact .inl (by split <;> simp)
  | _ => exact .inl (by simp)

/-- Where integration looks does not depend on the move that is pending. -/
theorem State.Grants.of_setPending {heard : Option Move} (h : (s.setPending heard).Grants d c m p) :
    s.Grants d c m p := by
  cases h with
  | asserted asserts => exact .asserted asserts
  | answered answers confident offered settles key predicate =>
    refine .answered answers confident ?_ settles key predicate
    cases offered with
    | discussed on => exact .discussed (by simpa using on)
    | needed top needs => exact .needed (by simpa [State.top] using top) needs
    | planned active member unfinished finds =>
      exact .planned (by simpa [activePlan] using active) member unfinished finds
    | accommodable idle listed accommodable finds =>
      exact .accommodable (by simpa [activePlan] using idle) listed accommodable finds

theorem Call.commits (call : Call) : (call.run d c s).commitments = s.commitments ∨
    ∃ p, (call.run d c s).commitments = s.commitments.insert p ∧ call.Commits d c s p := by
  cases call with
  | integrate m =>
    rcases s.integrate_cases d c m with ⟨r, after, fires, outcome⟩ | ⟨_, outcome⟩
    · rcases fires.grants with same | ⟨heard, p, pending, added, recorded, grants⟩
      · exact .inl (by simpa [run, outcome] using same)
      · obtain ⟨given, rfl, same⟩ := State.setPending_eq_some pending
        refine .inr ⟨p, by simpa [run, outcome] using added, ?_⟩
        refine .integrate same ?_ grants.of_setPending
        simpa [outcome] using recorded
    · exact .inl (by simp [run, outcome])
  | select =>
    rcases s.select_cases d c with ⟨r, after, m, fires, outcome⟩ | ⟨_, outcome⟩
    · rcases fires.volunteers with same | ⟨p, added, volunteers⟩
      · exact .inl (by simpa [run, outcome] using same)
      · refine .inr ⟨p, by simpa [run, outcome] using added, .select (r := r) ?_ volunteers⟩
        simp [outcome]
    · exact .inl (by simp [run, outcome])
  | _ => exact .inl (by simp [run])

theorem Call.mem_commitments {call : Call} (h : p ∈ (call.run d c s).commitments)
    (fresh : p ∉ s.commitments) : call.Commits d c s p := by
  rcases call.commits (d := d) (c := c) (s := s) with same | ⟨other, added, commits⟩
  · exact absurd (same ▸ h) fresh
  · rcases OrderedSet.mem_insert.mp (added ▸ h) with rfl | known
    · exact commits
    · exact absurd known fresh

/-- Commitments never shrink. A call adds one at most, and with a reason; so every commitment in a
state that is reached was added by an earlier call that had a reason for it. -/
theorem commitments_have_reasons (d : Domain) (c : Config) :
    (∀ s (call : Call), (call.run d c s).commitments = s.commitments ∨
      ∃ p, p ∉ s.commitments ∧ (call.run d c s).commitments = s.commitments.insert p ∧
        call.Commits d c s p) ∧
    (∀ s (call : Call), ∀ p ∈ s.commitments, p ∈ (call.run d c s).commitments) ∧
    ∀ calls, ∀ p ∈ (reached d c calls).commitments, ∃ before call rest,
      calls = before ++ call :: rest ∧ p ∉ (reached d c before).commitments ∧
        call.Commits d c (reached d c before) p := by
  refine ⟨fun s call => ?_, fun s call => call.grows.commitments, fun calls p => ?_⟩
  · rcases call.commits (d := d) (c := c) (s := s) with same | ⟨p, added, commits⟩
    · exact .inl same
    · by_cases known : p ∈ s.commitments
      · exact .inl (added.trans (OrderedSet.insert_of_mem known))
      · exact .inr ⟨p, known, added, commits⟩
  · -- from the last call backwards, so that a commitment is traced to the call that added it
    induction calls using List.reverseRecOn with
    | nil =>
      intro member
      simp only [reached, List.foldl_nil, State.withBeliefs_frame] at member
      exact absurd member OrderedSet.not_mem_empty
    | append_singleton calls call ih =>
      intro member
      rw [reached_concat] at member
      by_cases known : p ∈ (reached d c calls).commitments
      · obtain ⟨before, first, rest, rfl, fresh, commits⟩ := ih known
        exact ⟨before, first, rest ++ [call], by simp, fresh, commits⟩
      · exact ⟨calls, call, [], rfl, known, Call.mem_commitments member known⟩

theorem errand_answer_has_reason : ∃ before call rest, errandAnswered = before ++ call :: rest ∧
    ⟨"late", .bool true⟩ ∉ (reached errand {} before).commitments ∧
      call.Commits errand {} (reached errand {} before) ⟨"late", .bool true⟩ :=
  (commitments_have_reasons errand {}).2.2 errandAnswered ⟨"late", .bool true⟩ (by decide +kernel)

end Dialogue
