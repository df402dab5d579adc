import Dialogue.Cycle
import Dialogue.Proofs.Clarification
import Dialogue.Proofs.Conditions
import Dialogue.Proofs.Replay
import Dialogue.Proofs.Standing

/-!
What becomes of a move that is given to integration. It is put on record once, whether or not a rule
takes it, and none is left waiting. A move that no rule takes changes nothing but the confidence and
the record.
-/
namespace Dialogue

namespace State

variable {s t : State} {given : Option Move} {before : List Entry} {m : Move} {q : Question}
  {p : Proposition} {id : StepId} {plan : Plan} {speaker : Speaker} {x : Binary32}

/-! The history is only added to. -/

/-- An operation only adds to the history. -/
theorem prefix_run (h : before <+: s.history) (op : Mutation) : before <+: (op.run s).history := by
  have records := op.records s
  generalize op.run s = t at records ⊢
  cases records with
  | nothing => exact h
  | change applies =>
    rw [log_history, (Delta.change?_frame applies).1]
    exact h.trans (List.prefix_append _ _)

@[grind ←] theorem prefix_pushQuestion (h : before <+: s.history) :
    before <+: (s.pushQuestion q).history := prefix_run h (.pushQuestion q)

@[grind ←] theorem prefix_popQuestion (h : before <+: s.history) :
    before <+: s.popQuestion.history := prefix_run h .popQuestion

@[grind ←] theorem prefix_commit (h : before <+: s.history) : before <+: (s.commit p).history :=
  prefix_run h (.commit p)

@[grind ←] theorem prefix_enqueue (h : before <+: s.history) : before <+: (s.enqueue m).history :=
  prefix_run h (.enqueue m)

@[grind ←] theorem prefix_loadPlan (h : before <+: s.history) :
    before <+: (s.loadPlan plan).history :=
  prefix_run h (.loadPlan plan)

@[grind ←] theorem prefix_startStep (h : before <+: s.history) :
    before <+: (s.startStep id).history :=
  prefix_run h (.startStep id)

@[grind ←] theorem prefix_completeStep (h : before <+: s.history) :
    before <+: (s.completeStep id).history := prefix_run h (.completeStep id)

@[grind ←] theorem prefix_startStepFor (h : before <+: s.history) :
    before <+: (s.startStepFor q).history := by
  unfold startStepFor
  split
  · exact prefix_startStep h
  · exact h

@[grind ←] theorem prefix_completeStepFor (h : before <+: s.history) :
    before <+: (s.completeStepFor q).history := prefix_run h (.completeStepFor q)

theorem prefix_setPending (h : before <+: s.history) :
    before <+: (s.setPending given).history := prefix_run h (.setPending given)

@[grind ←] theorem prefix_setConfidence (h : before <+: s.history) :
    before <+: (s.setConfidence x).history := prefix_run h (.setConfidence x)

@[grind ←] theorem prefix_terminate (h : before <+: s.history) : before <+: s.terminate.history :=
  prefix_run h .terminate

@[grind ←] theorem prefix_settle (h : before <+: s.history) : before <+: (s.settle q p).history :=
  prefix_completeStepFor (prefix_commit h)

@[grind ←] theorem prefix_ground (h : before <+: s.history) :
    before <+: (s.ground speaker).history := by
  unfold ground
  split
  · exact prefix_run h (.setGrounding true)
  · exact h

@[grind ←] theorem prefix_consume (h : before <+: s.history) : before <+: (s.consume m).history :=
  prefix_run (prefix_setConfidence (prefix_run h .takePending)) (.recordMove m true)

theorem prefix_abandonPending (h : before <+: s.history) : before <+: s.abandonPending.history := by
  unfold abandonPending
  split
  · exact prefix_run (prefix_setConfidence (prefix_run h .takePending)) (.recordMove _ false)
  · exact h

end State

theorem UpdateRule.Fires.history {d : Domain} {c : Config} {s after : State} {r : UpdateRule}
    (h : Fires d c s r after) : s.history <+: after.history := by
  have start := List.prefix_refl s.history
  cases h with
  | volunteered => exact State.prefix_ground (State.prefix_settle (State.prefix_popQuestion
      (State.prefix_pushQuestion (State.prefix_loadPlan (State.prefix_consume start)))))
  | _ => grind

namespace State

variable {d : Domain} {c : Config} {s : State} {given : Option Move} {m heard : Move}

/-- Integration only adds to the history. -/
theorem integrate_history : s.history <+: (s.integrate d c given).state.history := by
  have waiting : s.history <+: (s.setPending given).history :=
    prefix_setPending (List.prefix_refl _)
  rcases s.integrate_cases d c given with ⟨r, after, fires, outcome⟩ | ⟨_, outcome⟩
  · rw [outcome]
    exact waiting.trans fires.history
  · rw [outcome]
    exact prefix_abandonPending waiting

/-- A move that no rule takes leaves everything as it is but the confidence and the record. -/
theorem abandonPending_eq : (s.setPending given).abandonPending =
    { s with
      pending := none
      lastConfidence := (s.setPending given).abandonPending.lastConfidence
      history := (s.setPending given).abandonPending.history
      version := (s.setPending given).abandonPending.version } := by
  have standing : (s.setPending given).abandonPending.standing = s.standing := by simp
  have frame := (s.setPending given).abandonPending_frame
  have taken := (s.setPending given).abandonPending_pending
  generalize (s.setPending given).abandonPending = t at *
  cases t
  simp_all [State.standing]

end State

/-- What is abandoned drops the confidence to zero. -/
theorem State.abandonPending_lastConfidence {s : State} {m : Move} (waits : s.pending = some m) :
    (s.abandonPending.lastConfidence == .zero) = true := by
  have zero : Binary32.zero.clampUnit = .zero := by decide
  simp only [abandonPending, waits, recordMove_frame, setConfidence, zero]
  split
  · rename_i known
    exact known
  · simp only [log_frame]
    decide

/-- Numbers that are equal have the same bits, unless both are zero. -/
theorem Binary32.eq_or_zero_of_beq {x y : Binary32} (same : (x == y) = true) :
    x = y ∨ (x == zero) = true ∧ (y == zero) = true := by
  have zero_key : zero.key? = some 0 := by decide
  simp only [BEq.beq, zero_key] at same ⊢
  cases keyX : x.key? with
  | none => simp [keyX] at same
  | some a =>
    cases keyY : y.key? with
    | none => simp [keyX, keyY] at same
    | some b =>
      simp only [keyX, keyY, decide_eq_true_eq] at same
      subst same
      by_cases none : a = 0
      · exact .inr (by simp [none])
      · refine .inl ?_
        simp only [key?, isNegative, magnitude, Option.ite_none_left_eq_some,
          Option.some.injEq, decide_eq_true_eq] at keyX keyY
        have bits : x.bits.toNat = y.bits.toNat := by
          have := x.bits.toNat_lt
          have := y.bits.toNat_lt
          obtain ⟨_, keyX⟩ := keyX
          obtain ⟨_, keyY⟩ := keyY
          split at keyX <;> split at keyY <;> omega
        cases x
        cases y
        exact congrArg mk (UInt32.toNat_inj.mp bits)

/-- The same move, apart from the sign of a confidence of zero. -/
structure Move.Same (a b : Move) : Prop where
  speaker : a.speaker = b.speaker
  act : a.act = b.act
  addresses : a.addresses = b.addresses
  confidence : a.confidence = b.confidence ∨
    (a.confidence == .zero) = true ∧ (b.confidence == .zero) = true

/-- The move that waits is the one given, even where an equal one has waited before. -/
theorem State.setPending_same (s : State) (m : Move) :
    ∃ heard, (s.setPending (some m)).pending = some heard ∧ heard.Same m := by
  cases waits : (s.setPending (some m)).pending with
  | none =>
    obtain ⟨_, waiting, _⟩ := s.setPending_some m
    simp [waits] at waiting
  | some heard =>
    refine ⟨heard, rfl, ?_⟩
    obtain ⟨given, rfl | _, rfl | ⟨_, agrees⟩⟩ := setPending_eq_some waits
    · exact ⟨rfl, rfl, rfl, .inl rfl⟩
    · simp only [Move.agrees, Bool.and_eq_true, decide_eq_true_eq] at agrees
      obtain ⟨⟨⟨speaker, act⟩, addresses⟩, confidence⟩ := agrees
      exact ⟨speaker, act, addresses, Binary32.eq_or_zero_of_beq confidence⟩

/-- The move that a change has put on record, and whether as integrated. -/
def Entry.move? (e : Entry) : Option (Move × Bool) :=
  match e.delta with
  | .moveRecorded m integrated => some (m, integrated)
  | _ => none

structure State.Receives (d : Domain) (c : Config) (s : State) (m : Move) (x : Integration) :
    Prop where
  /-- The entries added to the history put one move on record, which is the one given. It is on
  record as integrated if a rule has fired. -/
  recorded : ∃ entries heard, x.state.history = s.history ++ entries ∧
    entries.filterMap Entry.move? = [(heard, x.rule.isSome)] ∧ heard.Same m
  /-- No move is left waiting. -/
  taken : x.state.pending = none
  /-- The candidates are the rules whose conditions hold while the move waits. -/
  candidates : UpdateRule.candidates d c s (some m) =
    UpdateRule.all.filter (·.applies d c (s.setPending (some m)))
  /-- The first candidate fires. -/
  first : x.rule = (UpdateRule.candidates d c s (some m)).head?
  /-- The rule that fires has its effect, and nothing is amiss. It is not one of those for a state
  without a move. -/
  fired : ∀ r, x.rule = some r → x.state = r.effect d c (s.setPending (some m)) ∧
    x.diagnostics = [] ∧ r ≠ .downdateQud ∧ r ≠ .execFindout
  /-- Where no rule fires, the move is amiss, the confidence is zero, and nothing else has changed
  but the record. -/
  unheard : x.rule = none → x.diagnostics = [.unintegratedMove m.tag] ∧
    (x.state.lastConfidence == .zero) = true ∧
    x.state = { s with
      pending := none
      lastConfidence := x.state.lastConfidence
      history := x.state.history
      version := x.state.version }

/-- No move is lost. Integration puts the move that it is given on record, once, and leaves none
waiting; the first rule whose condition holds takes it, and where there is none, the state is left
intact but for the confidence. -/
theorem integrate_receives (d : Domain) (c : Config) (s : State) (m : Move) :
    s.Receives d c m (s.integrate d c (some m)) := by
  obtain ⟨heard, waits, same⟩ := s.setPending_same m
  obtain ⟨first, effect⟩ := s.integrate_candidate d c (some m)
  refine ⟨?_, State.integrate_pending, UpdateRule.candidates_eq d c s (some m), first,
    fun r fired => ⟨effect r fired, ?_⟩, fun idle => ?_⟩
  · obtain ⟨entries, history⟩ : s.history <+: (s.integrate d c (some m)).state.history :=
      State.integrate_history
    refine ⟨entries, heard, history.symm, ?_, same⟩
    have moves : (s.integrate d c (some m)).state.moves = s.moves ++
        ((s.setPending (some m)).pending.map
          (·, (s.integrate d c (some m)).rule.isSome)).toList := State.integrate_moves
    rw [waits, Option.map_some, Option.toList_some] at moves
    have extended : (s.integrate d c (some m)).state.moves =
        s.moves ++ entries.filterMap Entry.move? := by
      simp only [State.moves, ← history, List.filterMap_append]
      rfl
    exact List.append_cancel_left (extended.symm.trans moves)
  · rcases s.integrate_cases d c (some m) with ⟨r', after, fires, outcome⟩ | ⟨_, outcome⟩
    · have same : r' = r := by simpa [outcome] using fired
      subst same
      refine ⟨by simp [outcome, Integration.diagnostics], ?_, ?_⟩
      · rintro rfl
        cases fires with
        | downdated free => simp [waits] at free
      · rintro rfl
        cases fires with
        | skipped free | begun free => simp [waits] at free
    · simp [outcome] at fired
  · rcases s.integrate_cases d c (some m) with ⟨r, after, _, outcome⟩ | ⟨_, outcome⟩
    · simp [outcome] at idle
    · rw [outcome]
      refine ⟨?_, ?_, State.abandonPending_eq⟩
      · simp [Integration.diagnostics, waits, Move.tag, same.act]
      · exact State.abandonPending_lastConfidence waits

end Dialogue
