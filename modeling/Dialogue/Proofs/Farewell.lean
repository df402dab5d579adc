import Dialogue.Proofs.Visit

/-!
How a dialogue ends. The user's farewell ends it at once, and leaves the system one more move. That
is its own farewell unless a greeting still waits to be returned or the user's farewell was
doubtful, so that it is clarified. Nothing is said or changed any more once the dialogue has ended.
-/
namespace Dialogue

namespace State

/-- The last move is the system's farewell, and nothing is left to be said. -/
def TookLeave (s : State) : Prop :=
  s.agenda = [] ∧ s.moves.getLast? = some (.quit .system, true)

/-- No greeting and no farewell of the user was doubtful. -/
def ClearlyGreeted (c : Config) (s : State) : Prop :=
  ∀ x ∈ s.moves, x.1.speaker = .user → x.1.act = .greet ∨ x.1.act = .quit →
    x.1.isDoubtful c = false

theorem ClearlyGreeted.before {c : Config} {s t : State} (h : t.ClearlyGreeted c)
    (moves : s.moves ⊆ t.moves) : s.ClearlyGreeted c :=
  fun x recorded => h x (moves recorded)

/-- How the state `t`, in which a dialogue has ended, stems from the state `s` by the farewell `m`
of the user, after which the system said `said`. -/
structure Parting (c : Config) (s : State) (m said : Move) (t : State) : Prop where
  going : s.terminated = false
  user : m.speaker = .user
  quits : m.act = .quit
  greetings : ∀ x ∈ s.agenda, x = .greet .system
  moves : t.moves = s.moves ++ [(m, true), (said, true)]
  /-- After a farewell that is not doubtful the system says what is next, its own farewell last. -/
  clear : m.isDoubtful c = false → said :: t.agenda = s.agenda ++ [.quit .system]
  /-- A doubtful farewell is clarified, and the farewell of the system is never made. -/
  doubtful : m.isDoubtful c = true → said.act ≠ .quit ∧ t.agenda = s.agenda ++ [.quit .system]

namespace Parting

variable {c : Config} {s t u : State} {m said : Move}

theorem keep (h : s.Parting c m said t) (moves : u.moves = t.moves) (agenda : u.agenda = t.agenda) :
    s.Parting c m said u where
  going := h.going
  user := h.user
  quits := h.quits
  greetings := h.greetings
  moves := moves.trans h.moves
  clear sure := agenda ▸ h.clear sure
  doubtful doubt := agenda ▸ h.doubtful doubt

theorem tookLeave_iff (h : s.Parting c m said t) :
    t.TookLeave ↔ m.isDoubtful c = false ∧ s.agenda = [] := by
  constructor
  · rintro ⟨empty, _⟩
    cases doubt : m.isDoubtful c with
    | true =>
      have left := (h.doubtful doubt).2
      simp [empty] at left
    | false =>
      have said := congrArg List.length (h.clear doubt)
      simp only [empty, List.length_cons, List.length_nil, List.length_append] at said
      exact ⟨rfl, List.length_eq_zero_iff.mp (by omega)⟩
  · rintro ⟨sure, empty⟩
    have said := h.clear sure
    simp only [empty, List.nil_append, List.cons.injEq] at said
    exact ⟨said.2, by simp [h.moves, said.1]⟩

theorem tookLeave_of_clearlyGreeted (h : s.Parting c m said t) (clear : t.ClearlyGreeted c)
    (empty : s.ClearlyGreeted c → s.agenda = []) : t.TookLeave :=
  h.tookLeave_iff.mpr ⟨clear (m, true) (by simp [h.moves]) h.user (.inr h.quits),
    empty (clear.before (by simp [h.moves]))⟩

end Parting
end State

namespace Engine

variable {e : Engine} {s t : State} {given : Option Move} {o : TurnOutcome}
  {os : List TurnOutcome} {limit : Nat} {x : Exchange} {utterance : String}

/-- A tick says what is next on the agenda. -/
theorem tick_agenda (valid : e.config.validate = .ok ()) (visits : e.Visits s)
    (ticks : e.tick s = .ok o) :
    o.state.agenda = s.agenda.tail ∧ o.state.terminated = s.terminated := by
  obtain ⟨agenda, -, -, ended⟩ := (tick_eq_ok ticks).selected
  have free : (s.beginCycle .system).pending = none := by simp [visits.free]
  have returns := State.integrate_returns (d := e.domain) (c := e.config) free
    (fun m heard => absurd heard (Option.not_mem_none m))
  have next := State.select_of_sure (d := e.domain) (visits.sure_of_tick valid)
  simp only [develop, select, State.select_terminated] at agenda ended
  cases returns with
  | greeting said | farewell said => contradiction
  | nothing _ same going =>
    exact ⟨(agenda.trans next.1).trans (by simp [integrate, same]), ended.trans going⟩

namespace Initiative

theorem agenda_suffix (valid : e.config.validate = .ok ()) (visits : e.Visits s)
    (goes : e.Initiative limit s os t) :
    t.agenda <:+ s.agenda ∧ t.terminated = s.terminated := by
  induction goes with
  | spent | stopped => exact ⟨List.suffix_refl _, rfl⟩
  | rested _ _ ticks =>
    obtain ⟨agenda, going⟩ := tick_agenda valid visits ticks
    exact ⟨agenda ▸ List.tail_suffix _, going⟩
  | worked _ _ ticks _ _ ih =>
    obtain ⟨agenda, going⟩ := tick_agenda valid visits ticks
    obtain ⟨later, still⟩ := ih (visits.ticked ticks)
    exact ⟨later.trans (agenda ▸ List.tail_suffix _), still.trans going⟩

theorem nothing_of_ended (goes : e.Initiative limit s os t) (ended : s.terminated = true) :
    t = s := by
  cases goes with
  | spent | stopped => rfl
  | rested going | worked going => simp [ended] at going

/-- While the dialogue goes on and the floor is the system's, the first cycle says what is next. -/
theorem agenda_suffix_tail (valid : e.config.validate = .ok ()) (visits : e.Visits s)
    (goes : e.Initiative limit s os t) (cycles : 1 ≤ limit) (going : s.terminated = false)
    (floor : s.nextSpeaker = .system) : t.agenda <:+ s.agenda.tail := by
  cases goes with
  | spent => contradiction
  | stopped stop => simp [going, floor] at stop
  | rested _ _ ticks => exact (tick_agenda valid visits ticks).1 ▸ List.suffix_refl _
  | worked _ _ ticks _ later =>
    have first := (tick_agenda valid visits ticks).1
    exact first ▸ (later.agenda_suffix valid (visits.ticked ticks)).1

end Initiative

/-- A turn of the user ends the dialogue by a farewell. Otherwise the dialogue goes on, and if the
agenda was empty it is so again, unless a doubtful greeting was heard. -/
theorem turn_parting (visits : e.Visits s) (done : e.turn s utterance = .ok o) :
    (o.state.terminated = true ∧ ∃ m said, s.Parting e.config m said o.state) ∨
    o.state.terminated = false ∧
      (o.state.ClearlyGreeted e.config → s.agenda = [] → o.state.agenda = []) := by
  have going := going_of_turn done
  obtain ⟨h, hears, finishes⟩ := turn_eq_ok done
  obtain ⟨agenda, -, moves, ended⟩ := finishes.selected
  have own := interpret_speaker hears
  have free : (attentive s h).pending = none := by simp [visits.free]
  have returns := State.integrate_returns (d := e.domain) (c := e.config) free own
  change (attentive s h).Returns e.config h.move (e.integrate (attentive s h) h.move).state
    at returns
  simp only [develop, select, State.select_moves, State.select_terminated] at agenda moves ended
  generalize (e.integrate (attentive s h) h.move).state = i at *
  cases returns with
  | @farewell m said quits recorded doubt waits stopped =>
    obtain ⟨said', selected, sure, unsure⟩ :=
      State.select_of_agenda (d := e.domain) (c := e.config) (s := i) (by simp [waits])
    rw [doubt, ← agenda, waits] at sure unsure
    refine .inl ⟨ended.trans stopped, m, said', going, own m said, quits,
      visits.courteous.greetings going, ?_, by simpa using sure, by simpa using unsure⟩
    simp [moves, recorded, selected]
  | @greeting m said greets recorded doubt waits same =>
    refine .inr ⟨by simp [ended, same, going], fun clear empty => ?_⟩
    have certain := clear (m, true) (by simp [moves, recorded]) (own m said) (.inl greets)
    simp [agenda, (State.select_of_sure (doubt.trans certain)).1, waits, empty]
  | nothing plain waits same =>
    refine .inr ⟨by simp [ended, same, going], fun _ empty => ?_⟩
    have left := State.select_agenda_suffix (d := e.domain) (c := e.config) (s := i)
    simpa [waits, empty, ← agenda] using left

/-- An answer to an utterance puts more on record. -/
theorem respond_moves (done : e.respond s utterance = .ok x) : s.moves ⊆ x.state.moves := by
  obtain ⟨first, later, turns, goes, _⟩ := respond_eq_ok done
  obtain ⟨h, _, finishes⟩ := turn_eq_ok turns
  intro recorded among
  simp [goes.moves, finishes.moves, among]

/-- How a dialogue stands after requests of users. While it goes on, nothing is left on the agenda
unless a greeting was doubtful; it has ended by a farewell in a state where it stood like that. -/
theorem Converses.course (valid : e.config.validate = .ok ())
    (cycles : 1 ≤ e.config.maxSystemCycles) (path : e.Converses e.initialState t) :
    (t.terminated = false ∧ (t.ClearlyGreeted e.config → t.agenda = [])) ∨
    t.terminated = true ∧ ∃ s m said, e.Converses e.initialState s ∧
      (s.ClearlyGreeted e.config → s.agenda = []) ∧ s.Parting e.config m said t := by
  induction path with
  | here =>
    exact .inl ⟨State.withBeliefs_going.2.1, fun _ => State.withBeliefs_going.1⟩
  | @responded s utterance x path done ih =>
    obtain ⟨first, later, turns, goes, _⟩ := respond_eq_ok done
    have visits := path.visits .start
    obtain ⟨_, before⟩ : s.terminated = false ∧ _ :=
      ih.resolve_right fun stopped => by simp [going_of_turn turns] at stopped
    rcases turn_parting visits turns with ⟨ended, m, said, parting⟩ | ⟨going, left⟩
    · rw [goes.nothing_of_ended ended]
      exact .inr ⟨ended, s, m, said, path, before, parting⟩
    · obtain ⟨fewer, still⟩ := goes.agenda_suffix valid (visits.turned turns)
      refine .inl ⟨still.trans going, fun clear => ?_⟩
      have emptied := left (clear.before (by simp [goes.moves]))
        (before (clear.before (respond_moves done)))
      simpa [emptied] using fewer
  | @opened s x path done ih =>
    obtain ⟨os, goes⟩ := opening_eq_ok done
    have visits := (path.visits .start).opened
    rcases ih with ⟨going, before⟩ | ⟨ended, s', m, said, earlier, before, parting⟩
    · have opening : (e.openingState s).terminated = false := by simp [going]
      refine .inl ⟨(goes.agenda_suffix valid visits).2.trans opening, fun clear => ?_⟩
      have emptied := before (clear.before (by simp [goes.moves]))
      have fewer := goes.agenda_suffix_tail valid visits cycles opening (by simp)
      rcases openingState_agenda (e := e) (s := s) with same | ⟨_, greeting⟩
      · simpa [same, emptied] using fewer
      · simpa [greeting, emptied] using fewer
    · have stopped := goes.nothing_of_ended (by simp [ended])
      have agenda : (e.openingState s).agenda = s.agenda :=
        openingState_agenda.resolve_right fun silent => by simp [parting.moves] at silent
      exact .inr ⟨by simp [stopped, ended], s', m, said, earlier, before,
        parting.keep (by simp [stopped]) (by simp [stopped, agenda])⟩

/-- Nothing is said or changed any more once a dialogue has ended. -/
theorem Converses.of_ended (ended : s.terminated = true) (path : e.Converses s t) :
    t.terminated = true ∧ t.moves = s.moves ∧ t.qud = s.qud ∧ t.commitments = s.commitments ∧
      t.plan = s.plan := by
  induction path with
  | here => exact ⟨ended, rfl, rfl, rfl, rfl⟩
  | responded _ done ih =>
    obtain ⟨first, later, turns, _⟩ := respond_eq_ok done
    have going := going_of_turn turns
    simp [ih.1] at going
  | opened _ done ih =>
    obtain ⟨os, goes⟩ := opening_eq_ok done
    rw [goes.nothing_of_ended (by simp [ih.1])]
    simpa using ih

theorem respond_of_ended (ended : s.terminated = true) :
    e.respond s utterance = .error ⟨.dialogueEnded, false⟩ := by
  simp only [respond, turn, ended, if_true]
  rfl

/-- A dialogue that has ended has done so by a farewell of the user. The system took its leave if
and only if the farewell was not doubtful and no greeting still waited to be returned; so it did if
all greetings and the farewell were heard clearly. From then on nothing more is said or changed. -/
theorem farewell_ends_dialogue (e : Engine) (valid : e.config.validate = .ok ())
    (cycles : 1 ≤ e.config.maxSystemCycles) :
    (∀ t, e.Converses e.initialState t → t.terminated = true →
      (∃ s m said, e.Converses e.initialState s ∧ s.Parting e.config m said t ∧
        (t.TookLeave ↔ m.isDoubtful e.config = false ∧ s.agenda = [])) ∧
      (t.ClearlyGreeted e.config → t.TookLeave)) ∧
    ∀ t, t.terminated = true →
      (∀ utterance, e.respond t utterance = .error ⟨.dialogueEnded, false⟩) ∧
      ∀ u, e.Converses t u → u.moves = t.moves ∧ u.qud = t.qud ∧ u.commitments = t.commitments ∧
        u.plan = t.plan := by
  refine ⟨fun t path ended => ?_,
    fun t ended => ⟨fun _ => respond_of_ended ended, fun u path => ?_⟩⟩
  · obtain ⟨_, s, m, said, earlier, before, parting⟩ :=
      (path.course valid cycles).resolve_left (by simp [ended])
    exact ⟨⟨s, m, said, earlier, parting, parting.tookLeave_iff⟩,
      fun clear => parting.tookLeave_of_clearlyGreeted clear before⟩
  · exact (path.of_ended ended).2

/-- An engine that hears greetings and farewells, but is only sure of one. -/
def leaving : Engine :=
  { obliging with
    interpreter := fun utterance _ => .done (
      if utterance = "bye" then .quit .user
      else if utterance = "hi" then (Move.greet .user).mumbled
      else (Move.quit .user).mumbled) }

/-- The farewell that is heard clearly is returned, and opening the dialogue again adds nothing. -/
theorem leaving_took_leave : leaving.config.validate = .ok () ∧
    1 ≤ leaving.config.maxSystemCycles ∧ ∃ x y,
      leaving.respond leaving.initialState "bye" = .ok x ∧ x.state.terminated = true ∧
      x.state.TookLeave ∧ leaving.opening x.state = .ok y ∧ y.state.moves = x.state.moves := by
  have valid : leaving.config.validate = .ok () := rfl
  have cycles : 1 ≤ leaving.config.maxSystemCycles := by decide
  obtain ⟨x, y, done, opens, ended, clear⟩ : ∃ x y,
      leaving.respond leaving.initialState "bye" = .ok x ∧ leaving.opening x.state = .ok y ∧
        x.state.terminated = true ∧ x.state.ClearlyGreeted leaving.config :=
    ⟨_, _, rfl, rfl, rfl, by unfold State.ClearlyGreeted; decide +kernel⟩
  obtain ⟨ends, after⟩ := farewell_ends_dialogue leaving valid cycles
  have took := (ends x.state (.responded .here done) ended).2 clear
  have silent := (after x.state ended).2 y.state (.opened .here opens)
  exact ⟨valid, cycles, x, y, done, ended, took, opens, silent.1⟩

/-- The system does not always take its leave when the dialogue has ended. A farewell that was hard
to understand is clarified but has ended the dialogue nevertheless. Where a greeting was hard to
understand, it is returned in place of the farewell. -/
theorem mumbled_farewell_not_returned : leaving.config.validate = .ok () ∧
    1 ≤ leaving.config.maxSystemCycles ∧
    Binary32.zero.le (Move.quit .user).mumbled.confidence = true ∧
    (Move.quit .user).mumbled.confidence.le .one = true ∧
    (∃ x, leaving.respond leaving.initialState "so long" = .ok x ∧ x.state.terminated = true ∧
      x.state.agenda = [.quit .system] ∧
      x.moves = [.feedback .system .notUnderstood] ∧ ¬ x.state.TookLeave) ∧
    ∃ x y, leaving.respond leaving.initialState "hi" = .ok x ∧
      leaving.respond x.state "bye" = .ok y ∧ y.state.terminated = true ∧
      y.state.agenda = [.quit .system] ∧ y.moves = [.greet .system] ∧ ¬ y.state.TookLeave := by
  unfold State.TookLeave
  refine ⟨rfl, by decide, by decide, by decide, ⟨_, rfl, rfl, ?_⟩, _, _, rfl, rfl, rfl, ?_⟩ <;>
    decide +kernel

end Engine
end Dialogue
