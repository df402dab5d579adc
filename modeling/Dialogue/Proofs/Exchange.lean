import Dialogue.Proofs.Discussion

/-!
How an exchange goes. The user's cycle comes first, then the system goes on while it has the floor,
each cycle from the state that the one before left. What is put on record is what was heard and what
was said, in this order, and nothing is said after a move that hands over the floor.
-/
namespace Dialogue

namespace State

variable {d : Domain} {c : Config} {s : State} {given : Option Move} {m : Move}

/-- Integration puts the move that waits on record, as integrated if a rule fires. -/
theorem integrate_moves : (s.integrate d c given).state.moves = s.moves ++
    ((s.setPending given).pending.map (·, (s.integrate d c given).rule.isSome)).toList := by
  rcases s.integrate_cases d c given with ⟨r, after, fires, outcome⟩ | ⟨_, outcome⟩
  · rcases fires.recorded with ⟨m, pending, moves⟩ | ⟨free, moves⟩
    · simp [outcome, pending, moves]
    · simp [outcome, free, moves]
  · simp [outcome]

theorem integrate_cycle : (s.integrate d c given).state.cycle = s.cycle := by
  rcases s.integrate_cases d c given with ⟨r, after, fires, outcome⟩ | ⟨_, outcome⟩
  · have same : after.cycle = (s.setPending given).cycle := by cases fires <;> simp
    simp [outcome, same]
  · simp [outcome]

/-- Selection puts the move that it selects on record. -/
theorem select_moves :
    (s.select d c).state.moves = s.moves ++ ((s.select d c).move.map (·, true)).toList := by
  rcases s.select_cases d c with ⟨r, after, m, fires, outcome⟩ | ⟨_, outcome⟩
  · simp [outcome, Selection.move, fires.recorded.1]
  · simp [outcome, Selection.move]

theorem select_cycle : (s.select d c).state.cycle = s.cycle := by
  rcases s.select_cases d c with ⟨r, after, m, fires, outcome⟩ | ⟨_, outcome⟩
  · have same : after.cycle = s.cycle := by
      cases fires with
      | pursued => split <;> simp
      | _ => simp
    simp [outcome, same]
  · simp [outcome]

/-- Selection leaves the floor with the system only after a move that keeps it. -/
theorem select_floor : (s.select d c).state.nextSpeaker =
    if (s.select d c).move.any (!·.yieldsFloor) then .system else .user := by
  rcases s.select_cases d c with ⟨r, after, m, fires, outcome⟩ | ⟨_, outcome⟩
  · cases floor : m.yieldsFloor <;> simp [outcome, Selection.move, floor]
  · simp [outcome, Selection.move]

end State

namespace Engine

/-- Cycles of the system from a state to another, while it has the floor and the dialogue goes on.
They end with the first quiescent one, and there are no more than a limit allows. -/
inductive Initiative (e : Engine) : Nat → State → List TurnOutcome → State → Prop
  | spent {s} : Initiative e 0 s [] s
  | stopped {limit s} (stop : s.terminated = true ∨ s.nextSpeaker ≠ .system) :
      Initiative e (limit + 1) s [] s
  | rested {limit s o} (going : s.terminated = false) (floor : s.nextSpeaker = .system)
      (ticks : e.tick s = .ok o) (quiet : o.record.isQuiescent = true) :
      Initiative e (limit + 1) s [o] o.state
  | worked {limit s o os t} (going : s.terminated = false) (floor : s.nextSpeaker = .system)
      (ticks : e.tick s = .ok o) (busy : o.record.isQuiescent = false)
      (later : Initiative e limit o.state os t) : Initiative e (limit + 1) s (o :: os) t

variable {e : Engine} {s t : State} {given : Option Move} {o : TurnOutcome} {os : List TurnOutcome}
  {x y : Exchange} {utterance : String} {limit : Nat}

theorem push_moves (os : List TurnOutcome) : (x.push o).moves ++ os.filterMap (·.move) =
    x.moves ++ (o :: os).filterMap (·.move) := by
  cases move : o.move <;> simp [Exchange.push, move]

theorem push_utterances (os : List TurnOutcome) :
    (x.push o).utterances ++ os.filterMap (·.utterance) =
      x.utterances ++ (o :: os).filterMap (·.utterance) := by
  cases words : o.utterance <;> simp [Exchange.push, words]

namespace Finishes

theorem moves (h : e.Finishes s given o) : o.state.moves = s.moves ++
    ((s.setPending given).pending.map (·, o.record.updateRule.isSome)).toList ++
      (o.move.map (·, true)).toList := by
  have same : o.state.moves = (e.develop s given).2.state.moves := by
    rw [h.state]
    split <;> simp
  simp only [same, h.move, h.updateRule, develop, select, integrate, State.select_moves,
    State.integrate_moves]

theorem state_cycle (h : e.Finishes s given o) : o.state.cycle = s.cycle := by
  have same : o.state.cycle = (e.develop s given).2.state.cycle := by
    rw [h.state]
    split <;> simp
  simp only [same, develop, select, integrate, State.select_cycle, State.integrate_cycle]

/-- The system keeps the floor after a move that does not hand it over, and where integration did
something but there is nothing to say. -/
theorem floor (h : e.Finishes s given o) : o.state.nextSpeaker =
    if o.move.elim o.record.updateRule.isSome (!·.yieldsFloor) then .system else .user := by
  have selected : (e.develop s given).2.state.nextSpeaker =
      if o.move.any (!·.yieldsFloor) then .system else .user := by
    rw [h.move]
    exact State.select_floor
  rw [h.state]
  cases move : o.move with
  | none => cases fired : o.record.updateRule <;> simp [selected, move]
  | some m => simp [selected, move]

theorem floor_of_quiescent (h : e.Finishes s given o) (quiet : o.record.isQuiescent = true) :
    o.state.nextSpeaker = .user := by
  simp only [CycleRecord.isQuiescent, Bool.and_eq_true, Option.isNone_iff_eq_none] at quiet
  have silent : o.move = none := by
    have unchosen := h.selectionRule.symm.trans quiet.2
    have selected := h.move
    simp_all [Selection.rule, Selection.move]
  simp [h.floor, silent, quiet.1]

end Finishes

theorem runSystem_eq_ok (done : e.runSystem limit x = .ok y) :
    ∃ os, e.Initiative limit x.state os y.state ∧ y.records = x.records ++ os.map (·.record) ∧
      y.moves = x.moves ++ os.filterMap (·.move) ∧
      y.utterances = x.utterances ++ os.filterMap (·.utterance) := by
  induction limit generalizing x with
  | zero =>
    cases done
    exact ⟨[], .spent, by simp, by simp, by simp⟩
  | succ limit ih =>
    rw [runSystem] at done
    split at done
    · rename_i stop
      cases done
      exact ⟨[], .stopped (by simpa using stop), by simp, by simp, by simp⟩
    · rename_i goes
      obtain ⟨going, floor⟩ : x.state.terminated = false ∧ x.state.nextSpeaker = .system := by
        simpa using goes
      obtain ⟨o, ticks, rest⟩ := bind_eq_ok.mp done
      split at rest
      · rename_i quiet
        cases rest
        exact ⟨[o], .rested going floor ticks quiet, rfl, by simpa using push_moves [],
          by simpa using push_utterances []⟩
      · rename_i busy
        obtain ⟨os, later, records, moves, utterances⟩ := ih rest
        exact ⟨o :: os, .worked going floor ticks (by simpa using busy) later,
          by simp [records, Exchange.push], moves.trans (push_moves os),
          utterances.trans (push_utterances os)⟩

theorem respond_eq_ok (done : e.respond s utterance = .ok x) :
    ∃ first later, e.turn s utterance = .ok first ∧
      e.Initiative e.config.maxSystemCycles first.state later x.state ∧
      x.records = (first :: later).map (·.record) ∧
      x.moves = (first :: later).filterMap (·.move) ∧
      x.utterances = (first :: later).filterMap (·.utterance) := by
  obtain ⟨first, turns, rest⟩ := bind_eq_ok.mp done
  obtain ⟨later, goes, records, moves, utterances⟩ := runSystem_eq_ok rest
  exact ⟨first, later, turns, goes, by simp [records, Exchange.push],
    moves.trans (push_moves later), utterances.trans (push_utterances later)⟩

/-- Nothing is said after a move that hands over the floor, and the floor is with the user then. -/
structure Orderly (moves : List Move) (t : State) : Prop where
  last : moves.Pairwise fun earlier _ => earlier.yieldsFloor = false
  floor : ∀ m ∈ moves, m.yieldsFloor = true → t.nextSpeaker = .user

namespace Initiative

theorem length_le (h : e.Initiative limit s os t) : os.length ≤ limit := by
  induction h with
  | worked _ _ _ _ _ ih => simpa using ih
  | _ => simp

theorem nothing_of_floor (h : e.Initiative limit s os t) (user : s.nextSpeaker = .user) :
    os = [] ∧ t = s := by
  cases h with
  | spent | stopped => exact ⟨rfl, rfl⟩
  | rested _ floor | worked _ floor => simp [user] at floor

/-- If the floor is still with the system, the limit alone has ended its cycles. -/
theorem length_of_floor (h : e.Initiative limit s os t) (going : t.terminated = false)
    (floor : t.nextSpeaker = .system) : os.length = limit := by
  induction h with
  | spent => rfl
  | stopped stop => simp [going, floor] at stop
  | rested _ _ ticks quiet =>
    simp [(tick_eq_ok ticks).floor_of_quiescent quiet] at floor
  | worked _ _ _ _ _ ih => simpa using ih going floor

theorem moves (h : e.Initiative limit s os t) :
    t.moves = s.moves ++ (os.filterMap (·.move)).map (·, true) := by
  induction h with
  | spent | stopped => simp
  | @rested _ _ o _ _ ticks =>
    cases move : o.move <;> simp [(tick_eq_ok ticks).moves, move]
  | @worked _ _ o _ _ _ _ ticks _ _ ih =>
    cases move : o.move <;> simp [ih, (tick_eq_ok ticks).moves, move]

theorem voiced (h : e.Initiative limit s os t) :
    ∀ o ∈ os, e.Voices o.state o.move o.utterance := by
  induction h with
  | spent | stopped => simp
  | rested _ _ ticks => simpa using (tick_eq_ok ticks).voiced
  | worked _ _ ticks _ _ ih => exact List.forall_mem_cons.mpr ⟨(tick_eq_ok ticks).voiced, ih⟩

/-- What a cycle says keeps the order of what is said in the cycles of the system after it. -/
theorem orderly_cons (first : e.Finishes s given o) (h : e.Initiative limit o.state os t)
    (later : Orderly (os.filterMap (·.move)) t) : Orderly ((o :: os).filterMap (·.move)) t := by
  cases move : o.move with
  | none => simpa [move] using later
  | some m =>
    cases yields : m.yieldsFloor with
    | false =>
      simp only [List.filterMap_cons, move]
      exact ⟨List.pairwise_cons.mpr ⟨fun _ _ => yields, later.last⟩,
        List.forall_mem_cons.mpr ⟨fun hands => by simp [yields] at hands, later.floor⟩⟩
    | true =>
      have user : o.state.nextSpeaker = .user := by simp [first.floor, move, yields]
      obtain ⟨rfl, rfl⟩ := h.nothing_of_floor user
      exact ⟨by simp [move], by simp [user]⟩

theorem orderly (h : e.Initiative limit s os t) : Orderly (os.filterMap (·.move)) t := by
  induction h with
  | spent | stopped => exact ⟨.nil, by simp⟩
  | rested _ _ ticks => exact orderly_cons (tick_eq_ok ticks) (.spent (e := e)) ⟨.nil, by simp⟩
  | worked _ _ ticks _ later ih => exact orderly_cons (tick_eq_ok ticks) later ih

end Initiative

/-- The moves of cycles and their utterances go in step. -/
theorem aligned (voiced : ∀ o ∈ os, e.Voices o.state o.move o.utterance) :
    List.Forall₂ (fun m text => ∃ o ∈ os, o.said = some (m, text))
      (os.filterMap (·.move)) (os.filterMap (·.utterance)) := by
  induction os with
  | nil => exact .nil
  | cons o os ih =>
    obtain ⟨first, later⟩ := List.forall_mem_cons.mp voiced
    have rest : List.Forall₂ (fun m text => ∃ o' ∈ o :: os, o'.said = some (m, text))
        (os.filterMap (·.move)) (os.filterMap (·.utterance)) :=
      (ih later).imp fun _ _ ⟨o', among, said⟩ => ⟨o', List.mem_cons_of_mem _ among, said⟩
    obtain ⟨state, record, move, words⟩ := o
    cases first with
    | silent => exact rest
    | spoken => exact .cons ⟨_, List.mem_cons_self, rfl⟩ rest

/-- What an exchange is that answers an utterance of the user. -/
structure Transcript (e : Engine) (s : State) (utterance : String) (x : Exchange) : Prop where
  /-- The user's cycle is followed by cycles of the system. Every move comes with the words that the
  generator has for it in the state after its cycle, and stands where its words stand. -/
  cycles : ∃ first later, e.turn s utterance = .ok first ∧
    e.Initiative e.config.maxSystemCycles first.state later x.state ∧
    x.records = (first :: later).map (·.record) ∧
    x.moves = (first :: later).filterMap (·.move) ∧
    x.utterances = (first :: later).filterMap (·.utterance) ∧
    (∀ o ∈ first :: later, e.Voices o.state o.move o.utterance) ∧
    List.Forall₂ (fun m text => ∃ o ∈ first :: later, o.said = some (m, text)) x.moves x.utterances
  /-- The user's move, if there is one, and then those of the system are put on record. The user's
  move counts as integrated if the first cycle names an update rule. It is the one heard, or the one
  that waited already if that is equal. -/
  moves : ∃ heard user, e.interpret utterance (s.beginCycle .user) = .ok heard ∧
    (user = heard.move ∨ user = s.pending ∧ State.samePending user heard.move = true) ∧
    x.state.moves = s.moves ++
      (user.map (·, (x.records.head?.bind (·.updateRule)).isSome)).toList ++
      x.moves.map (·, true)
  orderly : Orderly x.moves x.state
  bounded : x.records.length ≤ 1 + e.config.maxSystemCycles
  /-- The system is left with the floor only by the limit. -/
  exhausted : x.state.terminated = false → x.state.nextSpeaker = .system →
    x.records.length = 1 + e.config.maxSystemCycles

/-- An exchange that is completed is a transcript of what was heard and said. The two parties take
turns: the system says nothing more once it has handed over the floor, and it does not keep the
floor unless the dialogue ends or its cycles are used up. -/
theorem respond_transcript (done : e.respond s utterance = .ok x) :
    e.Transcript s utterance x := by
  obtain ⟨first, later, turns, goes, records, moves, utterances⟩ := respond_eq_ok done
  obtain ⟨heard, hears, finishes⟩ := turn_eq_ok turns
  have voiced : ∀ o ∈ first :: later, e.Voices o.state o.move o.utterance :=
    List.forall_mem_cons.mpr ⟨finishes.voiced, goes.voiced⟩
  have attends : (attentive s heard).pending = s.pending ∧ (attentive s heard).moves = s.moves := by
    unfold attentive
    split <;> simp
  have length : x.records.length = 1 + later.length := by simp [records, Nat.add_comm]
  refine ⟨⟨first, later, turns, goes, records, moves, utterances, voiced, ?_⟩, ?_, ?_, ?_,
    fun going floor => ?_⟩
  · rw [moves, utterances]
    exact aligned voiced
  · refine ⟨heard, _, hears, attends.1 ▸ State.setPending_pending, ?_⟩
    cases move : first.move <;>
      simp [goes.moves, finishes.moves, attends.2, moves, move, records]
  · rw [moves]
    exact Initiative.orderly_cons finishes goes goes.orderly
  · have := goes.length_le
    omega
  · have := goes.length_of_floor going floor
    omega

/-- An engine for the errand. Whatever the user says, it hears that the errand is to be run. -/
def obliging : Engine where
  domain := errand
  interpreter _ _ := .done (.request .user "post")
  generator _ _ := .done "..."

/-- The user asks for the errand, and the system asks its question, which leaves the floor with the
user. -/
theorem obliging_transcript : ∃ x, obliging.respond obliging.initialState "post" = .ok x ∧
    x.moves = [.ask .system (.yesNo "late")] ∧
    obliging.Transcript obliging.initialState "post" x ∧ x.state.nextSpeaker = .user := by
  obtain ⟨x, done, moves⟩ : ∃ x, obliging.respond obliging.initialState "post" = .ok x ∧
      x.moves = [.ask .system (.yesNo "late")] := ⟨_, rfl, rfl⟩
  have transcript := respond_transcript done
  have asked : Move.ask .system (.yesNo "late") ∈ x.moves := by simp [moves]
  exact ⟨x, done, moves, transcript, transcript.orderly.floor _ asked rfl⟩

end Engine
end Dialogue
