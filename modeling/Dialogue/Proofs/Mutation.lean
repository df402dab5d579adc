import Dialogue.Proofs.Exchange
import Dialogue.Proofs.Replay
import Dialogue.Proofs.Stored

/-!
What an engine does to a state, it does by operations: a rule by a few of them, a cycle by those of
its rules, an exchange by those of its cycles. The confidences that they are given are those of
moves that are heard or wait already, or the ends of the unit interval, to which a confidence is
clamped.
-/
namespace Dialogue

namespace Mutation

def confidences : Mutation → List Binary32
  | recordMove m _ | enqueue m => [m.confidence]
  | setPending m => (m.map Move.confidence).toList
  | setConfidence c => [c]
  | _ => []

end Mutation

theorem Binary32.clampUnit_cases (x : Binary32) :
    x.clampUnit = zero ∨ x.clampUnit = one ∨ x.clampUnit = x := by
  unfold clampUnit
  split
  · exact .inl rfl
  · split
    · exact .inr (.inl rfl)
    · exact .inr (.inr rfl)

namespace State

variable {P : Binary32 → Prop} {s t u : State} {d : Domain} {c : Config} {m : Move}
  {given : Option Move}

/-- All confidences in a state are of a kind. -/
structure Sure (P : Binary32 → Prop) (s : State) : Prop where
  last : P s.lastConfidence
  agenda : ∀ m ∈ s.agenda, P m.confidence
  pending : ∀ m, s.pending = some m → P m.confidence
  history : ∀ e ∈ s.history, ∀ x ∈ e.delta.confidences, P x

theorem Sure.confidences (h : s.Sure P) : ∀ x ∈ s.confidences, P x := by
  intro x member
  simp only [State.confidences, List.mem_cons, List.mem_append, List.mem_map, List.mem_flatMap,
    Option.mem_toList, Option.map_eq_some_iff] at member
  obtain rfl | (⟨m, among, rfl⟩ | ⟨m, waits, rfl⟩) | ⟨e, entry, among⟩ := member
  · exact h.last
  · exact h.agenda m among
  · exact h.pending m waits
  · exact h.history e entry x among

theorem Sure.log (h : s.Sure P) {d : Delta} (change : ∀ x ∈ d.confidences, P x) :
    (s.log d).Sure P := by
  refine ⟨h.last, h.agenda, h.pending, fun e member => ?_⟩
  rcases List.mem_append.mp member with old | new
  · exact h.history e old
  · cases List.mem_singleton.mp new
    exact change

/-- Changes that have nothing to do with confidences. -/
theorem Sure.log_other (h : s.Sure P) {t : State} {d : Delta}
    (last : t.lastConfidence = s.lastConfidence) (agenda : t.agenda = s.agenda)
    (pending : t.pending = s.pending) (history : t.history = s.history)
    (change : d.confidences = []) : (t.log d).Sure P := by
  have same : t.Sure P :=
    ⟨last ▸ h.last, agenda ▸ h.agenda, pending ▸ h.pending, history ▸ h.history⟩
  exact same.log (by simp [change])

theorem Sure.setStep (h : s.Sure P) {id : StepId} {status : StepStatus} {d : Delta}
    (change : d.confidences = []) : (s.setStep id status d).Sure P := by
  unfold State.setStep
  split
  · exact h.log_other rfl rfl rfl rfl change
  · exact h

theorem Sure.run (zero : P .zero) (one : P .one) (h : s.Sure P) {op : Mutation}
    (given : ∀ x ∈ op.confidences, P x) : (op.run s).Sure P := by
  cases op with
  | pushQuestion | loadPlan | believe | beginCycle => exact h.log_other rfl rfl rfl rfl rfl
  | popQuestion | commit | setGrounding | giveFloor | terminate =>
    simp only [Mutation.run, popQuestion, commit, setGrounding, giveFloor, terminate]
    split
    · exact h
    · exact h.log_other rfl rfl rfl rfl rfl
  | startStep id | completeStep id => exact h.setStep rfl
  | completeStepFor q =>
    simp only [Mutation.run, completeStepFor]
    split
    · exact h.setStep rfl
    · exact h
  | recordMove m integrated => exact h.log given
  | enqueue m =>
    have sure : P m.confidence := given _ List.mem_cons_self
    have longer : { s with agenda := s.agenda ++ [m] }.Sure P :=
      ⟨h.last, List.forall_mem_append.mpr ⟨h.agenda, List.forall_mem_singleton.mpr sure⟩,
        h.pending, h.history⟩
    exact longer.log given
  | dequeue =>
    simp only [Mutation.run, dequeue]
    split
    · exact h
    · rename_i m rest waiting
      obtain ⟨first, others⟩ := List.forall_mem_cons.mp (waiting ▸ h.agenda)
      have shorter : { s with agenda := rest }.Sure P := ⟨h.last, others, h.pending, h.history⟩
      exact shorter.log (List.forall_mem_singleton.mpr first)
  | setPending m =>
    simp only [Mutation.run, setPending]
    split
    · exact h
    · have sure : ∀ k, m = some k → P k.confidence := fun k waits =>
        given _ (by simp [Mutation.confidences, waits])
      have replaced : { s with pending := m }.Sure P := ⟨h.last, h.agenda, sure, h.history⟩
      exact replaced.log given
  | takePending =>
    simp only [Mutation.run, takePending]
    split
    · exact h
    · rename_i m waiting
      have taken : { s with pending := none }.Sure P := ⟨h.last, h.agenda, by simp, h.history⟩
      exact taken.log (List.forall_mem_singleton.mpr (h.pending m waiting))
  | setConfidence c =>
    have clamped : P c.clampUnit := by
      rcases c.clampUnit_cases with bound | bound | bound <;> rw [bound]
      · exact zero
      · exact one
      · exact given c List.mem_cons_self
    simp only [Mutation.run, setConfidence]
    split
    · exact h
    · have changed : { s with lastConfidence := c.clampUnit }.Sure P :=
        ⟨clamped, h.agenda, h.pending, h.history⟩
      exact changed.log (List.forall_mem_singleton.mpr clamped)

/-! From one state to another by operations. -/

/-- Operations lead from the one state to the other, and all confidences that they are given are of
a kind. -/
def Mutates (P : Binary32 → Prop) (s t : State) : Prop :=
  ∃ ops : List Mutation, t = ops.foldl Mutation.run s ∧ ∀ op ∈ ops, ∀ x ∈ op.confidences, P x

namespace Mutates

theorem refl : s.Mutates P s := ⟨[], rfl, by simp⟩

theorem trans (h : s.Mutates P t) (next : t.Mutates P u) : s.Mutates P u := by
  obtain ⟨ops, rfl, given⟩ := h
  obtain ⟨later, rfl, also⟩ := next
  exact ⟨ops ++ later, List.foldl_append.symm, List.forall_mem_append.mpr ⟨given, also⟩⟩

theorem run (h : s.Mutates P t) (op : Mutation) (given : ∀ x ∈ op.confidences, P x) :
    s.Mutates P (op.run t) :=
  h.trans ⟨[op], rfl, List.forall_mem_singleton.mpr given⟩

/-- An operation that is not given a confidence. -/
theorem step (h : s.Mutates P t) (op : Mutation) (free : op.confidences = []) :
    s.Mutates P (op.run t) :=
  h.run op (by simp [free])

theorem setPending (h : s.Mutates P t) (sure : ∀ m, given = some m → P m.confidence) :
    s.Mutates P (t.setPending given) :=
  h.run (.setPending given) fun x waits => by
    obtain ⟨m, rfl, rfl⟩ := Option.map_eq_some_iff.mp (Option.mem_toList.mp waits)
    exact sure m rfl

theorem setConfidence (h : s.Mutates P t) {x : Binary32} (sure : P x) :
    s.Mutates P (t.setConfidence x) :=
  h.run (.setConfidence x) (List.forall_mem_singleton.mpr sure)

theorem recordMove (h : s.Mutates P t) {integrated : Bool} (sure : P m.confidence) :
    s.Mutates P (t.recordMove m integrated) :=
  h.run (.recordMove m integrated) (List.forall_mem_singleton.mpr sure)

theorem enqueue (h : s.Mutates P t) (sure : P m.confidence) : s.Mutates P (t.enqueue m) :=
  h.run (.enqueue m) (List.forall_mem_singleton.mpr sure)

theorem consume (h : s.Mutates P t) (sure : P m.confidence) : s.Mutates P (t.consume m) :=
  ((h.step .takePending rfl).setConfidence sure).recordMove sure

theorem emit (h : s.Mutates P t) (sure : P m.confidence) : s.Mutates P (t.emit m) :=
  (h.recordMove sure).step (.setGrounding false) rfl

theorem ground (h : s.Mutates P t) {speaker : Speaker} : s.Mutates P (t.ground speaker) := by
  unfold State.ground
  split
  · exact h.step (.setGrounding true) rfl
  · exact h

theorem settle (h : s.Mutates P t) {q : Question} {p : Proposition} :
    s.Mutates P (t.settle q p) :=
  (h.step (.commit p) rfl).step (.completeStepFor q) rfl

theorem startStepFor (h : s.Mutates P t) {q : Question} : s.Mutates P (t.startStepFor q) := by
  unfold State.startStepFor
  split
  · exact h.step (.startStep _) rfl
  · exact h

end Mutates

section

variable (zero : P .zero) (one : P .one)
include zero one

theorem Mutates.sure (h : s.Mutates P t) (sure : s.Sure P) : t.Sure P := by
  obtain ⟨ops, rfl, given⟩ := h
  induction ops generalizing s with
  | nil => exact sure
  | cons op ops ih =>
    obtain ⟨now, later⟩ := List.forall_mem_cons.mp given
    exact ih (sure.run zero one now) later

omit zero in
theorem fresh_sure : fresh.Sure P := ⟨one, by simp [fresh], by simp [fresh], by simp [fresh]⟩

end

end State

section

variable {P : Binary32 → Prop} {d : Domain} {c : Config} {s t after : State} {m : Move}
  {given : Option Move} {e : Engine} {o : TurnOutcome} {os : List TurnOutcome} {x : Exchange}
  {utterance : String} {limit : Nat} (zero : P .zero) (one : P .one)
include zero one

theorem UpdateRule.Fires.mutates {r : UpdateRule} (h : Fires d c s r after) (sure : s.Sure P) :
    s.Mutates P after := by
  have taken {m : Move} (waits : s.pending = some m) : s.Mutates P (s.consume m) :=
    State.Mutates.refl.consume (sure.pending m waits)
  have pushed {m : Move} {q : Question} (waits : s.pending = some m) :
      s.Mutates P ((s.consume m).pushQuestion q) := (taken waits).step (.pushQuestion q) rfl
  cases h with
  | asked pending => exact pushed pending
  | planned pending => exact (pushed pending).step (.loadPlan _) rfl
  | settled heard => exact ((taken heard.pending).step .popQuestion rfl).settle.ground
  | narrowed heard => exact (pushed heard.pending).ground
  | needed heard => exact (taken heard.pending).settle.ground
  | asserted pending => exact ((taken pending).step (.commit _) rfl).ground
  | greeted pending => exact (taken pending).enqueue one
  | parted pending => exact ((taken pending).enqueue one).step .terminate rfl
  | ended pending => exact (taken pending).step .terminate rfl
  | misunderstood pending => exact (taken pending).setConfidence zero
  | acknowledged pending => exact taken pending
  | requested pending => exact (taken pending).step (.loadPlan _) rfl
  | issueSettled heard | buried heard =>
    exact ((pushed heard.pending).step .popQuestion rfl).settle.ground
  | issueNarrowed heard =>
    exact ((pushed heard.pending).startStepFor.step (.pushQuestion _) rfl).ground
  | @volunteered _ _ plan q _ heard =>
    have loaded := (taken heard.pending).step (.loadPlan plan) rfl
    exact ((loaded.step (.pushQuestion q) rfl).step .popQuestion rfl).settle.ground
  | downdated =>
    exact (State.Mutates.refl.step .popQuestion rfl).step (.completeStepFor _) rfl
  | skipped => exact State.Mutates.refl.step (.completeStep _) rfl
  | begun => exact (State.Mutates.refl.step (.pushQuestion _) rfl).step (.startStep _) rfl

omit zero in
theorem SelectionRule.Fires.mutates {r : SelectionRule} (h : Fires d c s r after m)
    (sure : s.Sure P) : s.Mutates P after := by
  have front {m : Move} (first : s.agenda.head? = some m) : P m.confidence :=
    sure.agenda m (List.mem_of_head? first)
  have same : s.Mutates P s := .refl
  have pushed {q : Question} : s.Mutates P (s.pushQuestion q) := same.step (.pushQuestion q) rfl
  cases h with
  | repeated | confused => exact (same.setConfidence one).emit one
  | asked first => exact ((same.step .dequeue rfl).step (.pushQuestion _) rfl).emit (front first)
  | asserted first => exact ((same.step .dequeue rfl).step (.commit _) rfl).emit (front first)
  | uttered first => exact (same.step .dequeue rfl).emit (front first)
  | raised => exact (same.step (.completeStep _) rfl).emit one
  | voiced | grounded => exact same.emit one
  | pursued =>
    split
    · exact (pushed.step (.startStep _) rfl).emit one
    · exact pushed.emit one
  | posed => exact (pushed.step (.completeStep _) rfl).emit one
  | informed => exact ((same.step (.commit _) rfl).step (.completeStep _) rfl).emit one
  | answered =>
    have popped : s.Mutates P s.popQuestion := same.step .popQuestion rfl
    exact ((popped.step (.commit _) rfl).step (.completeStepFor _) rfl).emit one

namespace State

theorem integrate_mutates (sure : s.Sure P) (heard : ∀ m, given = some m → P m.confidence) :
    s.Mutates P (s.integrate d c given).state := by
  have waiting : s.Mutates P (s.setPending given) := Mutates.refl.setPending heard
  have still := waiting.sure zero one sure
  rcases s.integrate_cases d c given with ⟨r, after, fires, outcome⟩ | ⟨_, outcome⟩
  · simp only [outcome]
    exact waiting.trans (fires.mutates zero one still)
  · simp only [outcome, abandonPending]
    split
    · rename_i m left
      have dropped := (waiting.step .takePending rfl).setConfidence zero
      exact dropped.recordMove (still.pending m left)
    · exact waiting

omit zero in
theorem select_mutates (sure : s.Sure P) : s.Mutates P (s.select d c).state := by
  rcases s.select_cases d c with ⟨r, after, m, fires, outcome⟩ | ⟨_, outcome⟩
  · simp only [outcome]
    exact (fires.mutates one sure).step (.giveFloor _) rfl
  · simp only [outcome]
    exact Mutates.refl.step (.giveFloor _) rfl

end State

namespace Engine

theorem Finishes.mutates (h : e.Finishes s given o) (sure : s.Sure P)
    (heard : ∀ m, given = some m → P m.confidence) : s.Mutates P o.state := by
  have integrated : s.Mutates P (e.integrate s given).state :=
    State.integrate_mutates zero one sure heard
  have selected : s.Mutates P (e.develop s given).2.state :=
    integrated.trans (State.select_mutates one (integrated.sure zero one sure))
  rw [h.state]
  split
  · exact selected.step (.giveFloor _) rfl
  · exact selected

theorem turn_mutates (done : e.turn s utterance = .ok o) (sure : s.Sure P)
    (hears : ∀ s m, e.interpreter utterance s = .done m → P m.confidence) :
    s.Mutates P o.state := by
  obtain ⟨h, heard, finishes⟩ := turn_eq_ok done
  have begun : s.Mutates P (s.beginCycle .user) := State.Mutates.refl.step (.beginCycle _) rfl
  have attends : s.Mutates P (attentive s h) := by
    unfold attentive
    split
    · exact begun.setConfidence zero
    · exact begun
  refine attends.trans (finishes.mutates zero one (attends.sure zero one sure) fun m said => ?_)
  rcases interpret_eq_ok heard with ⟨m, answer, rfl⟩ | ⟨_, _, rfl⟩
  · cases said
    exact hears _ m answer
  · cases said

theorem tick_mutates (done : e.tick s = .ok o) (sure : s.Sure P) : s.Mutates P o.state := by
  have begun : s.Mutates P (s.beginCycle .system) := State.Mutates.refl.step (.beginCycle _) rfl
  exact begun.trans ((tick_eq_ok done).mutates zero one (begun.sure zero one sure) nofun)

theorem Initiative.mutates (h : e.Initiative limit s os t) (sure : s.Sure P) : s.Mutates P t := by
  induction h with
  | spent | stopped => exact .refl
  | rested _ _ ticks => exact tick_mutates zero one ticks sure
  | worked _ _ ticks _ _ ih =>
    have first := tick_mutates zero one ticks sure
    exact first.trans (ih (first.sure zero one sure))

theorem respond_mutates (done : e.respond s utterance = .ok x) (sure : s.Sure P)
    (hears : ∀ s m, e.interpreter utterance s = .done m → P m.confidence) :
    s.Mutates P x.state := by
  obtain ⟨first, later, turns, goes, -⟩ := respond_eq_ok done
  have turned := turn_mutates zero one turns sure hears
  exact turned.trans (goes.mutates zero one (turned.sure zero one sure))

theorem opening_mutates (done : e.opening s = .ok x) (sure : s.Sure P) : s.Mutates P x.state := by
  obtain ⟨os, goes, -⟩ := runSystem_eq_ok done
  have opened : s.Mutates P (e.openingState s) := by
    unfold openingState
    split
    · exact (State.Mutates.refl.enqueue one).step (.giveFloor _) rfl
    · exact State.Mutates.refl.step (.giveFloor _) rfl
  exact opened.trans (goes.mutates zero one (opened.sure zero one sure))

end Engine
end

/-- The beliefs of a domain are put into the fresh state one by one. -/
theorem State.withBeliefs_mutates {P : Binary32 → Prop} (beliefs : OrderedMap String Value) :
    State.fresh.Mutates P (.withBeliefs beliefs) := by
  refine ⟨beliefs.entries.map fun b => .believe ⟨b.1, b.2⟩, ?_, ?_⟩
  · rw [List.foldl_map]
    rfl
  · rw [List.forall_mem_map]
    exact fun b _ => nofun

end Dialogue
