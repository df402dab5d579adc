import Dialogue.Proofs.Mutation

/-!
Requests to a session. A session is asked to open the dialogue, to answer the user or to stop, each
time with collaborators that may behave as they like. What becomes of it is settled by its record
and by whether it was cancelled, and its state is what operations have made of that of the engine.
-/
namespace Dialogue
namespace Session

inductive Request where
  | opening
  | respond (utterance : String)
  | cancel

/-- The session after a request, and what came of it. Cancelling has no outcome of its own. -/
def serve (e : Engine) (s : Session) : Request → Session × Option (Except Error Exchange)
  | .opening =>
    let (next, outcome) := s.opening e
    (next, some outcome)
  | .respond utterance =>
    let (next, outcome) := s.respond e utterance
    (next, some outcome)
  | .cancel => (s.cancel, none)

/-- A request, with the interpreter and the generator as they behave while it is served. As they are
given the state, they may behave differently in every cycle. -/
structure Attempt where
  request : Request
  interpreter : Interpreter
  generator : Generator

def attempt (e : Engine) (s : Session) (a : Attempt) : Session × Option (Except Error Exchange) :=
  s.serve { e with interpreter := a.interpreter, generator := a.generator } a.request

/-- The session after several attempts, and what came of them, in order. -/
def attemptAll (e : Engine) (s : Session) :
    List Attempt → Session × List (Option (Except Error Exchange))
  | [] => (s, [])
  | a :: rest =>
    let (next, outcome) := s.attempt e a
    let (final, outcomes) := next.attemptAll e rest
    (final, outcome :: outcomes)

variable {s t : Session} {e : Engine}

theorem reject_record (x : Error) : (s.reject x).record = s.record := by
  unfold reject
  split <;> rfl

theorem reject_cancelled (x : Error) : (s.reject x).cancelled = s.cancelled := by
  unfold reject
  split <;> rfl

/-! Sessions that go on in the same way. -/

/-- Sessions that differ in their telemetry at most. -/
structure Alike (s t : Session) : Prop where
  record : s.record = t.record
  cancelled : s.cancelled = t.cancelled

namespace Alike

theorem state (h : s.Alike t) : s.state = t.state := congrArg SessionRecord.state h.record

theorem reject (h : s.Alike t) (x : Error) : (s.reject x).Alike (t.reject x) where
  record := by simp only [reject_record, h.record]
  cancelled := by simp only [reject_cancelled, h.cancelled]

theorem cancel (h : s.Alike t) : s.cancel.Alike t.cancel := ⟨h.record, rfl⟩

theorem adopt (h : s.Alike t) (x : Exchange) : (s.adopt x).Alike (t.adopt x) := by
  obtain ⟨id, -, trail⟩ := SessionRecord.mk.inj h.record
  exact ⟨by simp [Session.record, Session.adopt, id, trail], h.cancelled⟩

theorem settle (h : s.Alike t) (x : Except Abort Exchange) :
    (s.settle x).1.Alike (t.settle x).1 ∧ (s.settle x).2 = (t.settle x).2 := by
  simp only [Session.settle, h.cancelled]
  split
  · exact ⟨h.reject .cancelled, rfl⟩
  · split
    · exact ⟨h.adopt _, rfl⟩
    · split
      · exact ⟨h.cancel.reject .cancelled, rfl⟩
      · exact ⟨h.reject _, rfl⟩

theorem serve (h : s.Alike t) (r : Request) :
    (s.serve e r).1.Alike (t.serve e r).1 ∧ (s.serve e r).2 = (t.serve e r).2 := by
  cases r with
  | opening =>
    obtain ⟨alike, same⟩ := h.settle (e.opening t.state)
    exact ⟨by simpa [Session.serve, Session.opening, h.state] using alike,
      by simpa [Session.serve, Session.opening, h.state] using same⟩
  | respond utterance =>
    obtain ⟨alike, same⟩ := h.settle (e.respond t.state utterance)
    exact ⟨by simpa [Session.serve, Session.respond, h.state] using alike,
      by simpa [Session.serve, Session.respond, h.state] using same⟩
  | cancel => exact ⟨h.cancel, rfl⟩

/-- Sessions with the same record go on in the same way. -/
theorem attemptAll (h : s.Alike t) (attempts : List Attempt) :
    (s.attemptAll e attempts).1.Alike (t.attemptAll e attempts).1 ∧
      (s.attemptAll e attempts).2 = (t.attemptAll e attempts).2 := by
  induction attempts generalizing s t with
  | nil => exact ⟨h, rfl⟩
  | cons a rest ih =>
    obtain ⟨alike, outcome⟩ : (s.attempt e a).1.Alike (t.attempt e a).1 ∧
      (s.attempt e a).2 = (t.attempt e a).2 := h.serve a.request
    obtain ⟨final, outcomes⟩ := ih alike
    exact ⟨final, by simp [Session.attemptAll, outcome, outcomes]⟩

end Alike

theorem alike_resume (running : s.cancelled = false) : s.Alike (resume s.record) := ⟨rfl, running⟩

/-! What a session has come to by operations. -/

variable {P : Binary32 → Prop}

theorem settle_mutates {result : Except Abort Exchange}
    (mutates : ∀ x, result = .ok x → s.state.Mutates P x.state) :
    s.state.Mutates P (s.settle result).1.state := by
  have rejected (t : Session) (same : t.record = s.record) (x : Error) :
      s.state.Mutates P (t.reject x).state := by
    have same : (t.reject x).state = s.state :=
      congrArg SessionRecord.state ((reject_record x).trans same)
    exact same ▸ .refl
  unfold settle
  split
  · exact rejected s rfl _
  · cases result with
    | ok x => exact mutates x rfl
    | error a =>
      dsimp only
      split
      · exact rejected s.cancel rfl _
      · exact rejected s rfl _

section

variable (zero : P .zero) (one : P .one)
include zero one

theorem attempt_mutates (sure : s.state.Sure P) {a : Attempt}
    (hears : ∀ utterance s m, a.interpreter utterance s = .done m → P m.confidence) :
    s.state.Mutates P (s.attempt e a).1.state := by
  obtain ⟨request, interpreter, generator⟩ := a
  cases request with
  | opening => exact settle_mutates fun x done => Engine.opening_mutates zero one done sure
  | respond utterance =>
    exact settle_mutates fun x done => Engine.respond_mutates zero one done sure (hears utterance)
  | cancel => exact .refl

theorem attemptAll_mutates {attempts : List Attempt} (sure : s.state.Sure P)
    (hears : ∀ a ∈ attempts, ∀ utterance s m, a.interpreter utterance s = .done m →
      P m.confidence) : s.state.Mutates P (s.attemptAll e attempts).1.state := by
  induction attempts generalizing s with
  | nil => exact .refl
  | cons a rest ih =>
    obtain ⟨now, later⟩ := List.forall_mem_cons.mp hears
    have first := attempt_mutates (e := e) zero one sure now
    exact first.trans (ih (first.sure zero one sure) later)

/-- The state of a session that an engine makes is what operations have made of a fresh one,
whatever has been asked of it. The confidences that they were given are of a kind with those
heard. -/
theorem start_mutates (id : Uuid) {attempts : List Attempt}
    (hears : ∀ a ∈ attempts, ∀ utterance s m, a.interpreter utterance s = .done m →
      P m.confidence) : State.fresh.Mutates P ((start e id).attemptAll e attempts).1.state := by
  have begun : State.fresh.Mutates P (start e id).state := State.withBeliefs_mutates _
  exact begun.trans (attemptAll_mutates zero one (begun.sure zero one (State.fresh_sure one)) hears)

end

end Session
end Dialogue
