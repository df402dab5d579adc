import Dialogue.Proofs.Request

/-!
Requests that fail. A session is what its completed exchanges have made of it: a request that fails,
in whichever cycle, leaves no trace in state and trail, and the trail numbers the cycles without a
gap.
-/
namespace Dialogue

/-- Complete records that number the cycles from one count to another. -/
structure Counted (m : Nat) (rs : List CycleRecord) (n : Nat) : Prop where
  cycles : rs.map (·.cycle) = List.range' (m + 1) rs.length
  count : n = m + rs.length
  complete : ∀ r ∈ rs, r.Complete

namespace Counted

variable {m n k i : Nat} {rs later : List CycleRecord} {r : CycleRecord}

theorem nil : Counted m [] m := ⟨rfl, rfl, by simp⟩

theorem append (h : Counted m rs n) (next : Counted n later k) : Counted m (rs ++ later) k := by
  have start : n + 1 = m + 1 + rs.length := by
    have := h.count
    omega
  refine ⟨?_, ?_, List.forall_mem_append.mpr ⟨h.complete, next.complete⟩⟩
  · rw [List.map_append, h.cycles, next.cycles, start, List.length_append, List.range'_append_1]
  · simp only [next.count, h.count, List.length_append, Nat.add_assoc]

theorem cycle (h : Counted m rs n) (found : rs[i]? = some r) : r.cycle = m + i + 1 := by
  have listed : (rs.map (·.cycle))[i]? = some r.cycle := by simp [found]
  rw [h.cycles] at listed
  obtain ⟨inside, number⟩ := List.getElem?_eq_some_iff.mp listed
  rw [List.getElem_range'] at number
  omega

end Counted

namespace Engine

variable {e : Engine} {s t : State} {given : Option Move} {o : TurnOutcome} {os : List TurnOutcome}
  {x : Exchange} {utterance : String} {limit n : Nat}

theorem Finishes.counted (h : e.Finishes s given o) (next : s.cycle = n + 1) :
    Counted n [o.record] o.state.cycle :=
  ⟨by simp [h.cycle, next], by simp [h.state_cycle, next], by simpa using h.complete⟩

theorem Initiative.counted (h : e.Initiative limit s os t) :
    Counted s.cycle (os.map (·.record)) t.cycle := by
  induction h with
  | spent | stopped => exact .nil
  | rested _ _ ticks => exact (tick_eq_ok ticks).counted rfl
  | worked _ _ ticks _ _ ih => exact ((tick_eq_ok ticks).counted rfl).append ih

theorem respond_counted (done : e.respond s utterance = .ok x) :
    Counted s.cycle x.records x.state.cycle := by
  obtain ⟨first, later, turns, goes, records, -⟩ := respond_eq_ok done
  obtain ⟨h, -, finishes⟩ := turn_eq_ok turns
  have next : (attentive s h).cycle = s.cycle + 1 := by
    unfold attentive
    split <;> simp [State.beginCycle]
  rw [records]
  exact (finishes.counted next).append goes.counted

theorem opening_counted (done : e.opening s = .ok x) :
    Counted s.cycle x.records x.state.cycle := by
  obtain ⟨os, goes, records, -⟩ := runSystem_eq_ok done
  have same : (e.openingState s).cycle = s.cycle := by
    unfold openingState
    split <;> simp
  simpa [records, same] using goes.counted

end Engine

namespace Session

/-- What a request can do to a session. One that fails may have found it cancelled or cancel it. -/
inductive Outcome (s : Session) : Session × Option (Except Error Exchange) → Prop
  | cancelled : Outcome s (s.cancel, none)
  | completed {x} (running : s.cancelled = false)
      (counted : Counted s.state.cycle x.records x.state.cycle) :
      Outcome s (s.adopt x, some (.ok x))
  | failed {t x} (record : t.record = s.record) (still : s.cancelled = true → t.cancelled = true) :
      Outcome s (t, some (.error x))

variable {e : Engine} {s t : Session}

theorem settle_outcome {result : Except Abort Exchange}
    (counted : ∀ x, result = .ok x → Counted s.state.cycle x.records x.state.cycle) :
    s.Outcome ((s.settle result).1, some (s.settle result).2) := by
  unfold settle
  split
  · exact .failed (reject_record _) (reject_cancelled _).trans
  · rename_i running
    cases result with
    | ok x => exact .completed (by simpa using running) (counted x rfl)
    | error a =>
      dsimp only
      split
      · exact .failed (reject_record _) fun _ => reject_cancelled _
      · exact .failed (reject_record _) (reject_cancelled _).trans

theorem serve_outcome (r : Request) : s.Outcome (s.serve e r) := by
  cases r with
  | opening => exact settle_outcome fun _ => Engine.opening_counted
  | respond utterance => exact settle_outcome fun _ => Engine.respond_counted
  | cancel => exact .cancelled

def failed : Option (Except Error Exchange) → Bool
  | some (.error _) => true
  | _ => false

/-- The attempts that do not fail when all are made in order. -/
def successful (e : Engine) (s : Session) : List Attempt → List Attempt
  | [] => []
  | a :: rest =>
    let (next, outcome) := s.attempt e a
    if failed outcome then next.successful e rest else a :: next.successful e rest

/-- The trail numbers all cycles so far, with nothing left out of its records. -/
structure Numbered (s : Session) : Prop where
  length : s.trail.length = s.state.cycle
  cycles : ∀ i r, s.trail[i]? = some r → r.cycle = i + 1
  complete : ∀ r ∈ s.trail, r.Complete

theorem numbered_iff_counted : s.Numbered ↔ Counted 0 s.trail s.state.cycle := by
  constructor
  · intro h
    refine ⟨List.ext_getElem (by simp) fun i inside _ => ?_, by simp [h.length], h.complete⟩
    have inTrail : i < s.trail.length := by simpa using inside
    simp [h.cycles i _ (List.getElem?_eq_getElem inTrail), Nat.add_comm]
  · intro h
    exact ⟨by simp [h.count], fun i r found => by simp [h.cycle found], h.complete⟩

theorem attempt_numbered (h : s.Numbered) (a : Attempt) : (s.attempt e a).1.Numbered := by
  have outcome : s.Outcome (s.attempt e a) := serve_outcome a.request
  generalize s.attempt e a = served at outcome ⊢
  cases outcome with
  | cancelled => exact ⟨h.length, h.cycles, h.complete⟩
  | completed _ counted =>
    exact numbered_iff_counted.mpr ((numbered_iff_counted.mp h).append counted)
  | failed record =>
    obtain ⟨-, state, trail⟩ := SessionRecord.mk.inj record
    rw [numbered_iff_counted, state, trail]
    exact numbered_iff_counted.mp h

theorem attemptAll_numbered (h : s.Numbered) (attempts : List Attempt) :
    (s.attemptAll e attempts).1.Numbered := by
  induction attempts generalizing s with
  | nil => exact h
  | cons a rest ih => exact ih (attempt_numbered h a)

theorem start_numbered (id : Uuid) : (start e id).Numbered := by
  have first : (start e id).state.cycle = 0 := by simp [start, Engine.initialState]
  exact ⟨first.symm, by simp [start], by simp [start]⟩

theorem attempt_of_failed {a : Attempt} (fails : failed (s.attempt e a).2 = true) :
    (s.attempt e a).1.record = s.record ∧
      (s.cancelled = true → (s.attempt e a).1.cancelled = true) := by
  have outcome : s.Outcome (s.attempt e a) := serve_outcome a.request
  generalize s.attempt e a = served at outcome fails ⊢
  cases outcome with
  | cancelled | completed => simp [failed] at fails
  | failed record still => exact ⟨record, still⟩

/-- A session that has come as far as another, though requests that failed may have cancelled it. -/
structure Follows (s t : Session) : Prop where
  record : s.record = t.record
  cancelled : t.cancelled = true → s.cancelled = true

/-- An attempt that does not fail for the one session goes the same way for the other. -/
theorem Follows.attempt (h : s.Follows t) {a : Attempt} (goes : failed (s.attempt e a).2 = false) :
    (s.attempt e a).1.Alike (t.attempt e a).1 ∧ (s.attempt e a).2 = (t.attempt e a).2 := by
  by_cases same : s.cancelled = t.cancelled
  · exact Alike.serve ⟨h.record, same⟩ a.request
  · -- A session that is cancelled can only be cancelled once more.
    have stopped : s.cancelled = true := by
      cases running : t.cancelled
      · simpa [running] using same
      · exact h.cancelled running
    obtain ⟨request, interpreter, generator⟩ := a
    cases request with
    | opening | respond =>
      simp [Session.attempt, serve, opening, respond, settle, stopped, failed, throw, throwThe,
        MonadExceptOf.throw] at goes
    | cancel => exact ⟨⟨h.record, rfl⟩, rfl⟩

theorem Follows.attemptAll (h : s.Follows t) (attempts : List Attempt) :
    (t.attemptAll e (s.successful e attempts)).1.record = (s.attemptAll e attempts).1.record ∧
      (t.attemptAll e (s.successful e attempts)).2 =
        (s.attemptAll e attempts).2.filter (!failed ·) := by
  induction attempts generalizing s t with
  | nil => exact ⟨h.record.symm, rfl⟩
  | cons a rest ih =>
    cases fails : failed (s.attempt e a).2 with
    | true =>
      obtain ⟨record, still⟩ := attempt_of_failed fails
      have after : (s.attempt e a).1.Follows t := ⟨record.trans h.record, still ∘ h.cancelled⟩
      simpa [successful, Session.attemptAll, fails] using ih after
    | false =>
      obtain ⟨alike, outcome⟩ := h.attempt fails
      obtain ⟨final, outcomes⟩ := ih ⟨alike.record, alike.cancelled.trans⟩
      simp [successful, Session.attemptAll, fails, final, outcomes, ← outcome]

/-- A request that fails is as if it had never been made, whatever fails in it and when. It leaves
identifier, state and trail of a session as they are. A session that is made all requests but those
that fail comes to the same state and trail, with the same outcomes. And its trail has one complete
record for each cycle of its state, in order. -/
theorem failed_as_never_made (e : Engine) (id : Uuid) (attempts : List Attempt) :
    (∀ (s : Session) a, failed (s.attempt e a).2 = true → (s.attempt e a).1.record = s.record) ∧
    ((start e id).attemptAll e ((start e id).successful e attempts)).1.record =
      ((start e id).attemptAll e attempts).1.record ∧
    ((start e id).attemptAll e ((start e id).successful e attempts)).2 =
      ((start e id).attemptAll e attempts).2.filter (!failed ·) ∧
    ((start e id).attemptAll e attempts).1.Numbered := by
  have itself : (start e id).Follows (start e id) := ⟨rfl, fun stopped => stopped⟩
  obtain ⟨record, outcomes⟩ := itself.attemptAll (e := e) attempts
  exact ⟨fun _ _ fails => (attempt_of_failed fails).1, record, outcomes,
    attemptAll_numbered (start_numbered id) attempts⟩

def informative : Engine := { Engine.obliging with
  domain := .ofTask "post" [.inform ⟨"first", .bool true⟩, .inform ⟨"second", .bool true⟩] }

/-- The generator stays silent when the second thing is to be told. Then the request is made
again. -/
def secondTry : List Attempt :=
  [⟨.respond "post", informative.interpreter,
      fun _ s => if s.cycle = 2 then .silent false else .done "..."⟩,
    ⟨.respond "post", informative.interpreter, informative.generator⟩]

example : ((start informative ⟨7⟩).attemptAll informative secondTry).2.map failed = [true, false] ∧
    ((start informative ⟨7⟩).attemptAll informative secondTry).1.trail.map (·.cycle) = [1, 2, 3] :=
  ⟨rfl, rfl⟩

end Session
end Dialogue
