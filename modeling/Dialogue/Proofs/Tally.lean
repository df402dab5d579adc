import Mathlib.Algebra.BigOperators.Group.List.Basic
import Mathlib.Algebra.GroupWithZero.Nat
import Dialogue.Proofs.Rollback

/-!
Telemetry against the audit trail. Both give an account of the same dialogue, one by events and one
by records of cycles. As long as the window has not lost events, they count the same: every rule,
every cycle, everything amiss, and the requests that were rolled back.
-/
namespace Dialogue

def CycleRecord.names (r : CycleRecord) : RuleName → Bool
  | .update rule => r.updateRule = some rule
  | .selection rule => r.selectionRule = some rule

namespace Event

def isFiring (rule : RuleName) : Event → Bool
  | ruleFired r _ => r = rule
  | _ => false

def isRollback : Event → Bool
  | turnRolledBack _ => true
  | _ => false

def inCycle (x : Event) : Bool := x.cycle?.isSome

variable {r : CycleRecord} {x : Event}

theorem cycle?_ofCycle (among : x ∈ ofCycle r) : x.cycle? = some r.cycle := by
  simp only [ofCycle, List.mem_append, Option.mem_toList, Option.map_eq_some_iff,
    List.mem_map] at among
  obtain (⟨rule, -, rfl⟩ | ⟨rule, -, rfl⟩) | ⟨d, -, rfl⟩ := among
  · rfl
  · rfl
  · cases d <;> rfl

/-- A record is told by events that name the same rules. -/
theorem countP_isFiring (rule : RuleName) :
    (ofCycle r).countP (isFiring rule) = if r.names rule then 1 else 0 := by
  have amiss : (r.diagnostics.map (ofDiagnostic r.cycle)).countP (isFiring rule) = 0 := by
    refine List.countP_eq_zero.mpr fun x among => ?_
    obtain ⟨d, -, rfl⟩ := List.mem_map.mp among
    cases d <;> simp [ofDiagnostic, isFiring]
  rw [ofCycle, List.countP_append, amiss, List.countP_append]
  cases rule <;> cases update : r.updateRule <;> cases selection : r.selectionRule <;>
    simp [CycleRecord.names, isFiring, List.countP_cons, update, selection]

/-- A record is told by events that find the same amiss. -/
theorem countP_amiss {p : Event → Bool} {q : Diagnostic → Bool}
    (firing : ∀ rule n, p (ruleFired rule n) = false) (same : ∀ d n, p (ofDiagnostic n d) = q d) :
    (ofCycle r).countP p = r.diagnostics.countP q := by
  have amiss : p ∘ ofDiagnostic r.cycle = q := funext fun d => same d r.cycle
  rw [ofCycle, List.countP_append, List.countP_append, List.countP_map, amiss]
  cases r.updateRule <;> cases r.selectionRule <;> simp [firing]

end Event

/-! What leaves the engine: records that show something, and errors that are told apart. -/

/-- Something about the cycle shows in its record. -/
def CycleRecord.Shows (r : CycleRecord) : Prop :=
  r.selectionRule = none → .selectionExhausted ∈ r.diagnostics

theorem CycleRecord.Shows.events {r : CycleRecord} (h : r.Shows) : Event.ofCycle r ≠ [] := by
  cases rule : r.selectionRule with
  | none =>
    have amiss := List.mem_map_of_mem (f := Event.ofDiagnostic r.cycle) (h rule)
    exact List.ne_nil_of_mem (List.mem_append_right _ amiss)
  | some rule' => simp [Event.ofCycle, rule]

/-- The error rolls the request back, unless it says that the dialogue has ended. -/
def Error.Classified (x : Error) : Prop := x.isRollback = true ∨ x = .dialogueEnded

namespace Engine

variable {e : Engine} {s t : State} {given : Option Move} {record : CycleRecord} {o : TurnOutcome}
  {os : List TurnOutcome} {x y : Exchange}
  {utterance : String} {limit : Nat} {a : Abort}

theorem Finishes.shows (h : e.Finishes s given o) : o.record.Shows := by
  obtain ⟨heard, diagnostics⟩ := h.diagnostics
  intro unselected
  have unchosen : (e.develop s given).2.chosen = none :=
    Option.map_eq_none_iff.mp (h.selectionRule.symm.trans unselected)
  simp [diagnostics, Selection.diagnostics, Selection.move, unchosen]

theorem Initiative.shows (h : e.Initiative limit s os t) : ∀ o ∈ os, o.record.Shows := by
  induction h with
  | spent | stopped => simp
  | rested _ _ ticks => simpa using (tick_eq_ok ticks).shows
  | worked _ _ ticks _ _ ih => exact List.forall_mem_cons.mpr ⟨(tick_eq_ok ticks).shows, ih⟩

theorem respond_shows (done : e.respond s utterance = .ok x) : ∀ r ∈ x.records, r.Shows := by
  obtain ⟨first, later, turns, goes, records, -⟩ := respond_eq_ok done
  obtain ⟨h, -, finishes⟩ := turn_eq_ok turns
  rw [records, List.forall_mem_map]
  exact List.forall_mem_cons.mpr ⟨finishes.shows, goes.shows⟩

theorem opening_shows (done : e.opening s = .ok x) : ∀ r ∈ x.records, r.Shows := by
  obtain ⟨os, goes, records, -⟩ := runSystem_eq_ok done
  rw [records, List.nil_append, List.forall_mem_map]
  exact goes.shows

theorem blame_classified (stage : Stage) (x : Error) : (blame stage x).error.Classified := by
  unfold blame
  split
  · rename_i rollback
    exact .inl rollback
  · exact .inl rfl

theorem interpret_classified (fails : e.interpret utterance s = .error a) : a.error.Classified := by
  unfold interpret at fails
  split at fails
  · cases fails
  · cases fails
  · cases fails
    exact blame_classified _ _
  · cases fails
    exact .inl rfl

theorem generate_classified {m : Move} (fails : e.generate m s = .error a) :
    a.error.Classified := by
  unfold generate at fails
  split at fails
  · cases fails
  · cases fails
    exact blame_classified _ _
  · cases fails
    exact .inl rfl

theorem words_classified {m : Option Move} (fails : m.mapM (e.generate · s) = .error a) :
    a.error.Classified := by
  cases m with
  | none => cases fails
  | some m =>
    rcases bind_eq_error.mp fails with wordless | ⟨text, -, outcome⟩
    · exact generate_classified wordless
    · cases outcome

theorem finishCycle_classified (fails : e.finishCycle s given record = .error a) :
    a.error.Classified := by
  rcases bind_eq_error.mp fails with wordless | ⟨words, -, outcome⟩
  · exact words_classified wordless
  · cases outcome

theorem turn_classified (fails : e.turn s utterance = .error a) : a.error.Classified := by
  unfold turn at fails
  split at fails
  · cases fails
    exact .inr rfl
  · rcases bind_eq_error.mp fails with unheard | ⟨h, -, rest⟩
    · exact interpret_classified unheard
    · exact finishCycle_classified rest

theorem runSystem_classified (fails : e.runSystem limit x = .error a) : a.error.Classified := by
  induction limit generalizing x with
  | zero => cases fails
  | succ limit ih =>
    rw [runSystem] at fails
    split at fails
    · cases fails
    · rcases bind_eq_error.mp fails with given | ⟨o, -, rest⟩
      · exact finishCycle_classified given
      · split at rest
        · cases rest
        · exact ih rest

theorem respond_classified (fails : e.respond s utterance = .error a) : a.error.Classified := by
  rcases bind_eq_error.mp fails with first | ⟨o, -, rest⟩
  · exact turn_classified first
  · exact runSystem_classified rest

end Engine

/-! The two accounts. -/

namespace Session

/-- The outcome of a request that failed, though not because the dialogue had ended. -/
def rolledBack : Option (Except Error Exchange) → Bool
  | some (.error x) => x ≠ .dialogueEnded
  | _ => false

/-- The telemetry tells the cycles on the trail, and no others, in order, besides a number of
requests that were rolled back. -/
structure Told (s : Session) (failures : Nat) : Prop where
  shows : ∀ r ∈ s.trail, r.Shows
  cycles : s.telemetry.latestFirst.reverse.filter Event.inCycle = s.trail.flatMap Event.ofCycle
  rollbacks : s.telemetry.latestFirst.countP Event.isRollback = failures

variable {e : Engine} {s t : Session} {n : Nat} {result : Except Abort Exchange}

theorem latestFirst_recordCycles (rs : List CycleRecord) (x : Telemetry) :
    (rs.foldl Telemetry.recordCycle x).latestFirst.reverse =
      x.latestFirst.reverse ++ rs.flatMap Event.ofCycle := by
  have events (l : List Event) (x : Telemetry) :
      (l.foldl Telemetry.record x).latestFirst.reverse = x.latestFirst.reverse ++ l := by
    induction l generalizing x with
    | nil => simp
    | cons event rest ih => simp [ih, Telemetry.record]
  induction rs generalizing x with
  | nil => simp
  | cons r rest ih => simp [ih, Telemetry.recordCycle, events]

theorem inCycle_of_mem {rs : List CycleRecord} {x : Event} (among : x ∈ rs.flatMap Event.ofCycle) :
    x.inCycle = true := by
  obtain ⟨r, -, told⟩ := List.mem_flatMap.mp among
  simp [Event.inCycle, Event.cycle?_ofCycle told]

theorem Told.adopt (h : s.Told n) {x : Exchange} (shows : ∀ r ∈ x.records, r.Shows) :
    (s.adopt x).Told n := by
  have none : (x.records.flatMap Event.ofCycle).countP Event.isRollback = 0 :=
    List.countP_eq_zero.mpr fun y among => by
      have inside := inCycle_of_mem among
      cases y <;> simp_all [Event.inCycle, Event.cycle?, Event.isRollback]
  refine ⟨List.forall_mem_append.mpr ⟨h.shows, shows⟩, ?_, ?_⟩
  · simp only [Session.adopt, latestFirst_recordCycles, List.filter_append, h.cycles,
      List.flatMap_append, List.filter_eq_self.mpr fun _ => inCycle_of_mem]
  · rw [← List.countP_reverse]
    simp only [Session.adopt, latestFirst_recordCycles, List.countP_append, none,
      List.countP_reverse, h.rollbacks, Nat.add_zero]

theorem Told.reject (h : s.Told n) {x : Error} (classified : x.Classified) :
    (s.reject x).Told (if x = .dialogueEnded then n else n + 1) := by
  obtain rollback | rfl := classified
  · have failure : x ≠ .dialogueEnded := by
      rintro rfl
      cases rollback
    refine ⟨?_, ?_, ?_⟩
    · simpa [Session.reject, rollback] using h.shows
    · simpa [Session.reject, rollback, Telemetry.record, Event.inCycle, Event.cycle?] using h.cycles
    · have recorded : (s.reject x).telemetry.latestFirst =
          .turnRolledBack x.stage? :: s.telemetry.latestFirst := by
        simp [Session.reject, rollback, Telemetry.record]
      rw [recorded, List.countP_cons_of_pos rfl, h.rollbacks, if_neg failure]
  · exact h

theorem Told.settle (h : s.Told n) (shows : ∀ x, result = .ok x → ∀ r ∈ x.records, r.Shows)
    (classified : ∀ a, result = .error a → a.error.Classified) :
    (s.settle result).1.Told (n + if rolledBack (some (s.settle result).2) then 1 else 0) := by
  have cancelled (u : Session) (h : u.Told n) : (u.reject .cancelled).Told (n + 1) :=
    h.reject (.inl rfl)
  unfold Session.settle
  split
  · exact cancelled s h
  · cases result with
    | ok x => exact h.adopt (shows x rfl)
    | error a =>
      dsimp only
      split
      · exact cancelled s.cancel ⟨h.shows, h.cycles, h.rollbacks⟩
      · have told := h.reject (classified a rfl)
        by_cases ended : a.error = .dialogueEnded
        · simpa [rolledBack, throw, throwThe, MonadExceptOf.throw, ended] using told
        · simpa [rolledBack, throw, throwThe, MonadExceptOf.throw, ended] using told

/-- A request keeps the two accounts in line. -/
theorem Told.serve (h : s.Told n) (r : Request) :
    (s.serve e r).1.Told (n + if rolledBack (s.serve e r).2 then 1 else 0) := by
  cases r with
  | opening => exact h.settle (fun _ => Engine.opening_shows) fun _ => Engine.runSystem_classified
  | respond utterance =>
    exact h.settle (fun _ => Engine.respond_shows) fun _ => Engine.respond_classified
  | cancel => exact ⟨h.shows, h.cycles, h.rollbacks⟩

theorem Told.attemptAll (h : s.Told n) (attempts : List Attempt) :
    (s.attemptAll e attempts).1.Told (n + (s.attemptAll e attempts).2.countP rolledBack) := by
  induction attempts generalizing s n with
  | nil => exact h
  | cons a rest ih =>
    have served := h.serve a.request
      (e := { e with interpreter := a.interpreter, generator := a.generator })
    have later := ih served
    simpa [Session.attemptAll, Session.attempt, List.countP_cons, Nat.add_assoc, Nat.add_comm,
      Nat.add_left_comm] using later

theorem start_told (id : Uuid) : (start e id).Told 0 := ⟨by simp [start], rfl, rfl⟩

end Session

/-! What is counted. -/

namespace Snapshot

variable {x : Snapshot}

/-- A turn is given up in one of the two stages, or by cancellation. -/
theorem rollbacks_eq : x.rollbacks = x.events.countP Event.isRollback := by
  obtain ⟨events⟩ := x
  simp only [rollbacks, rollbacksIn]
  induction events with
  | nil => rfl
  | cons event rest ih =>
    cases event with
    | turnRolledBack stage =>
      rw [List.countP_cons_of_pos rfl, ← ih]
      rcases stage with _ | _ | _ <;> simp <;> omega
    | _ => simpa [Event.isRollback] using ih

/-- Leaving out the rules that never fired does not change the total. -/
theorem rulesFired_eq : x.rulesFired = (RuleName.all.map x.count).sum := by
  simp only [rulesFired, ruleCounts]
  induction RuleName.all with
  | nil => rfl
  | cons rule rest ih =>
    by_cases never : x.count rule = 0
    · simp [never, ← ih]
    · simp [never, ← ih]

end Snapshot

namespace Session

def diagnostics (s : Session) : List Diagnostic := s.trail.flatMap (·.diagnostics)

/-- The telemetry counts what is on the trail, and a number of requests that were rolled back. -/
structure Agrees (s : Session) (failures : Nat) : Prop where
  rules : ∀ rule, s.telemetry.snapshot.count rule = s.trail.countP (·.names rule)
  cycles : s.telemetry.snapshot.cycles = s.trail.length
  unintegrated :
    s.telemetry.snapshot.unintegratedMoves = s.diagnostics.countP (· matches .unintegratedMove _)
  exhausted :
    s.telemetry.snapshot.exhaustedSelections = s.diagnostics.countP (· matches .selectionExhausted)
  misunderstood : s.telemetry.snapshot.interpretationFailures =
    s.diagnostics.countP (· matches .interpretationFailed _)
  rollbacks : s.telemetry.snapshot.rollbacks = failures
  summary : s.summary = .sessionSummary {
    cycles := s.trail.length
    rulesFired := (RuleName.all.map fun rule => s.trail.countP (·.names rule)).sum
    unintegratedMoves := s.diagnostics.countP (· matches .unintegratedMove _)
    exhaustedSelections := s.diagnostics.countP (· matches .selectionExhausted)
    rollbacks := failures }

theorem nodup_eraseDups {α : Type} [DecidableEq α] : ∀ l : List α, l.eraseDups.Nodup
  | [] => by simp
  | a :: rest => by
    rw [List.eraseDups_cons, List.nodup_cons, List.mem_eraseDups]
    exact ⟨by simp, nodup_eraseDups _⟩
termination_by l => l.length
decreasing_by
  have shorter := rest.length_filter_le fun b => !b == a
  simp only [List.length_cons]
  omega

variable {e : Engine} {s : Session} {n : Nat} {p : Event → Bool}

section

variable (h : s.Told n) (seen : s.telemetry.latestFirst.length ≤ Telemetry.window)
include seen

theorem events_eq : s.telemetry.events = s.telemetry.latestFirst.reverse := by
  rw [Telemetry.events, List.take_of_length_le seen]

include h

/-- What happened in cycles is counted record by record. -/
theorem countP_events (inside : ∀ x, p x = true → x.inCycle = true) :
    s.telemetry.events.countP p = (s.trail.map fun r => (Event.ofCycle r).countP p).sum := by
  have same : (fun x => p x && x.inCycle) = p := by
    funext x
    cases holds : p x
    · rfl
    · simp [inside x holds]
  calc s.telemetry.events.countP p
      = (s.telemetry.latestFirst.reverse.filter Event.inCycle).countP p := by
        rw [List.countP_filter, same, events_eq seen]
    _ = (s.trail.map fun r => (Event.ofCycle r).countP p).sum := by
        rw [h.cycles, List.countP_flatMap]
        rfl

theorem countP_amiss {q : Diagnostic → Bool} (firing : ∀ rule n, p (.ruleFired rule n) = false)
    (rolledBack : ∀ stage, p (.turnRolledBack stage) = false)
    (summary : ∀ x, p (.sessionSummary x) = false) (same : ∀ d n, p (.ofDiagnostic n d) = q d) :
    s.telemetry.events.countP p = s.diagnostics.countP q := by
  have inside : ∀ x, p x = true → x.inCycle = true := fun x holds => by
    cases x <;> simp_all [Event.inCycle, Event.cycle?]
  simp only [countP_events h seen inside, Event.countP_amiss firing same, diagnostics,
    List.countP_flatMap]
  rfl

/-- A cycle is seen by its number, which no other cycle has. -/
theorem cycles_eq (numbered : s.Numbered) : s.telemetry.snapshot.cycles = s.trail.length := by
  have distinct : (s.trail.map (·.cycle)).Nodup := by
    rw [(numbered_iff_counted.mp numbered).cycles]
    exact List.nodup_range'
  have numbers : ∀ k, k ∈ (s.telemetry.events.filterMap Event.cycle?).eraseDups ↔
      k ∈ s.trail.map (·.cycle) := fun k => by
    rw [List.mem_eraseDups, List.mem_filterMap, List.mem_map, events_eq seen]
    constructor
    · rintro ⟨x, among, number⟩
      have told : x ∈ s.trail.flatMap Event.ofCycle :=
        h.cycles ▸ List.mem_filter.mpr ⟨among, by simp [Event.inCycle, number]⟩
      obtain ⟨r, member, of⟩ := List.mem_flatMap.mp told
      exact ⟨r, member, by simpa [Event.cycle?_ofCycle of] using number⟩
    · rintro ⟨r, member, rfl⟩
      obtain ⟨x, of⟩ := List.exists_mem_of_ne_nil _ (h.shows r member).events
      have told : x ∈ s.trail.flatMap Event.ofCycle := List.mem_flatMap.mpr ⟨r, member, of⟩
      rw [← h.cycles] at told
      exact ⟨x, (List.mem_filter.mp told).1, Event.cycle?_ofCycle of⟩
  have perm := (List.perm_ext_iff_of_nodup (nodup_eraseDups _) distinct).mpr numbers
  simpa [Snapshot.cycles, Telemetry.snapshot] using perm.length_eq

theorem Told.agrees (numbered : s.Numbered) : s.Agrees n := by
  have rules (rule : RuleName) :
      s.telemetry.snapshot.count rule = s.trail.countP (·.names rule) := by
    have counted := countP_events h seen (p := Event.isFiring rule) fun x fires => by
      cases x <;> simp_all [Event.isFiring, Event.inCycle, Event.cycle?]
    have named : (s.trail.map fun r => if r.names rule then 1 else 0).sum =
        s.trail.countP (·.names rule) := by
      simp [List.sum_map_ite, List.countP_eq_length_filter]
    simp only [Event.countP_isFiring, named] at counted
    exact counted
  have cycles := cycles_eq h seen numbered
  have unintegrated : s.telemetry.snapshot.unintegratedMoves =
      s.diagnostics.countP (· matches .unintegratedMove _) :=
    countP_amiss h seen (fun _ _ => rfl) (fun _ => rfl) (fun _ => rfl) fun d _ => by cases d <;> rfl
  have exhausted : s.telemetry.snapshot.exhaustedSelections =
      s.diagnostics.countP (· matches .selectionExhausted) :=
    countP_amiss h seen (fun _ _ => rfl) (fun _ => rfl) (fun _ => rfl) fun d _ => by cases d <;> rfl
  have misunderstood : s.telemetry.snapshot.interpretationFailures =
      s.diagnostics.countP (· matches .interpretationFailed _) :=
    countP_amiss h seen (fun _ _ => rfl) (fun _ => rfl) (fun _ => rfl) fun d _ => by cases d <;> rfl
  have rollbacks : s.telemetry.snapshot.rollbacks = n := by
    rw [Snapshot.rollbacks_eq, Telemetry.snapshot, events_eq seen, List.countP_reverse, h.rollbacks]
  refine ⟨rules, cycles, unintegrated, exhausted, misunderstood, rollbacks, ?_⟩
  rw [Session.summary, Snapshot.summary, Snapshot.rulesFired_eq, funext rules, cycles, unintegrated,
    exhausted, rollbacks]

end

/-- The telemetry agrees with the audit trail. Whatever is asked of a new session and whatever the
interpreter and the generator come up with, as long as no event has left the window, every rule is
counted as often as records name it, there are as many cycles as records, what was amiss is counted
as often as records say so, and the rollbacks are the requests that failed for another reason than
the end of the dialogue. The summary has the same numbers. -/
theorem telemetry_agrees (e : Engine) (id : Uuid) (attempts : List Attempt)
    (seen : ((start e id).attemptAll e attempts).1.telemetry.latestFirst.length ≤
      Telemetry.window) :
    ((start e id).attemptAll e attempts).1.Agrees
      (((start e id).attemptAll e attempts).2.countP rolledBack) := by
  have told := (start_told (e := e) id).attemptAll (e := e) attempts
  rw [Nat.zero_add] at told
  exact told.agrees seen (attemptAll_numbered (start_numbered id) attempts)

theorem secondTry_agrees :
    ((start informative ⟨7⟩).attemptAll informative secondTry).1.telemetry.latestFirst.length = 5 ∧
      ((start informative ⟨7⟩).attemptAll informative secondTry).1.Agrees 1 := by
  have recorded : ((start informative ⟨7⟩).attemptAll informative
    secondTry).1.telemetry.latestFirst.length = 5 := rfl
  exact ⟨recorded, telemetry_agrees informative ⟨7⟩ secondTry (recorded ▸ by decide)⟩

end Session
end Dialogue
