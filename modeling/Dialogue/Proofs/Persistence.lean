import Dialogue.Proofs.Json
import Dialogue.Proofs.Request
import Dialogue.Store

/-!
Persistence loses nothing. A session is read back as it was saved, whatever operations led to its
state, and a session that is taken up again goes on as one that was never interrupted.
-/
namespace Dialogue

/-! Counters. -/

namespace State

variable {s : State}

theorem Records.length {given : Option Plan} {t : State} (h : s.Records given t) :
    t.history.length ≤ s.history.length + 1 := by
  cases h with
  | nothing => omega
  | change applies => simp [log, (Delta.change?_frame applies).1]

theorem mutated_length (ops : List Mutation) : (mutated ops).history.length ≤ ops.length := by
  induction ops using List.reverseRecOn with
  | nil => exact Nat.le_refl 0
  | append_singleton ops op ih =>
    have step := (op.records (mutated ops)).length
    simp only [mutated, List.foldl_append, List.foldl_cons, List.foldl_nil, List.length_append,
      List.length_singleton] at ih step ⊢
    omega

/-- No counter has counted more than the operations. -/
theorem mutated_counters (ops : List Mutation) : ∀ k ∈ (mutated ops).counters, k ≤ ops.length := by
  have logged := mutated_logged ops
  have few := mutated_length ops
  intro k member
  simp only [counters, List.mem_cons, List.mem_flatMap, List.not_mem_nil, or_false] at member
  obtain rfl | rfl | ⟨e, entry, which⟩ := member
  · rw [logged.cycles]
    exact List.countP_le_length.trans few
  · rw [logged.counts]
    exact few
  · obtain ⟨i, inside, rfl⟩ := List.getElem_of_mem entry
    have found := List.getElem?_eq_getElem inside
    rcases which with rfl | rfl
    · rw [logged.stamps i _ found]
      exact (List.countP_le_length.trans (List.length_take_le' _ _)).trans few
    · rw [logged.numbers i _ found]
      omega

end State

/-! Saving and loading. -/

namespace SessionRecord

/-- The record comes back from everywhere it may be written to as a text: its state from a text of
its own, and the whole from both stores, whatever they hold already. -/
structure ComesBack (r : SessionRecord) : Prop where
  state : State.ofJson? r.state.toJson = some r.state
  memory : ∀ m : MemoryStore, (m.save r).load r.id = .ok (some r)
  directory : ∀ d : Directory, (d.save r).load r.id = .ok (some r)

theorem ofText_eq_ok {r : SessionRecord} {text : String}
    (read : Json.parse? text = some (toDatum r)) (kept : ofDatum? (toDatum r) = some r) :
    ofText text = .ok r := by
  simp [ofText, read, kept, pure, Except.pure]

variable {r : SessionRecord}

/-- A record whose numbers the texts can carry is read back from both texts. -/
theorem ofText_of_admitted (state : r.state.Admitted Json.writable)
    (counters : ∀ x ∈ r.trail, ∀ k ∈ x.counters, Json.writable.ints k) :
    ofText (Json.compact (toDatum r)) = .ok r ∧ ofText (Directory.fileText r) = .ok r := by
  have whole : Kept Json.writable 10 r := kept_sessionRecord state counters
  exact ⟨ofText_eq_ok (Json.parse?_compact whole.fits (by decide)) (whole.read .direct),
    ofText_eq_ok (Json.parse?_pretty whole.fits (by decide)) (whole.read .direct)⟩

/-- Such a record comes back from everywhere. -/
theorem comesBack_of_admitted (state : r.state.Admitted Json.writable)
    (counters : ∀ x ∈ r.trail, ∀ k ∈ x.counters, Json.writable.ints k) : r.ComesBack := by
  have own : Kept Json.writable 9 r.state := state.kept
  obtain ⟨compact, pretty⟩ := ofText_of_admitted state counters
  refine ⟨?_, fun m => ?_, fun d => ?_⟩
  · simp only [State.ofJson?, State.toJson, Json.parse?_pretty own.fits (by decide)]
    exact own.read .direct
  · simp [MemoryStore.load, MemoryStore.save, compact, Except.map]
  · simp [Directory.load, Directory.save, pretty, Except.map]

end SessionRecord

def anyNumbers : Numbers := ⟨fun _ => True, fun _ => True⟩

theorem mutated_admitted {numbers : Numbers} (wide : ∀ i : Int64, numbers.ints i.toInt)
    (zero : numbers.reals .zero) (one : numbers.reals .one) {ops : List Mutation}
    (counters : ∀ k ≤ ops.length, numbers.ints k)
    (confidences : ∀ op ∈ ops, ∀ x ∈ op.confidences, x.isFinite = true ∧ numbers.reals x) :
    (State.mutated ops).Admitted numbers where
  wide := wide
  counters k member := counters k (State.mutated_counters ops k member)
  confidences :=
    have mutates : State.fresh.Mutates _ (.mutated ops) := ⟨ops, rfl, confidences⟩
    (mutates.sure ⟨rfl, zero⟩ ⟨rfl, one⟩ (State.fresh_sure ⟨rfl, one⟩)).confidences

theorem writable_int64 (i : Int64) : Json.writable.ints i.toInt := by
  have lower := i.minValue_le_toInt
  have upper := i.toInt_le
  simp only [Int64.toInt_minValue, Int64.toInt_maxValue] at lower upper
  constructor <;> omega

theorem writable_unit : Json.writable.reals .zero ∧ Json.writable.reals .one :=
  have exact : Json.Exact .zero ∧ Json.Exact .one := by decide +kernel
  exact

theorem writable_counter {k : Nat} (small : k < 2 ^ 64) : Json.writable.ints k := by
  constructor <;> omega

/-- Nothing is lost of a record that is saved. -/
structure SessionRecord.Survives (r : SessionRecord) : Prop where
  record : ofDatum? (toDatum r) = some r
  state : ofDatum? (toDatum r.state) = some r.state
  /-- A session that is taken up again goes on with the same outcomes, state and trail as if it had
  not been interrupted, whatever is asked of it and whatever its collaborators do then. -/
  resumes : ∀ s : Session, s.record = r → s.cancelled = false →
    ∃ saved, ofDatum? (toDatum s.record) = some saved ∧ ∀ e attempts,
      (s.attemptAll e attempts).2 = ((Session.resume saved).attemptAll e attempts).2 ∧
      (s.attemptAll e attempts).1.record =
        ((Session.resume saved).attemptAll e attempts).1.record

theorem SessionRecord.survives_of_admitted {r : SessionRecord}
    (state : r.state.Admitted anyNumbers) : r.Survives := by
  have own : Kept anyNumbers 9 r.state := state.kept
  have whole : Kept anyNumbers 10 r := kept_sessionRecord state fun _ _ _ _ => trivial
  refine ⟨whole.read .direct, own.read .direct, fun s same running => ?_⟩
  subst same
  refine ⟨s.record, whole.read .direct, fun e attempts => ?_⟩
  obtain ⟨alike, outcomes⟩ := (Session.alike_resume running).attemptAll (e := e) attempts
  exact ⟨outcomes, alike.record⟩

/-- Persistence loses nothing. Whatever operations led to the state of a record, as long as they
were given finite confidences, and whatever its audit trail, the record survives; its texts are read
back as well, as far as the counters have 64 bits and the reader gets the confidences back from
their texts. The state of every session that an engine makes is what such operations have led to, if
all moves heard have finite confidences. -/
theorem persistence_loses_nothing :
    (∀ (r : SessionRecord) (ops : List Mutation), r.state = .mutated ops →
      (∀ op ∈ ops, ∀ x ∈ op.confidences, x.isFinite = true) →
      r.Survives ∧
      (ops.length < 2 ^ 64 → (∀ x ∈ r.trail, ∀ k ∈ x.counters, k < 2 ^ 64) →
        (∀ op ∈ ops, ∀ x ∈ op.confidences, Json.Exact x) → r.ComesBack)) ∧
    ∀ e id (attempts : List Session.Attempt),
      (∀ a ∈ attempts, ∀ utterance s m, a.interpreter utterance s = .done m →
        m.confidence.isFinite = true) →
      ∃ ops, ((Session.start e id).attemptAll e attempts).1.state = .mutated ops ∧
        ∀ op ∈ ops, ∀ x ∈ op.confidences, x.isFinite = true := by
  refine ⟨fun r ops built finite => ⟨?_, fun few counted exact => ?_⟩,
    fun e id attempts hears => ?_⟩
  · have state : r.state.Admitted anyNumbers := built ▸
      mutated_admitted (fun _ => trivial) trivial trivial (fun _ _ => trivial)
        fun op member x given => ⟨finite op member x given, trivial⟩
    exact SessionRecord.survives_of_admitted state
  · have state : r.state.Admitted Json.writable := built ▸
      mutated_admitted writable_int64 writable_unit.1 writable_unit.2
        (fun k upTo => writable_counter (by omega))
        fun op member x given => ⟨finite op member x given, exact op member x given⟩
    exact SessionRecord.comesBack_of_admitted state fun x member k among =>
      writable_counter (counted x member k among)
  · exact Session.start_mutates (P := (·.isFinite = true)) rfl rfl id hears

/-- A trip is asked for, not quite clearly, and the system is about to ask back. -/
def halfHeard : List Mutation :=
  let said := (Move.request .user "book").withConfidence ⟨0x3F4CCCCD⟩
  let origin := Question.wh "x" "from" ∅
  [.believe ⟨"home", .text "Aix"⟩, .beginCycle .user, .recordMove said true,
    .setConfidence said.confidence,
    .loadPlan (.ofActions "book" [.findout origin, .raise (.yesNo "late")]),
    .pushQuestion (.alt "class" ["first", "second"]), .pushQuestion origin,
    .commit ⟨"seats", .int (-2)⟩, .commit ⟨"late", .bool true⟩, .enqueue (.ask .system origin),
    .setPending (some (.answer .user ⟨.text "Aix", none, some ⟨"from"⟩⟩)), .setGrounding true]

def halfHeardRecord : SessionRecord where
  id := ⟨7⟩
  state := .mutated halfHeard
  trail := [{
    cycle := 1
    speaker := .user
    phases := Phase.all
    diagnostics := [.unintegratedMove .request]
    input := some .request }]

def brieflyAsked : List Session.Attempt :=
  [⟨.respond "post", Engine.obliging.interpreter, Engine.obliging.generator⟩,
    ⟨.cancel, Engine.obliging.interpreter, Engine.obliging.generator⟩]

theorem halfHeard_comes_back :
    halfHeardRecord.state = .mutated halfHeard ∧
      (∀ op ∈ halfHeard, ∀ x ∈ op.confidences, x.isFinite = true) ∧
      halfHeardRecord.Survives ∧ halfHeardRecord.ComesBack ∧
      ∃ ops, ((Session.start Engine.obliging ⟨7⟩).attemptAll Engine.obliging brieflyAsked).1.state =
        .mutated ops := by
  have finite : ∀ op ∈ halfHeard, ∀ x ∈ op.confidences, x.isFinite = true := by decide +kernel
  obtain ⟨survives, texts⟩ := persistence_loses_nothing.1 halfHeardRecord halfHeard rfl finite
  have clear : ∀ a ∈ brieflyAsked, ∀ utterance s m, a.interpreter utterance s = .done m →
      m.confidence.isFinite = true := by
    have sure : Binary32.one.isFinite = true := rfl
    simp [brieflyAsked, Engine.obliging, Move.request, sure]
  obtain ⟨ops, state, -⟩ := persistence_loses_nothing.2 Engine.obliging ⟨7⟩ brieflyAsked clear
  exact ⟨rfl, finite, survives, texts (by decide) (by decide) (by decide +kernel), ops, state⟩

end Dialogue
