import Dialogue.Engine
import Dialogue.Telemetry
import Dialogue.State.Stored
import Dialogue.Uuid

/-!
Sessions: a dialogue with its audit trail and telemetry. An exchange either completes and replaces
the state, or fails and leaves state and trail as they were. After cancellation every exchange
fails.
-/
namespace Dialogue

structure Session where
  id : Uuid
  state : State
  /-- The records of all completed cycles, oldest first. -/
  trail : List CycleRecord := []
  telemetry : Telemetry := {}
  cancelled : Bool := false

structure SessionRecord where
  id : Uuid
  state : State
  trail : List CycleRecord := []
  deriving DecidableEq

namespace Session

def start (e : Engine) (id : Uuid) : Session := { id, state := e.initialState }

def resume (r : SessionRecord) : Session := { id := r.id, state := r.state, trail := r.trail }

def record (s : Session) : SessionRecord := ⟨s.id, s.state, s.trail⟩

def isFinished (s : Session) : Bool := s.state.terminated

def cancel (s : Session) : Session := { s with cancelled := true }

def adopt (s : Session) (x : Exchange) : Session :=
  { s with
    state := x.state
    trail := s.trail ++ x.records
    telemetry := x.records.foldl Telemetry.recordCycle s.telemetry }

/-- Notes a failed exchange; state and trail stay. -/
def reject (s : Session) (e : Error) : Session :=
  if e.isRollback then { s with telemetry := s.telemetry.record (.turnRolledBack e.stage?) } else s

/-- The session after an exchange, and the exchange or why it failed. -/
def settle (s : Session) (x : Except Abort Exchange) : Session × Except Error Exchange :=
  if s.cancelled then (s.reject .cancelled, throw .cancelled)
  else
    match x with
    | .ok x => (s.adopt x, pure x)
    | .error a =>
      if a.cancelling then (s.cancel.reject .cancelled, throw .cancelled)
      else (s.reject a.error, throw a.error)

def opening (e : Engine) (s : Session) : Session × Except Error Exchange :=
  s.settle (e.opening s.state)

def respond (e : Engine) (s : Session) (utterance : String) : Session × Except Error Exchange :=
  s.settle (e.respond s.state utterance)

def summary (s : Session) : Event := .sessionSummary s.telemetry.snapshot.summary

end Session

instance : Storable SessionRecord where
  toDatum r := .record [("id", toDatum r.id), ("state", toDatum r.state),
    ("trail", toDatum r.trail)]
  readDatum? mode d := do
    let [id, state, trail] ← Datum.someFields? ["id", "state", "trail"] 2 d | none
    return ⟨← Datum.required mode id, ← Datum.required mode state, ← Datum.standard mode [] trail⟩

end Dialogue
