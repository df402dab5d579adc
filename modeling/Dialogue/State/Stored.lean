import Dialogue.State.Basic
import Dialogue.Json.Parser
import Dialogue.Json.Printer

/-!
How states are stored: in three parts, what is private to the system, what is shared, and what
controls the dialogue. The stack of questions is written from its bottom to its top.
-/
namespace Dialogue

namespace Delta

def name : Delta → String
  | cycleStarted _ => "cycle_started"
  | moveRecorded _ _ => "move_recorded"
  | questionPushed _ => "qud_pushed"
  | questionPopped _ => "qud_popped"
  | commitmentAdded _ => "commitment_added"
  | moveEnqueued _ => "move_enqueued"
  | moveDequeued _ => "move_dequeued"
  | planLoaded _ => "plan_loaded"
  | stepStarted _ => "step_started"
  | stepCompleted _ => "step_completed"
  | beliefSet _ => "belief_set"
  | pendingSet _ => "pending_set"
  | pendingTaken _ => "pending_taken"
  | confidenceSet _ => "confidence_set"
  | groundingSet _ => "grounding_set"
  | floorSet _ => "floor_set"
  | terminated => "terminated"

def fields : Delta → List (String × Datum)
  | cycleStarted speaker | floorSet speaker => [("speaker", toDatum speaker)]
  | moveRecorded m integrated => [("mv", toDatum m), ("integrated", toDatum integrated)]
  | questionPushed q | questionPopped q => [("question", toDatum q)]
  | commitmentAdded p | beliefSet p => [("proposition", toDatum p)]
  | moveEnqueued m | moveDequeued m | pendingTaken m => [("mv", toDatum m)]
  | planLoaded task => [("task", toDatum task)]
  | stepStarted step | stepCompleted step => [("step", toDatum step)]
  | pendingSet m => [("mv", toDatum m)]
  | confidenceSet c => [("confidence", toDatum c)]
  | groundingSet awaiting => [("awaiting", toDatum awaiting)]
  | terminated => []

def readField? {α : Type} [Storable α] (field : String) (make : α → Delta) (d : Datum) :
    Option Delta := do
  let [content] ← Datum.fields? [field] d | none
  return make (← Datum.required .setAside content)

def readMoveRecorded? (d : Datum) : Option Delta := do
  let [m, integrated] ← Datum.fields? ["mv", "integrated"] d | none
  return moveRecorded (← Datum.required .setAside m) (← Datum.required .setAside integrated)

def readPendingSet? (d : Datum) : Option Delta := do
  let [m] ← Datum.fields? ["mv"] d | none
  return pendingSet (← Datum.optional .setAside m)

def readTerminated? (d : Datum) : Option Delta := do
  let [] ← Datum.fields? [] d | none
  return terminated

def readers : List (String × (Datum → Option Delta)) := [
  ("cycle_started", readField? "speaker" cycleStarted),
  ("move_recorded", readMoveRecorded?),
  ("qud_pushed", readField? "question" questionPushed),
  ("qud_popped", readField? "question" questionPopped),
  ("commitment_added", readField? "proposition" commitmentAdded),
  ("move_enqueued", readField? "mv" moveEnqueued),
  ("move_dequeued", readField? "mv" moveDequeued),
  ("plan_loaded", readField? "task" planLoaded),
  ("step_started", readField? "step" stepStarted),
  ("step_completed", readField? "step" stepCompleted),
  ("belief_set", readField? "proposition" beliefSet),
  ("pending_set", readPendingSet?),
  ("pending_taken", readField? "mv" pendingTaken),
  ("confidence_set", readField? "confidence" confidenceSet),
  ("grounding_set", readField? "awaiting" groundingSet),
  ("floor_set", readField? "speaker" floorSet),
  ("terminated", readTerminated?)]

instance : Storable Delta where
  toDatum d := .record (("delta", .text d.name) :: d.fields)
  readDatum? mode := Datum.tagged? mode "delta" readers

end Delta

instance : Storable Entry where
  toDatum e := .record [("cycle", toDatum e.cycle), ("version", toDatum e.version),
    ("delta", toDatum e.delta)]
  readDatum? mode d := do
    let [cycle, version, delta] ← Datum.fields? ["cycle", "version", "delta"] d | none
    return ⟨← Datum.required mode cycle, ← Datum.required mode version, ← Datum.required mode delta⟩

namespace State

def privatePart (s : State) : Datum :=
  .record [("beliefs", toDatum s.beliefs), ("agenda", toDatum s.agenda), ("plan", toDatum s.plan)]

def sharedPart (s : State) : Datum :=
  .record [("qud", toDatum s.qud.reverse), ("commitments", toDatum s.commitments),
    ("history", toDatum s.history)]

def controlPart (s : State) : Datum :=
  .record [("turn", toDatum s.turn), ("next_speaker", toDatum s.nextSpeaker),
    ("cycle", toDatum s.cycle), ("pending", toDatum s.pending),
    ("last_confidence", toDatum s.lastConfidence),
    ("awaiting_grounding", toDatum s.awaitingGrounding), ("terminated", toDatum s.terminated)]

def readPrivate? (mode : Reading) (d : Datum) (s : State) : Option State := do
  let [beliefs, agenda, plan] ← Datum.fields? ["beliefs", "agenda", "plan"] d | none
  return { s with
    beliefs := ← Datum.required mode beliefs
    agenda := ← Datum.required mode agenda
    plan := ← Datum.optional mode plan }

def readShared? (mode : Reading) (d : Datum) (s : State) : Option State := do
  let [qud, commitments, history] ← Datum.fields? ["qud", "commitments", "history"] d | none
  let bottomFirst : List Question ← Datum.required mode qud
  return { s with
    qud := bottomFirst.reverse
    commitments := ← Datum.required mode commitments
    history := ← Datum.required mode history }

def readControl? (mode : Reading) (d : Datum) (s : State) : Option State := do
  let [turn, next, cycle, pending, confidence, awaiting, terminated] ←
    Datum.fields? ["turn", "next_speaker", "cycle", "pending", "last_confidence",
      "awaiting_grounding", "terminated"] d | none
  return { s with
    turn := ← Datum.required mode turn
    nextSpeaker := ← Datum.required mode next
    cycle := ← Datum.required mode cycle
    pending := ← Datum.optional mode pending
    lastConfidence := ← Datum.required mode confidence
    awaitingGrounding := ← Datum.required mode awaiting
    terminated := ← Datum.required mode terminated }

instance : Storable State where
  toDatum s := .record [("private", s.privatePart), ("shared", s.sharedPart),
    ("control", s.controlPart), ("version", toDatum s.version)]
  readDatum? mode d := do
    let [some own, some common, some control, version] ←
      Datum.fields? ["private", "shared", "control", "version"] d | none
    let s ← readPrivate? mode own fresh >>= readShared? mode common >>= readControl? mode control
    return { s with version := ← Datum.required mode version }

def toJson (s : State) : String := Json.pretty (toDatum s)

def ofJson? (text : String) : Option State := Json.parse? text >>= ofDatum?

end State
end Dialogue
