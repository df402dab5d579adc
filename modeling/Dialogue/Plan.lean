import Dialogue.Value
import Dialogue.Question

/-!
Plans: the steps of one task in order. A plan is active while any step is not completed. The
questions under discussion decide which of the steps begun are still open.
-/
namespace Dialogue

structure StepId where
  text : String
  deriving DecidableEq

instance : Storable StepId where
  toDatum i := toDatum i.text
  readDatum? mode d := (readDatum? mode d).map StepId.mk

inductive PlanAction where
  /-- Ask, and wait until the question is resolved. -/
  | findout (question : Question)
  /-- Ask without waiting for an answer. -/
  | raise (question : Question)
  | inform (proposition : Proposition)
  deriving DecidableEq

def PlanAction.question? : PlanAction → Option Question
  | findout q | raise q => some q
  | inform _ => none

inductive StepStatus where
  | pending
  | inProgress
  | completed
  deriving DecidableEq

structure PlanStep where
  id : StepId
  action : PlanAction
  status : StepStatus
  deriving DecidableEq

structure Plan where
  task : String
  steps : List PlanStep
  deriving DecidableEq

namespace Plan

/-- The plan of the actions; a step is identified by the task and its index. -/
def ofActions (task : String) (actions : List PlanAction) : Plan where
  task
  steps := actions.mapIdx fun i action => ⟨⟨task ++ "/" ++ toString i⟩, action, .pending⟩

def isActive (p : Plan) : Bool := p.steps.any fun s => s.status ≠ .completed

/-- The first step not completed that asks the question. -/
def stepFor? (p : Plan) (q : Question) : Option PlanStep :=
  p.steps.find? fun s => s.status ≠ .completed && s.action.question? = some q

/-- A step was begun and its question is under discussion. -/
def hasOpenStep (p : Plan) (discussed : List Question) : Bool :=
  p.steps.any fun s => s.status = .inProgress && s.action.question?.any (· ∈ discussed)

/-- A step may be carried out: it is pending, or it was begun and its question was dropped. -/
def isDue (discussed : List Question) (s : PlanStep) : Bool :=
  match s.status with
  | .pending => true
  | .inProgress => s.action.question?.any (· ∉ discussed)
  | .completed => false

def nextStep? (p : Plan) (discussed : List Question) : Option PlanStep :=
  p.steps.find? (isDue discussed)

/-- The steps not completed that find something out, with their questions. -/
def openFindouts (p : Plan) : List (StepId × Question) :=
  p.steps.filterMap fun s =>
    match s.status, s.action with
    | .completed, _ => none
    | _, .findout q => some (s.id, q)
    | _, _ => none

/-- Sets the status of the first step with this id, if that changes it. -/
def setStatusIn (id : StepId) (status : StepStatus) : List PlanStep → Option (List PlanStep)
  | [] => none
  | s :: rest =>
    if s.id = id then
      if s.status = status then none else some ({ s with status } :: rest)
    else (setStatusIn id status rest).map (s :: ·)

/-- The plan after a change of status; `none` if nothing changes. -/
def setStatus? (p : Plan) (id : StepId) (status : StepStatus) : Option Plan :=
  (setStatusIn id status p.steps).map fun steps => { p with steps }

end Plan

instance : Storable PlanAction where
  toDatum
    | .findout q => .record [("findout", toDatum q)]
    | .raise q => .record [("raise", toDatum q)]
    | .inform p => .record [("inform", toDatum p)]
  readDatum? mode d := do
    match ← Datum.single? d with
    | ("findout", d) => (readDatum? mode d).map .findout
    | ("raise", d) => (readDatum? mode d).map .raise
    | ("inform", d) => (readDatum? mode d).map .inform
    | _ => none

instance : Storable StepStatus where
  toDatum
    | .pending => .text "pending"
    | .inProgress => .text "in_progress"
    | .completed => .text "completed"
  readDatum? := Datum.ofNames?
    [("pending", .pending), ("in_progress", .inProgress), ("completed", .completed)]

instance : Storable PlanStep where
  toDatum s := .record [("id", toDatum s.id), ("action", toDatum s.action),
    ("status", toDatum s.status)]
  readDatum? mode d := do
    let [id, action, status] ← Datum.fields? ["id", "action", "status"] d | none
    return ⟨← Datum.required mode id, ← Datum.required mode action, ← Datum.required mode status⟩

instance : Storable Plan where
  toDatum p := .record [("task", toDatum p.task), ("steps", toDatum p.steps)]
  readDatum? mode d := do
    let [task, steps] ← Datum.fields? ["task", "steps"] d | none
    return ⟨← Datum.required mode task, ← Datum.required mode steps⟩

end Dialogue
