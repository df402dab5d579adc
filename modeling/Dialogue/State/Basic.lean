import Dialogue.Move
import Dialogue.Plan

/-!
The information state of a dialogue: what the system believes and plans, what both parties share,
and who is to speak. Every operation that changes the state appends one entry to the history, and
the version counts the entries; operations that change nothing leave no entry.
-/
namespace Dialogue

inductive Delta where
  | cycleStarted (speaker : Speaker)
  /-- A move was heard or said. It is integrated unless no update rule took it. -/
  | moveRecorded (move : Move) (integrated : Bool)
  | questionPushed (question : Question)
  | questionPopped (question : Question)
  | commitmentAdded (proposition : Proposition)
  | moveEnqueued (move : Move)
  | moveDequeued (move : Move)
  | planLoaded (task : String)
  | stepStarted (step : StepId)
  | stepCompleted (step : StepId)
  | beliefSet (proposition : Proposition)
  | pendingSet (move : Option Move)
  | pendingTaken (move : Move)
  | confidenceSet (confidence : Binary32)
  | groundingSet (awaiting : Bool)
  | floorSet (speaker : Speaker)
  | terminated
  deriving DecidableEq

structure Entry where
  cycle : Nat
  version : Nat
  delta : Delta
  deriving DecidableEq

structure State where
  beliefs : OrderedMap String Value := ∅
  /-- Moves to be made, the next one first. -/
  agenda : List Move := []
  plan : Option Plan := none
  /-- The questions under discussion, the topmost first. -/
  qud : List Question := []
  commitments : OrderedSet Proposition := ∅
  /-- Oldest entry first. -/
  history : List Entry := []
  turn : Speaker := .system
  nextSpeaker : Speaker := .system
  cycle : Nat := 0
  /-- The move that waits for integration. -/
  pending : Option Move := none
  lastConfidence : Binary32 := .one
  awaitingGrounding : Bool := false
  terminated : Bool := false
  version : Nat := 0
  deriving DecidableEq

namespace State

def fresh : State := {}

instance : Inhabited State := ⟨fresh⟩

def activePlan (s : State) : Option Plan := s.plan.filter Plan.isActive

def top (s : State) : Option Question := s.qud.head?

def log (s : State) (d : Delta) : State :=
  { s with version := s.version + 1, history := s.history ++ [⟨s.cycle, s.version + 1, d⟩] }

def pushQuestion (s : State) (q : Question) : State :=
  { s with qud := q :: s.qud }.log (.questionPushed q)

def popQuestion (s : State) : State :=
  match s.qud with
  | [] => s
  | q :: rest => { s with qud := rest }.log (.questionPopped q)

/-- Adds a commitment. Commitments only grow, and adding a known one changes nothing. -/
def commit (s : State) (p : Proposition) : State :=
  if p ∈ s.commitments then s
  else { s with commitments := s.commitments.insert p }.log (.commitmentAdded p)

def recordMove (s : State) (m : Move) (integrated : Bool) : State :=
  s.log (.moveRecorded m integrated)

def enqueue (s : State) (m : Move) : State :=
  { s with agenda := s.agenda ++ [m] }.log (.moveEnqueued m)

def dequeue (s : State) : State :=
  match s.agenda with
  | [] => s
  | m :: rest => { s with agenda := rest }.log (.moveDequeued m)

def loadPlan (s : State) (p : Plan) : State :=
  { s with plan := some p }.log (.planLoaded p.task)

/-- Sets the status of a step of the plan, if there is one with this id and another status. -/
def setStep (s : State) (id : StepId) (status : StepStatus) (d : Delta) : State :=
  match s.plan.bind (·.setStatus? id status) with
  | some p => { s with plan := some p }.log d
  | none => s

def startStep (s : State) (id : StepId) : State := s.setStep id .inProgress (.stepStarted id)

def completeStep (s : State) (id : StepId) : State := s.setStep id .completed (.stepCompleted id)

def stepFor? (s : State) (q : Question) : Option PlanStep := s.plan.bind (·.stepFor? q)

def completeStepFor (s : State) (q : Question) : State :=
  match s.stepFor? q with
  | some step => s.completeStep step.id
  | none => s

def believe (s : State) (p : Proposition) : State :=
  { s with beliefs := s.beliefs.insert p.predicate p.value }.log (.beliefSet p)

/-- Starts a cycle with a speaker's turn. The turn of the user ends the wait for grounding. -/
def beginCycle (s : State) (speaker : Speaker) : State :=
  { s with
    cycle := s.cycle + 1
    turn := speaker
    awaitingGrounding := s.awaitingGrounding && speaker ≠ Speaker.user }.log (.cycleStarted speaker)

def samePending : Option Move → Option Move → Bool
  | none, none => true
  | some a, some b => a.agrees b
  | _, _ => false

def setPending (s : State) (m : Option Move) : State :=
  if samePending s.pending m then s else { s with pending := m }.log (.pendingSet m)

def takePending (s : State) : State :=
  match s.pending with
  | none => s
  | some m => { s with pending := none }.log (.pendingTaken m)

def setConfidence (s : State) (c : Binary32) : State :=
  if s.lastConfidence == c.clampUnit then s
  else { s with lastConfidence := c.clampUnit }.log (.confidenceSet c.clampUnit)

def setGrounding (s : State) (awaiting : Bool) : State :=
  if s.awaitingGrounding = awaiting then s
  else { s with awaitingGrounding := awaiting }.log (.groundingSet awaiting)

def giveFloor (s : State) (speaker : Speaker) : State :=
  if s.nextSpeaker = speaker then s else { s with nextSpeaker := speaker }.log (.floorSet speaker)

def terminate (s : State) : State :=
  if s.terminated then s else { s with terminated := true }.log .terminated

def withBeliefs (beliefs : OrderedMap String Value) : State :=
  beliefs.entries.foldl (fun s b => s.believe ⟨b.1, b.2⟩) fresh

def Entry.asker? (q : Question) (e : Entry) : Option Speaker :=
  match e.delta with
  | .moveRecorded m _ => if m.question? = some q then some m.speaker else none
  | _ => none

/-- Who asked the question aloud most recently. -/
def lastAsker (s : State) (q : Question) : Option Speaker :=
  s.history.reverse.findSome? (Entry.asker? q)

def wasAsked (s : State) (q : Question) : Bool := (s.lastAsker q).isSome

def moves (s : State) : List (Move × Bool) :=
  s.history.filterMap fun e =>
    match e.delta with
    | .moveRecorded m integrated => some (m, integrated)
    | _ => none

end State
end Dialogue
