import Dialogue.Domain.Basic
import Dialogue.State.Basic
import Dialogue.Config

/-!
Selection rules: which move the system makes next. The rules stand in a table, and the first one
that applies fires. A selected move is recorded at once, and says who is to speak next; when no rule
applies, the user is.
-/
namespace Dialogue

inductive SelectionRule where
  | clarify
  | ask
  | fromAgenda
  | raiseQuestion
  | fromPlan
  | answer
  | grounding
  deriving DecidableEq

/-- Records a move of the system. Any such move grounds what the user said. -/
def State.emit (m : Move) (s : State) : State := (s.recordMove m true).setGrounding false

namespace SelectionRule

def emitting (m : Move) (s : State) : State × Move := (s.emit m, m)

/-- After an uncertain turn the topmost question is asked again, unless the user asked it. -/
def runClarify (c : Config) (s : State) : Option (State × Move) := do
  guard (s.lastConfidence.lt c.threshold)
  let s := s.setConfidence .one
  match s.top with
  | some top =>
    if s.lastAsker top = some .user then return emitting (.feedback .system .notUnderstood) s
    else return emitting (.ask .system top) s
  | none => return emitting (.feedback .system .notUnderstood) s

/-- A question at the front of the agenda is asked and put under discussion. -/
def runAsk (s : State) : Option (State × Move) := do
  let m ← s.agenda.head?
  let q ← m.question?
  return emitting m (s.dequeue.pushQuestion q)

/-- Any other move at the front of the agenda is made. What it asserts is committed. -/
def runFromAgenda (s : State) : Option (State × Move) := do
  let m ← s.agenda.head?
  match m.act with
  | .ask _ => none
  | .assert p => return emitting m (s.dequeue.commit p)
  | _ => return emitting m s.dequeue

/-- The topmost question is asked if that was never done and it is open. A step that only raises it
is completed thereby. -/
def runRaiseQuestion (s : State) : Option (State × Move) := do
  let top ← s.top
  guard (!s.wasAsked top && !top.resolvedBy s.commitments)
  match s.stepFor? top with
  | some ⟨id, .raise _, _⟩ => return emitting (.ask .system top) (s.completeStep id)
  | _ => return emitting (.ask .system top) s

/-- The next step of the active plan is carried out, if the agenda is empty and no step is open. -/
def runFromPlan (s : State) : Option (State × Move) := do
  guard s.agenda.isEmpty
  let plan ← s.activePlan
  guard !(plan.hasOpenStep s.qud)
  let step ← plan.nextStep? s.qud
  match step.action with
  | .findout q =>
    guard !(q.resolvedBy s.commitments)
    let s := s.pushQuestion q
    return emitting (.ask .system q) (if step.status = .pending then s.startStep step.id else s)
  | .raise q =>
    guard !(q.resolvedBy s.commitments)
    return emitting (.ask .system q) ((s.pushQuestion q).completeStep step.id)
  | .inform p => return emitting (.assert .system p) ((s.commit p).completeStep step.id)

/-- A question of the user is answered from beliefs, if nothing it depends on is unresolved. -/
def runAnswer (d : Domain) (s : State) : Option (State × Move) := do
  let top ← s.top
  guard (s.lastAsker top = some .user && (d.unresolvedDependencies top s.commitments).isEmpty)
  let p ← d.answerFromBeliefs? top s.beliefs s.commitments
  return emitting (.answer .system ((Answer.ofProposition p).addressing top.key))
    ((s.popQuestion.commit p).completeStepFor top)

def runGrounding (s : State) : Option (State × Move) := do
  guard s.awaitingGrounding
  return emitting (.feedback .system .acknowledge) s

def run? (d : Domain) (c : Config) (s : State) : SelectionRule → Option (State × Move)
  | clarify => runClarify c s
  | ask => runAsk s
  | fromAgenda => runFromAgenda s
  | raiseQuestion => runRaiseQuestion s
  | fromPlan => runFromPlan s
  | answer => runAnswer d s
  | grounding => runGrounding s

def all : List SelectionRule :=
  [clarify, ask, fromAgenda, raiseQuestion, fromPlan, answer, grounding]

def candidates (d : Domain) (c : Config) (s : State) : List SelectionRule :=
  all.filter fun r => (r.run? d c s).isSome

def name : SelectionRule → String
  | clarify => "SelectClarify"
  | ask => "SelectAsk"
  | fromAgenda => "SelectFromAgenda"
  | raiseQuestion => "SelectRaiseQuestion"
  | fromPlan => "SelectFromPlan"
  | answer => "SelectAnswer"
  | grounding => "SelectGrounding"

instance : Storable SelectionRule where
  toDatum r := .text r.name
  readDatum? := Datum.ofNames? (all.map fun r => (r.name, r))

end SelectionRule

structure Selection where
  state : State
  /-- The rule that fired, with the move it selected. -/
  chosen : Option (SelectionRule × Move)
  /-- How many rules were run. -/
  bodies : Nat

namespace Selection

def rule (x : Selection) : Option SelectionRule := x.chosen.map (·.1)
def move (x : Selection) : Option Move := x.chosen.map (·.2)

end Selection

def State.select (d : Domain) (c : Config) (s : State) : Selection :=
  match SelectionRule.all.findSome? fun r => (r.run? d c s).map (r, ·) with
  | some (rule, after, m) =>
    ⟨after.giveFloor (if m.yieldsFloor then .user else .system), some (rule, m), 1⟩
  | none => ⟨s.giveFloor .user, none, 0⟩

end Dialogue
