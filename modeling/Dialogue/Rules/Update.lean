import Dialogue.Domain.Basic
import Dialogue.State.Basic
import Dialogue.Config

/-!
Update rules: how a move that was heard, or its absence, changes the state. The rules stand in a
table, and the first one that applies fires. Every rule that takes a move records it as integrated;
a move that no rule takes is recorded as such and drops the confidence to zero.
-/
namespace Dialogue

inductive UpdateRule where
  | integrateAsk
  | integrateAnswer
  | integrateAssert
  | integrateGreet
  | integrateQuit
  | integrateFeedback
  | findPlan
  | issueAccommodation
  | localQuestionAccommodation
  | dependentIssueAccommodation
  | downdateQud
  | execFindout
  deriving DecidableEq

/-- An answer settles a question or narrows it down. -/
def Answer.integrable (a : Answer) (q : Question) : Bool :=
  a.resolves q || a.relevant q && (q.combines a).isSome

namespace State

/-- The answer that waits for integration, if its confidence is not below the threshold. -/
def pendingAnswer (c : Config) (s : State) : Option Answer := do
  let m ← s.pending
  if m.confidence.lt c.threshold then none else m.answer?

def consume (m : Move) (s : State) : State :=
  (s.takePending.setConfidence m.confidence).recordMove m true

def ground (speaker : Speaker) (s : State) : State :=
  if speaker = .user then s.setGrounding true else s

/-- Commits to what settles a question, and completes the step that waits for it. -/
def settle (q : Question) (p : Proposition) (s : State) : State := (s.commit p).completeStepFor q

def startStepFor (q : Question) (s : State) : State :=
  match s.stepFor? q with
  | some step => s.startStep step.id
  | none => s

/-- Puts a question under discussion and applies an answer to it at once. -/
def accommodate (q : Question) (a : Answer) (s : State) : State :=
  let s := s.pushQuestion q
  match q.resolution a with
  | some p => s.popQuestion.settle q p
  | none =>
    match q.combines a with
    | some residual => (s.startStepFor q).pushQuestion residual
    | none => s

end State

namespace UpdateRule

/-- The plan to follow when the user asks a question: its own one, or else to find out whatever it
depends on and is unresolved. -/
def planForAsked? (d : Domain) (q : Question) (s : State) : Option Plan :=
  (d.planForQuestion? q).or <|
    match d.unresolvedDependencies q s.commitments with
    | [] => none
    | needed => some (.ofActions ("answer:" ++ q.topic) (needed.map .findout))

/-- A question is put under discussion, if it was understood with enough confidence. A question of
the user is planned for unless a plan is active. -/
def runIntegrateAsk (d : Domain) (c : Config) (s : State) : Option State := do
  let m ← s.pending
  let q ← m.question?
  guard (c.threshold.le m.confidence)
  let s := (s.consume m).pushQuestion q
  if m.speaker = .user && s.activePlan.isNone then
    match planForAsked? d q s with
    | some plan => return s.loadPlan plan
    | none => return s
  else return s

/-- An answer settles or narrows the topmost question, or settles one that it depends on. -/
def runIntegrateAnswer (d : Domain) (c : Config) (s : State) : Option State := do
  let m ← s.pending
  let a ← s.pendingAnswer c
  let top ← s.top
  let needed := (d.reachable top).find? a.resolves
  guard (a.integrable top || needed.isSome)
  let s := s.consume m
  let s := match top.resolution a, top.combines a, needed with
    | some p, _, _ => s.popQuestion.settle top p
    | none, some residual, _ => s.pushQuestion residual
    | none, none, some q =>
      match q.resolution a with
      | some p => s.settle q p
      | none => s
    | none, none, none => s
  return s.ground m.speaker

def runIntegrateAssert (s : State) : Option State := do
  let m ← s.pending
  match m.act with
  | .assert p => return ((s.consume m).commit p).ground m.speaker
  | _ => none

def runIntegrateGreet (s : State) : Option State := do
  let m ← s.pending
  guard (m.speaker = .user && m.act = .greet)
  return (s.consume m).enqueue (.greet .system)

/-- A farewell ends the dialogue; that of the user is returned. -/
def runIntegrateQuit (s : State) : Option State := do
  let m ← s.pending
  guard (m.act = .quit)
  let s := s.consume m
  let s := if m.speaker = .user then s.enqueue (.quit .system) else s
  return s.terminate

/-- The user's feedback that something was not understood drops the confidence. -/
def runIntegrateFeedback (s : State) : Option State := do
  let m ← s.pending
  match m.speaker, m.act with
  | .user, .feedback .notUnderstood => return (s.consume m).setConfidence .zero
  | .user, .feedback .acknowledge => return s.consume m
  | _, _ => none

/-- A requested task is planned for unless a plan is active. -/
def runFindPlan (d : Domain) (s : State) : Option State := do
  let m ← s.pending
  match m.act with
  | .request task =>
    guard (s.activePlan.isNone && d.isAccommodable task)
    let plan ← d.planFor? task
    return (s.consume m).loadPlan plan
  | _ => none

/-- The first question that the active plan is to find out, is not under discussion, and fits an
answer that does not fit the topmost question. -/
def plannedQuestion? (s : State) (a : Answer) : Option Question := do
  guard !(s.top.any a.integrable)
  let plan ← s.activePlan
  (plan.openFindouts.map (·.2)).find? fun q => q ∉ s.qud && a.integrable q

def runIssueAccommodation (c : Config) (s : State) : Option State := do
  let m ← s.pending
  let a ← s.pendingAnswer c
  let q ← plannedQuestion? s a
  return ((s.consume m).accommodate q a).ground m.speaker

/-- The first question below the topmost that the answer settles. -/
def buriedQuestion? (s : State) (a : Answer) : Option Question := s.qud.tail.find? a.resolves

def runLocalQuestionAccommodation (c : Config) (s : State) : Option State := do
  let m ← s.pending
  let a ← s.pendingAnswer c
  let q ← buriedQuestion? s a
  return ((s.consume m).accommodate q a).ground m.speaker

/-- The plan of the first task, if none is active, that finds out something the answer settles. -/
def answeredTask? (d : Domain) (s : State) (a : Answer) : Option (Plan × Question) := do
  guard s.activePlan.isNone
  ((d.tasks.keys.filter d.isAccommodable).filterMap d.planFor?).findSome? fun plan =>
    ((plan.openFindouts.map (·.2)).find? a.resolves).map (plan, ·)

def runDependentIssueAccommodation (d : Domain) (c : Config) (s : State) : Option State := do
  let m ← s.pending
  let a ← s.pendingAnswer c
  let (plan, q) ← answeredTask? d s a
  return (((s.consume m).loadPlan plan).accommodate q a).ground m.speaker

/-- A resolved question leaves the discussion, unless a move is pending. -/
def runDowndateQud (s : State) : Option State := do
  guard s.pending.isNone
  let top ← s.top
  guard (top.resolvedBy s.commitments)
  return s.popQuestion.completeStepFor top

/-- The next step of the active plan is carried out while nothing else is to be done: its question
is put under discussion, or the step is completed where the question is resolved. -/
def runExecFindout (s : State) : Option State := do
  guard (s.pending.isNone && s.agenda.isEmpty)
  let plan ← s.activePlan
  guard !(plan.hasOpenStep s.qud)
  let step ← plan.nextStep? s.qud
  let q ← step.action.question?
  if q.resolvedBy s.commitments then return s.completeStep step.id
  else return (s.pushQuestion q).startStep step.id

def run? (d : Domain) (c : Config) (s : State) : UpdateRule → Option State
  | integrateAsk => runIntegrateAsk d c s
  | integrateAnswer => runIntegrateAnswer d c s
  | integrateAssert => runIntegrateAssert s
  | integrateGreet => runIntegrateGreet s
  | integrateQuit => runIntegrateQuit s
  | integrateFeedback => runIntegrateFeedback s
  | findPlan => runFindPlan d s
  | issueAccommodation => runIssueAccommodation c s
  | localQuestionAccommodation => runLocalQuestionAccommodation c s
  | dependentIssueAccommodation => runDependentIssueAccommodation d c s
  | downdateQud => runDowndateQud s
  | execFindout => runExecFindout s

def all : List UpdateRule :=
  [integrateAsk, integrateAnswer, integrateAssert, integrateGreet, integrateQuit,
    integrateFeedback, findPlan, issueAccommodation, localQuestionAccommodation,
    dependentIssueAccommodation, downdateQud, execFindout]

def candidates (d : Domain) (c : Config) (s : State) (m : Option Move) : List UpdateRule :=
  all.filter fun r => (r.run? d c (s.setPending m)).isSome

def name : UpdateRule → String
  | integrateAsk => "IntegrateAsk"
  | integrateAnswer => "IntegrateAnswer"
  | integrateAssert => "IntegrateAssert"
  | integrateGreet => "IntegrateGreet"
  | integrateQuit => "IntegrateQuit"
  | integrateFeedback => "IntegrateIcm"
  | findPlan => "FindPlan"
  | issueAccommodation => "IssueAccommodation"
  | localQuestionAccommodation => "LocalQuestionAccommodation"
  | dependentIssueAccommodation => "DependentIssueAccommodation"
  | downdateQud => "DowndateQud"
  | execFindout => "ExecFindout"

instance : Storable UpdateRule where
  toDatum r := .text r.name
  readDatum? := Datum.ofNames? (all.map fun r => (r.name, r))

end UpdateRule

structure Integration where
  state : State
  rule : Option UpdateRule
  /-- How many rules were run. -/
  bodies : Nat
  /-- The move that no rule took. -/
  leftover : Option Move

/-- Takes a move that is still pending off the state: it was not integrated. -/
def State.abandonPending (s : State) : State :=
  match s.pending with
  | some m => (s.takePending.setConfidence .zero).recordMove m false
  | none => s

def State.integrate (d : Domain) (c : Config) (s : State) (m : Option Move) : Integration :=
  let waiting := s.setPending m
  match UpdateRule.all.findSome? fun r => (r.run? d c waiting).map (r, ·) with
  | some (rule, after) => ⟨after.abandonPending, some rule, 1, after.pending⟩
  | none => ⟨waiting.abandonPending, none, 0, waiting.pending⟩

end Dialogue
