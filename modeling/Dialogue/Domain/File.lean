import Dialogue.Domain.Basic
import Dialogue.Error
import Dialogue.Toml.Parser

/-!
Domain files: lists of entries that name each other by topic and task. A file is loaded entry by
entry, and the first inconsistency is reported.
-/
namespace Dialogue

inductive QuestionKind where
  | wh
  | yesNo
  | alt
  deriving DecidableEq

structure QuestionEntry where
  topic : String
  kind : QuestionKind
  var : Option String := none
  constraints : OrderedMap String String := ∅
  alternatives : List String := []
  phrase : Option String := none
  /-- The task to take up when the user asks the question. -/
  plan : Option String := none
  deriving DecidableEq

inductive StepEntry where
  | findout (topic : String)
  | raise (topic : String)
  | inform (proposition : Proposition)
  deriving DecidableEq

structure TaskEntry where
  id : String
  triggers : List String := []
  accommodable : Bool := true
  steps : List StepEntry
  deriving DecidableEq

structure DependencyEntry where
  question : String
  dependsOn : List String
  deriving DecidableEq

structure DomainFile where
  name : String
  questions : List QuestionEntry := []
  tasks : List TaskEntry := []
  dependencies : List DependencyEntry := []
  beliefs : OrderedMap String Value := ∅
  deriving DecidableEq

inductive DomainFault where
  | emptyName
  | question (fault : QuestionFault)
  | repeatedQuestion (topic : String)
  | emptyTaskId
  | repeatedTask (task : String)
  | noSteps (task : String)
  | unknownStepTopic (task topic : String)
  | unknownDependencyTopic (topic : String)
  | selfDependency (topic : String)
  | unknownPlan (topic task : String)
  deriving DecidableEq

def DomainFault.reason : DomainFault → String
  | emptyName => "domain name must not be empty"
  | question fault => fault.reason
  | repeatedQuestion topic => "question `" ++ topic ++ "` is defined twice"
  | emptyTaskId => "task id must not be empty"
  | repeatedTask task => "task `" ++ task ++ "` is defined twice"
  | noSteps task => "task `" ++ task ++ "` has no steps"
  | unknownStepTopic task topic =>
    "task `" ++ task ++ "` refers to unknown question `" ++ topic ++ "`"
  | unknownDependencyTopic topic => "dependency refers to unknown question `" ++ topic ++ "`"
  | selfDependency topic => "question `" ++ topic ++ "` cannot depend on itself"
  | unknownPlan topic task =>
    "question `" ++ topic ++ "` refers to unknown task `" ++ task ++ "`"

namespace QuestionEntry

/-- The question of an entry. The variable of a question for a value is `x` unless it is named. -/
def build (e : QuestionEntry) : Except DomainFault Question :=
  let built := match e.kind with
    | .wh => Question.buildWh (e.var.getD "x") e.topic e.constraints.entries
    | .yesNo => Question.buildYesNo e.topic
    | .alt => Question.buildAlt e.topic e.alternatives
  built.mapError .question

end QuestionEntry

namespace Domain

def addQuestion (d : Domain) (e : QuestionEntry) : Except DomainFault Domain := do
  let q ← e.build
  if (d.questionOn? q.topic).isSome then throw (.repeatedQuestion q.topic)
  let d := d.withQuestion q e.phrase
  return match e.plan with
    | some task => d.withQuestionPlan q.topic task
    | none => d

def stepAction (d : Domain) (task : String) : StepEntry → Except DomainFault PlanAction
  | .findout topic =>
    match d.questionOn? topic with
    | some q => pure (.findout q)
    | none => throw (.unknownStepTopic task topic)
  | .raise topic =>
    match d.questionOn? topic with
    | some q => pure (.raise q)
    | none => throw (.unknownStepTopic task topic)
  | .inform p => pure (.inform p)

def addTask (d : Domain) (e : TaskEntry) : Except DomainFault Domain := do
  let id := Text.trim e.id
  if id = "" then throw .emptyTaskId
  if d.tasks.contains id then throw (.repeatedTask id)
  if e.steps = [] then throw (.noSteps id)
  let actions ← e.steps.mapM (d.stepAction id)
  return d.withTask id ⟨e.triggers, e.accommodable, actions⟩

def addDependency (d : Domain) (topic on : String) : Except DomainFault Domain :=
  if (d.questionOn? topic).isNone then throw (.unknownDependencyTopic topic)
  else if (d.questionOn? on).isNone then throw (.unknownDependencyTopic on)
  else if on = topic then throw (.selfDependency on)
  else pure (d.withDependency topic on)

def checkPlans (d : Domain) : Except DomainFault Unit :=
  match d.questionPlans.entries.find? fun p => !d.tasks.contains p.2 with
  | some (topic, task) => throw (.unknownPlan topic task)
  | none => pure ()

/-- Loads a file: questions, then tasks, then dependencies, each in the order of the file. -/
def ofFile (f : DomainFile) : Except DomainFault Domain := do
  let name := Text.trim f.name
  if name = "" then throw .emptyName
  let d ← f.questions.foldlM addQuestion { name }
  let d ← f.tasks.foldlM addTask d
  let d ← (f.dependencies.flatMap fun e => e.dependsOn.map (e.question, ·)).foldlM
    (fun d e => d.addDependency e.1 e.2) d
  d.checkPlans
  return { d with beliefs := f.beliefs }

end Domain

/-! ### Entries as data trees -/

/-- The fields of a table that has no other fields than the named ones. A list by position may go on
after the last of them. -/
def Datum.closedFields? (names : List String) (least : Nat) : Datum → Option (List (Option Datum))
  | .record fields => if fields.all (·.1 ∈ names) then names.mapM (field? fields) else none
  | .list items => someFields? names least (.list (items.take names.length))
  | _ => none

namespace DomainFile

/-- The name of a kind, or a table with that one key and nothing in it. -/
def kindName? : Datum → Option String
  | .text name => some name
  | .record [(name, .record [])] | .record [(name, .list [])] => some name
  | _ => none

def kind? (d : Datum) : Option QuestionKind := do
  match ← kindName? d with
  | "wh" => some .wh
  | "yes_no" => some .yesNo
  | "alt" => some .alt
  | _ => none

def questionEntry? (d : Datum) : Option QuestionEntry := do
  let [topic, some kind, var, constraints, alternatives, phrase, plan] ← Datum.closedFields?
    ["topic", "kind", "variable", "constraints", "alternatives", "phrase", "plan"] 2 d | none
  return {
    topic := ← Datum.required .direct topic
    kind := ← kind? kind
    var := ← Datum.optional .direct var
    constraints := ← Datum.standard .direct ∅ constraints
    alternatives := ← Datum.standard .direct [] alternatives
    phrase := ← Datum.optional .direct phrase
    plan := ← Datum.optional .direct plan }

def stepEntry? (d : Datum) : Option StepEntry := do
  match ← Datum.single? d with
  | ("findout", d) => (readDatum? .direct d).map .findout
  | ("raise", d) => (readDatum? .direct d).map .raise
  | ("inform", d) =>
    let [predicate, value] ← Datum.closedFields? ["predicate", "value"] 2 d | none
    return .inform ⟨← Datum.required .direct predicate, ← Datum.required .direct value⟩
  | _ => none

def each? {α : Type} (read : Datum → Option α) : Datum → Option (List α)
  | .list items => items.mapM read
  | _ => none

def taskEntry? (d : Datum) : Option TaskEntry := do
  let [id, triggers, accommodable, steps] ← Datum.closedFields?
    ["id", "triggers", "accommodable", "steps"] 4 d | none
  return {
    id := ← Datum.required .direct id
    triggers := ← Datum.standard .direct [] triggers
    accommodable := ← Datum.standard .direct true accommodable
    steps := ← steps >>= each? stepEntry? }

def dependencyEntry? (d : Datum) : Option DependencyEntry := do
  let [question, dependsOn] ← Datum.closedFields? ["question", "depends_on"] 2 d | none
  return {
    question := ← Datum.required .direct question
    dependsOn := ← Datum.required .direct dependsOn }

def section? {α : Type} (read : Datum → Option α) : Option Datum → Option (List α)
  | none => some []
  | some d => each? read d

def ofDatum? (d : Datum) : Option DomainFile := do
  let .record _ := d | none
  let [name, questions, tasks, dependencies, beliefs] ← Datum.closedFields?
    ["name", "questions", "tasks", "dependencies", "beliefs"] 1 d | none
  return {
    name := ← Datum.required .direct name
    questions := ← section? questionEntry? questions
    tasks := ← section? taskEntry? tasks
    dependencies := ← section? dependencyEntry? dependencies
    beliefs := ← Datum.standard .direct ∅ beliefs }

end DomainFile

namespace Domain

def ofDatum (d : Datum) : Except Error Domain :=
  match DomainFile.ofDatum? d with
  | none => throw .unreadableToml
  | some f => (ofFile f).mapError fun fault => .configuration fault.reason

def ofToml (text : String) : Except Error Domain :=
  match Toml.parse? text with
  | none => throw .unreadableToml
  | some d => ofDatum d

def load : Option String → Except Error Domain
  | some text => ofToml text
  | none => throw .unreadableFile

end Domain
end Dialogue
