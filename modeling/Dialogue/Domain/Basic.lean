import Dialogue.Resolution
import Dialogue.Plan

/-!
Domains: the catalogue of questions with their phrases, the tasks with their plans, which question
depends on which, and what the system believes from the start. No two questions of a catalogue have
the same topic.
-/
namespace Dialogue

structure Task where
  triggers : List String
  /-- The task may be taken up without negotiation. -/
  accommodable : Bool
  actions : List PlanAction
  deriving DecidableEq

structure Domain where
  name : String
  questions : List Question := []
  distinct_topics : (questions.map Question.topic).Nodup := by simp
  /-- How to ask the question of a topic. -/
  phrases : OrderedMap String String := ∅
  /-- Which task to take up when the user asks the question of a topic. -/
  questionPlans : OrderedMap String String := ∅
  tasks : OrderedMap String Task := ∅
  /-- On which topics a topic depends. -/
  dependencies : OrderedMap String (OrderedSet String) := ∅
  beliefs : OrderedMap String Value := ∅

namespace Domain

/-- Puts a question at the end of a catalogue, in place of any other on its topic. -/
def catalogue (questions : List Question) (q : Question) : List Question :=
  questions.filter (·.topic ≠ q.topic) ++ [q]

theorem catalogue_distinct {questions : List Question} (q : Question)
    (distinct : (questions.map Question.topic).Nodup) :
    ((catalogue questions q).map Question.topic).Nodup := by
  rw [catalogue, List.map_append, List.nodup_append]
  refine ⟨distinct.sublist (List.filter_sublist.map _), by simp, ?_⟩
  intro a ha b hb
  obtain ⟨r, hr, rfl⟩ := List.mem_map.mp ha
  simp only [List.map_cons, List.map_nil, List.mem_singleton] at hb
  subst hb
  simpa using (List.mem_filter.mp hr).2

def withQuestion (d : Domain) (q : Question) (phrase : Option String) : Domain :=
  { d with
    questions := catalogue d.questions q
    distinct_topics := catalogue_distinct q d.distinct_topics
    phrases := match phrase with
      | some p => d.phrases.insert q.topic p
      | none => d.phrases }

def withTask (d : Domain) (id : String) (t : Task) : Domain :=
  { d with tasks := d.tasks.insert id t }

def withQuestionPlan (d : Domain) (topic task : String) : Domain :=
  { d with questionPlans := d.questionPlans.insert topic task }

def withDependency (d : Domain) (topic on : String) : Domain :=
  let known := (d.dependencies.get? topic).getD ∅
  { d with dependencies := d.dependencies.insert topic (known.insert on) }

def withBelief (d : Domain) (predicate : String) (v : Value) : Domain :=
  { d with beliefs := d.beliefs.insert predicate v }

def triggers (d : Domain) : List (String × String) :=
  d.tasks.entries.flatMap fun t => t.2.triggers.map (t.1, ·)

def planFor? (d : Domain) (task : String) : Option Plan :=
  (d.tasks.get? task).map fun t => .ofActions task t.actions

def isAccommodable (d : Domain) (task : String) : Bool := (d.tasks.get? task).any (·.accommodable)

def questionOn? (d : Domain) (topic : String) : Option Question :=
  d.questions.find? (·.topic = topic)

/-- The plan to follow when the user asks the question. -/
def planForQuestion? (d : Domain) (q : Question) : Option Plan :=
  (d.questionPlans.get? q.topic).bind d.planFor?

def phraseFor? (d : Domain) (q : Question) : Option String := d.phrases.get? q.topic

/-- The question cannot be answered before the other one is resolved. -/
def depends (d : Domain) (q on : Question) : Bool :=
  (d.dependencies.get? q.topic).any (on.topic ∈ ·)

/-- Where the belief about a question is looked up first: under its topic and the normal forms of
the values committed for the questions on which it depends, in the order of the catalogue. -/
def qualifiedTopic (d : Domain) (q : Question) (commitments : OrderedSet Proposition) : String :=
  let committed := (d.questions.filter (d.depends q)).filterMap fun on =>
    commitments.toList.find? fun p => (Answer.ofProposition p).resolves on
  q.topic ++ String.join (committed.map fun p => "." ++ Text.normalize p.value.wording)

def answerFromBeliefs? (d : Domain) (q : Question) (beliefs : OrderedMap String Value)
    (commitments : OrderedSet Proposition) : Option Proposition := do
  let v ← (beliefs.get? (d.qualifiedTopic q commitments)).or (beliefs.get? q.topic)
  q.resolution (.full q.topic v)

def dependenciesOf (d : Domain) (q : Question) : List Question :=
  d.questions.filter fun on => on ≠ q && d.depends q on

def needed (d : Domain) (q : Question) (candidates : List Question) : List Question :=
  candidates.filter (d.depends q)

def unneeded (d : Domain) (q : Question) (candidates : List Question) : List Question :=
  candidates.filter fun on => !d.depends q on

theorem length_needed_add (d : Domain) (q : Question) (candidates : List Question) :
    (d.needed q candidates).length + (d.unneeded q candidates).length = candidates.length := by
  induction candidates with
  | nil => rfl
  | cons on rest ih =>
    simp only [needed, unneeded, List.filter_cons, List.length_cons] at ih ⊢
    cases d.depends q on <;> simp <;> omega

/-- The questions of `remaining` that are found from those in the queue by following dependencies,
breadth first. A question found leaves `remaining` for the queue, so each is found once. -/
def explore (d : Domain) (remaining queue : List Question) : List Question :=
  match queue with
  | [] => []
  | q :: queue =>
    let found := d.needed q remaining
    found ++ d.explore (d.unneeded q remaining) (queue ++ found)
termination_by remaining.length + queue.length
decreasing_by
  have total := d.length_needed_add q remaining
  simp only [List.length_append, List.length_cons]
  omega

/-- The questions on which a question depends directly or indirectly, nearest first. -/
def reachable (d : Domain) (q : Question) : List Question :=
  d.explore (d.questions.filter (· ≠ q)) [q]

/-- The direct and indirect dependencies that no commitment resolves. -/
def unresolvedDependencies (d : Domain) (q : Question) (commitments : OrderedSet Proposition) :
    List Question :=
  (d.reachable q).filter fun on => !on.resolvedBy commitments

end Domain

/-! The same exploration as a loop, which marks the questions that it has seen. -/

/-- How far an exploration has come: the questions that it has seen, those in its queue, and those
that it has found. -/
structure Search where
  seen : List Question
  queue : List Question
  found : List Question

namespace Search

def start (q : Question) : Search := ⟨[q], [q], []⟩

/-- A question that was not seen yet is found, and goes to the end of the queue. -/
def visit (s : Search) (on : Question) : Search :=
  if on ∈ s.seen then s else ⟨on :: s.seen, s.queue ++ [on], s.found ++ [on]⟩

/-- Takes the first question from the queue and visits those on which it depends. -/
def step (d : Domain) (s : Search) : Search :=
  match s.queue with
  | [] => s
  | q :: queue => (d.dependenciesOf q).foldl visit { s with queue }

/-- The exploration comes to an end, as the queue runs empty, and has found these questions. -/
inductive Ends (d : Domain) : Search → List Question → Prop
  | done {s : Search} (empty : s.queue = []) : Ends d s s.found
  | next {s : Search} {found : List Question} (waits : s.queue ≠ [])
      (rest : Ends d (s.step d) found) : Ends d s found

end Search
end Dialogue
