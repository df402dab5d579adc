import Mathlib.Data.List.Induction
import Dialogue.Proofs.Loading
import Dialogue.Proofs.Plan

/-!
Which files are loaded. A file is read entry by entry, and each entry is checked against what the
entries before it have made; taken together the checks say that the parts of the file fit each
other, in whatever order they are looked at. What was loaded holds a template for each task, step by
step.
-/
namespace Dialogue

def StepEntry.topic? : StepEntry → Option String
  | findout topic | raise topic => some topic
  | inform _ => none

namespace DomainFile

def topics (f : DomainFile) : List String := f.questions.map fun e => Text.trim e.topic

def taskIds (f : DomainFile) : List String := f.tasks.map fun e => Text.trim e.id

structure Consistent (f : DomainFile) : Prop where
  named : Text.trim f.name ≠ ""
  accepted : ∀ e ∈ f.questions, ∃ q, e.build = .ok q
  distinctTopics : f.topics.Nodup
  namedTasks : ∀ e ∈ f.tasks, Text.trim e.id ≠ ""
  distinctTasks : f.taskIds.Nodup
  steps : ∀ e ∈ f.tasks, e.steps ≠ [] ∧
    ∀ step ∈ e.steps, ∀ topic, step.topic? = some topic → topic ∈ f.topics
  dependencies : ∀ e ∈ f.pairs, e.1 ∈ f.topics ∧ e.2 ∈ f.topics ∧ e.2 ≠ e.1
  plans : ∀ e ∈ f.questions, ∀ task, e.plan = some task → task ∈ f.taskIds

end DomainFile

/-- A plan has one step for each step of the task, in their order, all of them pending, and no two
steps of it have one identifier. -/
structure TaskEntry.Template (e : TaskEntry) (d : Domain) (plan : Plan) : Prop where
  steps : List.Forall₂ (fun entry (step : PlanStep) => d.Stands entry step.action)
    e.steps plan.steps
  pending : ∀ step ∈ plan.steps, step.status = .pending
  distinct : plan.Distinct

structure DomainFile.Describes (f : DomainFile) (d : Domain) : Prop where
  catalogue : List.Forall₂ (fun (e : QuestionEntry) q => e.build = .ok q) f.questions d.questions
  tasks : ∀ task, (d.planFor? task).isSome = true ↔ task ∈ f.taskIds
  templates : ∀ e ∈ f.tasks, ∀ plan, d.planFor? (Text.trim e.id) = some plan → e.Template d plan
  asked : ∀ task plan, d.planFor? task = some plan → ∀ step ∈ plan.steps, ∀ q,
    step.action.question? = some q → q ∈ d.questions
  planned : ∀ topic task, d.questionPlans.get? topic = some task ↔
    ∃ e ∈ f.questions, Text.trim e.topic = topic ∧ e.plan = some task
  followed : ∀ q task, d.questionPlans.get? q.topic = some task →
    ∃ plan, d.planFor? task = some plan ∧ d.planForQuestion? q = some plan

/-! Lists. -/

variable {α β : Type}

theorem nodup_map_iff {g : α → β} {xs : List α} : (xs.map g).Nodup ↔
    ∀ earlier a later, xs = earlier ++ a :: later → g a ∉ earlier.map g := by
  constructor
  · rintro distinct earlier a later rfl known
    rw [List.map_append, List.map_cons] at distinct
    exact (List.nodup_append.mp distinct).2.2 _ known _ List.mem_cons_self rfl
  · intro fresh
    induction xs using List.reverseRecOn with
    | nil => exact List.nodup_nil
    | append_singleton xs x ih =>
      have before : (xs.map g).Nodup := ih fun earlier a later split =>
        fresh earlier a (later ++ [x]) (by simp [split])
      rw [List.map_append, List.nodup_append]
      refine ⟨before, by simp, fun _ known _ last => ?_⟩
      rw [List.mem_singleton.mp last]
      rintro rfl
      exact fresh xs x [] rfl known

theorem forall_split_iff {P : α → Prop} {xs : List α} :
    (∀ earlier a later, xs = earlier ++ a :: later → P a) ↔ ∀ a ∈ xs, P a := by
  constructor
  · intro holds a member
    obtain ⟨earlier, later, split⟩ := List.append_of_mem member
    exact holds earlier a later split
  · rintro holds earlier a later rfl
    exact holds a (by simp)

theorem exists_forall₂ {R : α → β → Prop} {xs : List α} :
    (∃ ys, List.Forall₂ R xs ys) ↔ ∀ x ∈ xs, ∃ y, R x y := by
  induction xs with
  | nil => simp
  | cons x xs ih =>
    simp only [List.forall₂_cons_left_iff, List.forall_mem_cons, ← ih]
    constructor
    · rintro ⟨_, y, ys, now, rest, rfl⟩
      exact ⟨⟨y, now⟩, ys, rest⟩
    · rintro ⟨⟨y, now⟩, ys, rest⟩
      exact ⟨_, y, ys, now, rest, rfl⟩

theorem exists_of_forall₂ {R : α → β → Prop} {xs : List α} {ys : List β} {y : β}
    (related : List.Forall₂ R xs ys) (member : y ∈ ys) : ∃ x, R x y := by
  induction related with
  | nil => simp at member
  | @cons first other _ _ now _ ih =>
    rcases List.mem_cons.mp member with rfl | later
    · exact ⟨first, now⟩
    · exact ih later

namespace QuestionEntry

variable {e : QuestionEntry} {q : Question}

theorem topics_of_build {entries : List QuestionEntry} {questions : List Question}
    (made : List.Forall₂ (fun (e : QuestionEntry) q => e.build = .ok q) entries questions) :
    questions.map Question.topic = entries.map fun e => Text.trim e.topic := by
  induction made with
  | nil => rfl
  | cons made _ ih => rw [List.map_cons, List.map_cons, topic_of_build made, ih]

end QuestionEntry

namespace Domain

variable {d base : Domain} {q : Question}

structure Asks (d : Domain) (done : List QuestionEntry) : Prop where
  catalogue : List.Forall₂ (fun (e : QuestionEntry) q => e.build = .ok q) done d.questions
  planned : ∀ topic task, d.questionPlans.get? topic = some task ↔
    ∃ e ∈ done, Text.trim e.topic = topic ∧ e.plan = some task
  idle : d.tasks = ∅

theorem Asks.topics {done : List QuestionEntry} (h : d.Asks done) :
    d.questions.map Question.topic = done.map fun e => Text.trim e.topic :=
  QuestionEntry.topics_of_build h.catalogue

theorem Asks.step (done : List QuestionEntry) (e : QuestionEntry) (d : Domain) (h : d.Asks done) :
    ((∃ next, d.addQuestion e = .ok next) ↔
      (∃ q, e.build = .ok q) ∧ Text.trim e.topic ∉ done.map fun e => Text.trim e.topic) ∧
    ∀ next, d.addQuestion e = .ok next → next.Asks (done ++ [e]) := by
  simp only [addQuestion_eq_ok, h.topics]
  constructor
  · constructor
    · rintro ⟨_, q, made, fresh, _⟩
      exact ⟨⟨q, made⟩, QuestionEntry.topic_of_build made ▸ fresh⟩
    · rintro ⟨⟨q, made⟩, fresh⟩
      exact ⟨_, q, made, QuestionEntry.topic_of_build made ▸ fresh, rfl⟩
  · rintro next ⟨q, made, fresh, rfl⟩
    have questions : (d.withEntry e q).questions = d.questions ++ [q] := by
      rw [← catalogue_of_fresh (h.topics ▸ fresh)]
      unfold withEntry
      split <;> rfl
    refine ⟨?_, fun topic task => ?_, ?_⟩
    · rw [questions]
      exact List.rel_append h.catalogue (.cons made .nil)
    · have unknown : ∀ x ∈ done, Text.trim x.topic ≠ q.topic := fun x member same =>
        fresh (same ▸ List.mem_map_of_mem member)
      have about := QuestionEntry.topic_of_build made
      cases plan : e.plan with
      | none =>
        rw [withEntry, plan]
        refine (h.planned topic task).trans ?_
        simp [plan, or_and_right, exists_or]
      | some named =>
        rw [withEntry, plan]
        change (d.questionPlans.insert q.topic named).get? topic = some task ↔ _
        by_cases same : topic = q.topic
        · subst same
          rw [OrderedMap.get?_insert_self]
          grind
        · rw [OrderedMap.get?_insert_of_ne _ _ same, h.planned]
          grind
    · unfold withEntry
      split <;> exact h.idle

/-! Tasks. -/

/-- A step stands for something if the topic to which it refers is one of the catalogue. -/
theorem exists_stands {entry : StepEntry} : (∃ action, d.Stands entry action) ↔
    ∀ topic, entry.topic? = some topic → topic ∈ d.questions.map Question.topic := by
  constructor
  · rintro ⟨action, stands⟩ topic refers
    cases entry with
    | findout _ | raise _ =>
      cases refers
      cases action <;> first
        | exact stands.elim
        | exact stands.2 ▸ List.mem_map_of_mem stands.1
    | inform p => cases refers
  · intro refers
    cases entry with
    | findout topic =>
      obtain ⟨q, member, about⟩ := List.mem_map.mp (refers topic rfl)
      exact ⟨.findout q, member, about⟩
    | raise topic =>
      obtain ⟨q, member, about⟩ := List.mem_map.mp (refers topic rfl)
      exact ⟨.raise q, member, about⟩
    | inform p => exact ⟨.inform p, rfl⟩

theorem Stands.congr (same : d.questions = base.questions) : d.Stands = base.Stands := by
  funext entry action
  cases entry <;> cases action <;> simp only [Stands, same]

structure Does (base d : Domain) (done : List TaskEntry) : Prop where
  questions : d.questions = base.questions
  questionPlans : d.questionPlans = base.questionPlans
  tasks : ∀ e ∈ done, ∃ actions, List.Forall₂ base.Stands e.steps actions ∧
    d.tasks.get? (Text.trim e.id) = some ⟨e.triggers, e.accommodable, actions⟩
  only : ∀ id t, d.tasks.get? id = some t → id ∈ done.map fun e => Text.trim e.id

theorem Does.get?_eq_none {done : List TaskEntry} (h : base.Does d done) {id : String} :
    d.tasks.get? id = none ↔ id ∉ done.map fun e => Text.trim e.id := by
  constructor
  · intro none member
    obtain ⟨e, entry, rfl⟩ := List.mem_map.mp member
    obtain ⟨_, _, known⟩ := h.tasks e entry
    exact nomatch none.symm.trans known
  · intro fresh
    exact Option.eq_none_iff_forall_ne_some.mpr fun t known => fresh (h.only id t known)

theorem Does.contains_iff {done : List TaskEntry} (h : base.Does d done) {id : String} :
    d.tasks.contains id = true ↔ id ∈ done.map fun e => Text.trim e.id := by
  rw [← not_iff_not, ← h.get?_eq_none, OrderedMap.contains, Option.not_isSome_iff_eq_none]

theorem Does.step (done : List TaskEntry) (e : TaskEntry) (d : Domain) (h : base.Does d done) :
    ((∃ next, d.addTask e = .ok next) ↔
      Text.trim e.id ≠ "" ∧ Text.trim e.id ∉ (done.map fun e => Text.trim e.id) ∧ e.steps ≠ [] ∧
        ∀ step ∈ e.steps, ∀ topic, step.topic? = some topic →
          topic ∈ base.questions.map Question.topic) ∧
    ∀ next, d.addTask e = .ok next → base.Does next (done ++ [e]) := by
  simp only [addTask_eq_ok, Stands.congr h.questions, h.get?_eq_none]
  constructor
  · have stood : (∃ actions, List.Forall₂ base.Stands e.steps actions) ↔
        ∀ step ∈ e.steps, ∀ topic, step.topic? = some topic →
          topic ∈ base.questions.map Question.topic :=
      exists_forall₂.trans (forall₂_congr fun _ _ => exists_stands)
    rw [← stood]
    constructor
    · rintro ⟨_, named, fresh, steps, actions, stands, _⟩
      exact ⟨named, fresh, steps, actions, stands⟩
    · rintro ⟨named, fresh, steps, actions, stands⟩
      exact ⟨_, named, fresh, steps, actions, stands, rfl⟩
  · rintro next ⟨_, fresh, _, actions, stands, rfl⟩
    refine ⟨h.questions, h.questionPlans, fun x member => ?_, fun id t known => ?_⟩
    · rcases List.mem_append.mp member with before | last
      · obtain ⟨actions, stands, known⟩ := h.tasks x before
        have other : Text.trim x.id ≠ Text.trim e.id := fun same =>
          fresh (same ▸ List.mem_map_of_mem before)
        exact ⟨actions, stands, (OrderedMap.get?_insert_of_ne _ _ other).trans known⟩
      · cases List.mem_singleton.mp last
        exact ⟨actions, stands, OrderedMap.get?_insert_self _ _ _⟩
    · by_cases same : id = Text.trim e.id
      · simp [same]
      · have known := (OrderedMap.get?_insert_of_ne _ _ same).symm.trans known
        rw [List.map_append]
        exact List.mem_append_left _ (h.only id t known)

/-! Dependencies and plans. -/

/-- Dependencies leave the questions and the tasks of a domain as they are. -/
structure Keeps (base d : Domain) : Prop where
  questions : d.questions = base.questions
  questionPlans : d.questionPlans = base.questionPlans
  tasks : d.tasks = base.tasks

theorem Keeps.step (_ : List (String × String)) (e : String × String) (d : Domain)
    (h : base.Keeps d) :
    ((∃ next, d.addDependency e.1 e.2 = .ok next) ↔ e.1 ∈ base.questions.map Question.topic ∧
      e.2 ∈ base.questions.map Question.topic ∧ e.2 ≠ e.1) ∧
    ∀ next, d.addDependency e.1 e.2 = .ok next → base.Keeps next := by
  simp only [addDependency_eq_ok, h.questions]
  constructor
  · simp
  · rintro next ⟨_, _, _, rfl⟩
    exact ⟨h.questions, h.questionPlans, h.tasks⟩

/-! Whole files. -/

theorem foldlM_addQuestion (entries : List QuestionEntry) (name : String) :
    ((∃ next, entries.foldlM addQuestion { name } = .ok next) ↔
      (∀ e ∈ entries, ∃ q, e.build = .ok q) ∧ (entries.map fun e => Text.trim e.topic).Nodup) ∧
    ∀ next, entries.foldlM addQuestion { name } = .ok next → next.Asks entries := by
  have start : Asks { name } [] := ⟨.nil, fun _ _ => ⟨nofun, by simp⟩, rfl⟩
  obtain ⟨passes, builds⟩ := foldlM_iff Asks.step entries start
  refine ⟨passes.trans ?_, builds⟩
  rw [nodup_map_iff, ← forall_split_iff]
  grind

theorem foldlM_addTask (entries : List TaskEntry) (idle : base.tasks = ∅) :
    ((∃ next, entries.foldlM addTask base = .ok next) ↔
      (∀ e ∈ entries, Text.trim e.id ≠ "" ∧ e.steps ≠ [] ∧
        ∀ step ∈ e.steps, ∀ topic, step.topic? = some topic →
          topic ∈ base.questions.map Question.topic) ∧
      (entries.map fun e => Text.trim e.id).Nodup) ∧
    ∀ next, entries.foldlM addTask base = .ok next → base.Does next entries := by
  have start : base.Does base [] := ⟨rfl, rfl, by simp, fun id t known => by
    rw [idle] at known
    cases known⟩
  obtain ⟨passes, builds⟩ := foldlM_iff Does.step entries start
  refine ⟨passes.trans ?_, builds⟩
  rw [nodup_map_iff, ← forall_split_iff]
  grind

theorem foldlM_addDependency (pairs : List (String × String)) (base : Domain) :
    ((∃ next, pairs.foldlM (fun d e => d.addDependency e.1 e.2) base = .ok next) ↔
      ∀ e ∈ pairs, e.1 ∈ base.questions.map Question.topic ∧
        e.2 ∈ base.questions.map Question.topic ∧ e.2 ≠ e.1) ∧
    ∀ next, pairs.foldlM (fun d e => d.addDependency e.1 e.2) base = .ok next →
      base.Keeps next := by
  obtain ⟨passes, builds⟩ := foldlM_iff Keeps.step pairs ⟨rfl, rfl, rfl⟩
  exact ⟨passes.trans forall_split_iff, builds⟩

variable {f : DomainFile}

/-- The three passes over a file that is loaded, and what each of them has made. -/
structure Passes (f : DomainFile) (asking doing needing : Domain) : Prop where
  asks : asking.Asks f.questions
  does : asking.Does doing f.tasks
  keeps : doing.Keeps needing

theorem Passes.topics {asking doing needing : Domain} (h : Passes f asking doing needing) :
    asking.questions.map Question.topic = f.topics ∧
      doing.questions.map Question.topic = f.topics :=
  ⟨h.asks.topics, h.does.questions ▸ h.asks.topics⟩

theorem Passes.planned {asking doing needing : Domain} (h : Passes f asking doing needing)
    {topic task : String} : needing.questionPlans.get? topic = some task ↔
      ∃ e ∈ f.questions, Text.trim e.topic = topic ∧ e.plan = some task := by
  rw [h.keeps.questionPlans, h.does.questionPlans, h.asks.planned]

theorem Passes.checkPlans_iff {asking doing needing : Domain} (h : Passes f asking doing needing) :
    needing.checkPlans = .ok () ↔
      ∀ e ∈ f.questions, ∀ task, e.plan = some task → task ∈ f.taskIds := by
  simp only [checkPlans_eq_ok, h.planned, h.keeps.tasks, h.does.contains_iff]
  constructor
  · exact fun known e member task plan => known _ task ⟨e, member, rfl, plan⟩
  · rintro known _ task ⟨e, member, _, plan⟩
    exact known e member task plan

theorem exists_ofFile_iff : (∃ d, ofFile f = .ok d) ↔ f.Consistent := by
  obtain ⟨asks_iff, asks⟩ := foldlM_addQuestion f.questions (Text.trim f.name)
  constructor
  · rintro ⟨d, loaded⟩
    obtain ⟨named, asking, doing, needing, asked, done, needed, planned, _⟩ :=
      ofFile_eq_ok.mp loaded
    obtain ⟨accepted, distinctTopics⟩ := asks_iff.mp ⟨asking, asked⟩
    obtain ⟨does_iff, does⟩ := foldlM_addTask f.tasks (asks asking asked).idle
    obtain ⟨tasks, distinctTasks⟩ := does_iff.mp ⟨doing, done⟩
    obtain ⟨keeps_iff, keeps⟩ := foldlM_addDependency f.pairs doing
    have passes : Passes f asking doing needing :=
      ⟨asks asking asked, does doing done, keeps needing needed⟩
    have dependencies := keeps_iff.mp ⟨needing, needed⟩
    rw [passes.topics.1] at tasks
    rw [passes.topics.2] at dependencies
    exact ⟨named, accepted, distinctTopics, fun e member => (tasks e member).1, distinctTasks,
      fun e member => (tasks e member).2, dependencies, passes.checkPlans_iff.mp planned⟩
  · intro consistent
    obtain ⟨asking, asked⟩ := asks_iff.mpr ⟨consistent.accepted, consistent.distinctTopics⟩
    have asks := asks asking asked
    obtain ⟨does_iff, does⟩ := foldlM_addTask f.tasks asks.idle
    obtain ⟨doing, done⟩ := does_iff.mpr
      ⟨fun e member => ⟨consistent.namedTasks e member, asks.topics ▸ consistent.steps e member⟩,
        consistent.distinctTasks⟩
    have does := does doing done
    obtain ⟨keeps_iff, keeps⟩ := foldlM_addDependency f.pairs doing
    have topics : doing.questions.map Question.topic = f.topics := does.questions ▸ asks.topics
    obtain ⟨needing, needed⟩ := keeps_iff.mpr (topics ▸ consistent.dependencies)
    have passes : Passes f asking doing needing := ⟨asks, does, keeps needing needed⟩
    exact ⟨_, ofFile_eq_ok.mpr ⟨consistent.named, asking, doing, needing, asked, done, needed,
      passes.checkPlans_iff.mpr consistent.plans, rfl⟩⟩

theorem map_action_ofActions (task : String) (actions : List PlanAction) :
    (Plan.ofActions task actions).steps.map PlanStep.action = actions :=
  List.ext_getElem (by simp [Plan.ofActions]) (by simp [Plan.ofActions])

theorem template_ofActions {e : TaskEntry} {actions : List PlanAction}
    (stands : List.Forall₂ d.Stands e.steps actions) (task : String) :
    e.Template d (.ofActions task actions) where
  steps := by
    rw [← map_action_ofActions task actions] at stands
    exact List.forall₂_map_right_iff.mp stands
  pending step member := (Plan.mem_ofActions member).2
  distinct := Plan.ofActions_distinct task actions

theorem mem_of_stands {entry : StepEntry} {action : PlanAction} (stands : d.Stands entry action)
    (asks : action.question? = some q) : q ∈ d.questions := by
  cases entry <;> cases action <;> cases asks <;> first
    | exact stands.elim
    | exact stands.1

theorem asked_of_template {e : TaskEntry} {plan : Plan} (h : e.Template d plan) {step : PlanStep}
    (member : step ∈ plan.steps) (asks : step.action.question? = some q) : q ∈ d.questions := by
  obtain ⟨_, stands⟩ := exists_of_forall₂ h.steps member
  exact mem_of_stands stands asks

theorem describes_of_ofFile (loaded : ofFile f = .ok d) : f.Describes d := by
  obtain ⟨_, asking, doing, needing, asked, done, needed, planned, made⟩ := ofFile_eq_ok.mp loaded
  have asks := (foldlM_addQuestion f.questions (Text.trim f.name)).2 asking asked
  have does := (foldlM_addTask f.tasks asks.idle).2 doing done
  have passes : Passes f asking doing needing :=
    ⟨asks, does, (foldlM_addDependency f.pairs doing).2 needing needed⟩
  have questions : d.questions = asking.questions := by
    rw [made, ← does.questions, ← passes.keeps.questions]
  have plans : d.questionPlans = needing.questionPlans := by rw [made]
  have tasks : d.tasks = doing.tasks := by rw [made, ← passes.keeps.tasks]
  have known : ∀ task, (d.planFor? task).isSome = true ↔ task ∈ f.taskIds := fun task => by
    rw [planFor?, tasks, Option.isSome_map]
    exact does.contains_iff
  have templates : ∀ e ∈ f.tasks, ∀ plan, d.planFor? (Text.trim e.id) = some plan →
      e.Template d plan := by
    intro e member plan template
    obtain ⟨actions, stands, bound⟩ := does.tasks e member
    rw [planFor?, tasks, bound, Option.map_some, Option.some.injEq] at template
    rw [← Stands.congr questions] at stands
    exact template ▸ template_ofActions stands _
  refine ⟨questions ▸ asks.catalogue, known, templates, ?_, ?_, ?_⟩
  · intro task plan template step member q asks
    obtain ⟨e, entry, rfl⟩ := List.mem_map.mp ((known task).mp (by simp [template]))
    exact asked_of_template (templates e entry plan template) member asks
  · intro topic task
    rw [plans]
    exact passes.planned
  · intro q task plan
    have bound := checkPlans_eq_ok.mp planned q.topic task (plans ▸ plan)
    rw [passes.keeps.tasks, ← tasks] at bound
    obtain ⟨t, bound⟩ := Option.isSome_iff_exists.mp bound
    have template : d.planFor? task = some (.ofActions task t.actions) := by simp [planFor?, bound]
    exact ⟨_, template, by simp [planForQuestion?, plan, template]⟩

theorem built_of_ofFile (loaded : ofFile f = .ok d) : ∀ q ∈ d.questions, q.Built := by
  intro q member
  obtain ⟨e, made⟩ := exists_of_forall₂ (describes_of_ofFile loaded).catalogue member
  exact e.built_of_build made

/-- The questions of a loaded domain are made by the building functions. -/
theorem built_of_ofToml {text : String} (loaded : ofToml text = .ok d) :
    ∀ q ∈ d.questions, q.Built := by
  obtain ⟨f, -, loaded⟩ := ofToml_eq_ok.mp loaded
  exact built_of_ofFile loaded

/-- A file is loaded exactly if its parts are in order and fit each other. Then the domain holds
what the file describes. -/
theorem loaded_iff_consistent (text : String) (f : DomainFile)
    (parsed : DomainFile.ofText? text = some f) :
    ((∃ d, ofToml text = .ok d) ↔ f.Consistent) ∧
      ∀ d, ofToml text = .ok d → f.Describes d := by
  simp only [ofToml_eq_ok, parsed, Option.some.injEq, exists_eq_left']
  exact ⟨exists_ofFile_iff, fun d => describes_of_ofFile⟩

/-- A question, and the task that asks it, which is taken up when the user does. -/
def cafeText : String := "name = \"cafe\"
[[questions]]
topic = \" tea \"
kind = \"yes_no\"
plan = \"order\"
[[tasks]]
id = \" order \"
[[tasks.steps]]
findout = \"tea\"
"

def cafe : DomainFile where
  name := "cafe"
  questions := [{ topic := " tea ", kind := .yesNo, plan := some "order" }]
  tasks := [{ id := " order ", steps := [.findout "tea"] }]

/-- Names are trimmed where questions and tasks are given them, and what refers to a question or a
task names it as it is then. -/
theorem cafe_loaded : DomainFile.ofText? cafeText = some cafe ∧ cafe.Consistent ∧
    ∃ d, ofToml cafeText = .ok d ∧ cafe.Describes d := by
  have parsed : DomainFile.ofText? cafeText = some cafe := by decide +kernel
  obtain ⟨iff, describes⟩ := loaded_iff_consistent cafeText cafe parsed
  obtain ⟨d, loaded, _⟩ := exists_ok_of_decide (x := ofFile cafe) (P := fun _ => True)
    (by decide +kernel)
  have loaded := ofToml_eq_ok.mpr ⟨cafe, parsed, loaded⟩
  exact ⟨parsed, iff.mp ⟨d, loaded⟩, d, loaded, describes d loaded⟩

end Domain
end Dialogue
