import Dialogue.Domain.File
import Dialogue.Proofs.Outcome
import Dialogue.Proofs.Question

/-!
What loading a file comes to where it succeeds. Each entry of the file is added to the domain that
the entries before it have made, and what it is checked for and what it adds are one equation for
each kind of entry.
-/
namespace Dialogue

theorem OrderedMap.get?_eq_some_iff {κ α : Type} [Ord κ] [DecidableEq κ] [Std.ReflOrd κ]
    {m : OrderedMap κ α} {k : κ} {v : α} : m.get? k = some v ↔ (k, v) ∈ m.entries := by
  constructor
  · intro found
    obtain ⟨e, finds, rfl⟩ := Option.map_eq_some_iff.mp found
    have same : e.1 = k := by simpa using List.find?_some finds
    exact same ▸ List.mem_of_find?_eq_some finds
  · intro member
    obtain ⟨e, finds⟩ : ∃ e, m.entries.find? (fun e => e.1 = k) = some e :=
      Option.isSome_iff_exists.mp (List.find?_isSome.mpr ⟨_, member, by simp⟩)
    have same : e.1 = k := by simpa using List.find?_some finds
    have distinct : (m.entries.map Prod.fst).Nodup := m.keys_ascending.imp fun {a b} less => by
      rintro rfl
      simp at less
    have unique : e = (k, v) :=
      List.inj_on_of_nodup_map distinct (List.mem_of_find?_eq_some finds) member same
    rw [get?, finds, unique, Option.map_some]

namespace QuestionEntry

variable {e : QuestionEntry} {q : Question}

theorem built_of_build (made : e.build = .ok q) : q.Built := by
  rw [build, mapError_eq_ok] at made
  cases kind : e.kind <;> rw [kind] at made
  · exact .wh made
  · exact .yesNo made
  · exact .alt made

theorem topic_of_build (made : e.build = .ok q) : q.topic = Text.trim e.topic := by
  rw [build, mapError_eq_ok] at made
  cases kind : e.kind <;> rw [kind] at made
  · obtain ⟨_, _, _, rfl⟩ := Question.buildWh_eq_ok.mp made
    rfl
  · obtain ⟨_, rfl⟩ := Question.buildYesNo_eq_ok.mp made
    rfl
  · obtain ⟨_, _, _, rfl⟩ := Question.buildAlt_eq_ok.mp made
    rfl

end QuestionEntry

namespace DomainFile

def pairs (f : DomainFile) : List (String × String) :=
  f.dependencies.flatMap fun e => e.dependsOn.map (e.question, ·)

def ofText? (text : String) : Option DomainFile := (Toml.parse? text).bind ofDatum?

end DomainFile

namespace Domain

/-- Domains are compared field by field. -/
instance : DecidableEq Domain := fun d e =>
  decidable_of_iff
    (d.name = e.name ∧ d.questions = e.questions ∧ d.phrases = e.phrases ∧
      d.questionPlans = e.questionPlans ∧ d.tasks = e.tasks ∧ d.dependencies = e.dependencies ∧
      d.beliefs = e.beliefs)
    ⟨fun same => by cases d; cases e; simp_all, fun same => by simp [same]⟩

/-- What a step does in a domain: it asks the question of the catalogue on its topic, or informs. -/
def Stands (d : Domain) : StepEntry → PlanAction → Prop
  | .findout topic, .findout q | .raise topic, .raise q => q ∈ d.questions ∧ q.topic = topic
  | .inform p, .inform stated => stated = p
  | _, _ => False

variable {d next : Domain} {e : QuestionEntry} {q : Question} {f : DomainFile}
variable {topic task on : String}

/-! Entries. -/

theorem questionOn?_eq_none :
    d.questionOn? topic = none ↔ topic ∉ d.questions.map Question.topic := by
  simp [questionOn?]

theorem questionOn?_eq_some : d.questionOn? topic = some q ↔ q ∈ d.questions ∧ q.topic = topic := by
  constructor
  · intro found
    exact ⟨List.mem_of_find?_eq_some found, by simpa using List.find?_some found⟩
  · rintro ⟨member, rfl⟩
    cases found : d.questionOn? q.topic with
    | none => exact absurd (List.mem_map_of_mem member) (questionOn?_eq_none.mp found)
    | some other =>
      have same : other.topic = q.topic := by simpa using List.find?_some found
      rw [List.inj_on_of_nodup_map d.distinct_topics (List.mem_of_find?_eq_some found) member same]

theorem catalogue_of_fresh (fresh : q.topic ∉ d.questions.map Question.topic) :
    catalogue d.questions q = d.questions ++ [q] := by
  rw [catalogue, List.filter_eq_self.mpr]
  intro other member
  have differs : other.topic ≠ q.topic := fun same => fresh (same ▸ List.mem_map_of_mem member)
  simpa using differs

def withEntry (d : Domain) (e : QuestionEntry) (q : Question) : Domain :=
  match e.plan with
  | some task => (d.withQuestion q e.phrase).withQuestionPlan q.topic task
  | none => d.withQuestion q e.phrase

theorem addQuestion_eq_ok : d.addQuestion e = .ok next ↔
    ∃ q, e.build = .ok q ∧ q.topic ∉ d.questions.map Question.topic ∧ next = d.withEntry e q := by
  rw [addQuestion, bind_eq_ok]
  refine exists_congr fun q => and_congr_right fun _ => ?_
  rw [← questionOn?_eq_none]
  cases d.questionOn? q.topic <;> cases plan : e.plan <;>
    simp [withEntry, plan, Question.throw_eq, bind, Except.bind, pure, Except.pure, eq_comm]

theorem stepAction_eq_ok {entry : StepEntry} {action : PlanAction} :
    d.stepAction task entry = .ok action ↔ d.Stands entry action := by
  cases entry with
  | findout topic | raise topic =>
    cases action <;> simp only [stepAction, Stands, ← questionOn?_eq_some] <;>
      cases d.questionOn? topic <;> simp [Question.throw_eq, pure, Except.pure]
  | inform p => cases action <;> simp [stepAction, Stands, pure, Except.pure, eq_comm]

theorem addTask_eq_ok {e : TaskEntry} : d.addTask e = .ok next ↔
    Text.trim e.id ≠ "" ∧ d.tasks.get? (Text.trim e.id) = none ∧ e.steps ≠ [] ∧
      ∃ actions, List.Forall₂ d.Stands e.steps actions ∧
        next = d.withTask (Text.trim e.id) ⟨e.triggers, e.accommodable, actions⟩ := by
  simp only [addTask, OrderedMap.contains]
  by_cases unnamed : Text.trim e.id = ""
  · simp [unnamed, Question.throw_eq, bind, Except.bind]
  · cases known : d.tasks.get? (Text.trim e.id) with
    | some t => simp [unnamed, Question.throw_eq, bind, Except.bind]
    | none =>
      by_cases empty : e.steps = []
      · simp [unnamed, empty, Question.throw_eq, bind, Except.bind]
      · simp [unnamed, empty, bind_eq_ok, mapM_eq_ok, stepAction_eq_ok, pure, Except.pure,
          eq_comm (a := next)]

theorem questionOn?_isNone : (d.questionOn? topic).isNone = true ↔
    topic ∉ d.questions.map Question.topic :=
  Option.isNone_iff_eq_none.trans questionOn?_eq_none

theorem addDependency_eq_ok : d.addDependency topic on = .ok next ↔
    topic ∈ d.questions.map Question.topic ∧ on ∈ d.questions.map Question.topic ∧ on ≠ topic ∧
      next = d.withDependency topic on := by
  simp only [addDependency, questionOn?_isNone]
  by_cases listed : topic ∈ d.questions.map Question.topic
  · by_cases needed : on ∈ d.questions.map Question.topic
    · by_cases same : on = topic
      · simp only [listed, same, not_true_eq_false, if_false, if_true]
        simp [Question.throw_eq]
      · simp only [listed, needed, same, not_true_eq_false, if_false]
        simp [same, pure, Except.pure, eq_comm (a := next)]
    · simp only [listed, needed, not_true_eq_false, not_false_eq_true, if_false, if_true]
      simp [Question.throw_eq]
  · simp only [listed, not_false_eq_true, if_true]
    simp [Question.throw_eq]

theorem checkPlans_eq_ok : d.checkPlans = .ok () ↔
    ∀ topic task, d.questionPlans.get? topic = some task → d.tasks.contains task = true := by
  simp only [OrderedMap.get?_eq_some_iff, checkPlans]
  cases missing : d.questionPlans.entries.find? fun p => !d.tasks.contains p.2 with
  | none => simpa [pure, Except.pure] using missing
  | some p =>
    have member := List.mem_of_find?_eq_some missing
    have absent := List.find?_some missing
    constructor
    · intro passed
      cases passed
    · intro known
      simp [known p.1 p.2 member] at absent

/-! Whole files. -/

/-- A file is loaded if each of the three passes over it succeeds, and the plans are those of
tasks. -/
theorem ofFile_eq_ok : ofFile f = .ok d ↔ Text.trim f.name ≠ "" ∧
    ∃ asking doing needing : Domain,
      f.questions.foldlM addQuestion { name := Text.trim f.name } = .ok asking ∧
      f.tasks.foldlM addTask asking = .ok doing ∧
      f.pairs.foldlM (fun d e => d.addDependency e.1 e.2) doing = .ok needing ∧
      needing.checkPlans = .ok () ∧ d = { needing with beliefs := f.beliefs } := by
  simp only [ofFile, DomainFile.pairs]
  by_cases unnamed : Text.trim f.name = ""
  · simp [unnamed, Question.throw_eq, bind, Except.bind]
  · simp only [unnamed, if_false, ne_eq, not_false_eq_true, true_and, bind_eq_ok]
    constructor
    · rintro ⟨asking, asked, doing, done, needing, needed, _, planned, made⟩
      cases made
      exact ⟨asking, doing, needing, asked, done, needed, planned, rfl⟩
    · rintro ⟨asking, doing, needing, asked, done, needed, planned, rfl⟩
      exact ⟨asking, asked, doing, done, needing, needed, (), planned, rfl⟩

theorem ofToml_eq_ok {text : String} :
    ofToml text = .ok d ↔ ∃ f, DomainFile.ofText? text = some f ∧ ofFile f = .ok d := by
  simp only [DomainFile.ofText?, Option.bind_eq_some_iff]
  constructor
  · intro loaded
    unfold ofToml at loaded
    split at loaded
    · cases loaded
    · next datum reads =>
      unfold ofDatum at loaded
      split at loaded
      · cases loaded
      · next f file => exact ⟨f, ⟨datum, reads, file⟩, mapError_eq_ok.mp loaded⟩
  · rintro ⟨f, ⟨datum, reads, file⟩, loaded⟩
    simp only [ofToml, reads, ofDatum, file, mapError_eq_ok, loaded]

end Domain
end Dialogue
