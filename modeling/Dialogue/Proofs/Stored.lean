import Mathlib.Algebra.Group.Nat.Defs
import Dialogue.Proofs.Datum
import Dialogue.Session

/-!
Every persistent type is kept by storing. Enumerations, tagged alternatives and records are read
back as the values they were written from, one type after the other up to the record of a session.
The only conditions are on numbers: confidences have to be finite.
-/
namespace Dialogue

variable {numbers : Numbers} {n : Nat}

/-! Constants and texts. -/

theorem kept_speaker (s : Speaker) : Kept numbers n s :=
  ⟨fun _ => by cases s <;> rfl, .text⟩

theorem kept_feedback (f : Feedback) : Kept numbers n f :=
  ⟨fun _ => by cases f <;> rfl, .text⟩

theorem kept_moveTag (t : MoveTag) : Kept numbers n t :=
  ⟨fun _ => by cases t <;> rfl, .text⟩

theorem kept_stepStatus (s : StepStatus) : Kept numbers n s :=
  ⟨fun _ => by cases s <;> rfl, by cases s <;> exact .text⟩

theorem kept_phase (p : Phase) : Kept numbers n p :=
  ⟨fun _ => by cases p <;> rfl, .text⟩

theorem kept_updateRule (r : UpdateRule) : Kept numbers n r :=
  ⟨fun _ => by cases r <;> rfl, .text⟩

theorem kept_selectionRule (r : SelectionRule) : Kept numbers n r :=
  ⟨fun _ => by cases r <;> rfl, .text⟩

theorem kept_questionKey (k : QuestionKey) : Kept numbers n k := ⟨fun _ => rfl, .text⟩

theorem kept_stepId (i : StepId) : Kept numbers n i := ⟨fun _ => rfl, .text⟩

/-! What is talked about. -/

section

variable (wide : ∀ i : Int64, numbers.ints i.toInt)
include wide

theorem kept_value (v : Value) : Kept numbers n v := by
  cases v with
  | bool b => exact ⟨fun _ => rfl, .bool⟩
  | int i =>
    have kept : Kept numbers n i := kept_int64 (wide i)
    exact ⟨fun mode => congrArg (Option.map Value.int) (kept.read mode), kept.fits⟩
  | text s => exact ⟨fun _ => rfl, .text⟩

theorem kept_proposition (p : Proposition) : Kept numbers (n + 1) p := by
  have predicate : Kept numbers n p.predicate := kept_string _
  have value : Kept numbers n p.value := kept_value wide _
  refine .of_record ["predicate", "value"] [toDatum p.predicate, toDatum p.value]
    (by decide) rfl rfl
    (by simp [predicate.fits, value.fits]) fun mode d fields => ?_
  simp [readDatum?, Datum.fields?, fields, predicate.required, value.required]

theorem kept_answer (a : Answer) : Kept numbers (n + 1) a := by
  have value : Kept numbers n a.value := kept_value wide _
  have predicate : Kept numbers n a.predicate := kept_option (fun _ _ => kept_string _) nofun
  have question : Kept numbers n a.question := kept_option (fun _ _ => kept_questionKey _) nofun
  refine .of_record ["value", "predicate", "question"]
    [toDatum a.value, toDatum a.predicate, toDatum a.question] (by decide) rfl rfl
    (by simp [value.fits, predicate.fits, question.fits]) fun mode d fields => ?_
  simp [readDatum?, Datum.fields?, fields, value.required, predicate.optional, question.optional]

end

theorem kept_question (q : Question) : Kept numbers (n + 2) q := by
  cases q with
  | wh var predicate constraints =>
    have first : Kept numbers (n + 1) var := kept_string _
    have second : Kept numbers (n + 1) predicate := kept_string _
    have third : Kept numbers (n + 1) constraints := kept_map fun _ _ => kept_string _
    refine .of_tagged ["variable", "predicate", "constraints"]
      [toDatum var, toDatum predicate, toDatum constraints] (fun _ => rfl) rfl (by decide) rfl rfl
      (by simp [first.fits, second.fits, third.fits]) fun d fields => ?_
    simp [Question.readWh?, Datum.fields?, fields, first.required, second.required, third.required]
  | yesNo predicate =>
    have only : Kept numbers (n + 1) predicate := kept_string _
    refine .of_tagged ["predicate"] [toDatum predicate] (fun _ => rfl) rfl (by decide) rfl rfl
      (by simp [only.fits]) fun d fields => ?_
    simp [Question.readYesNo?, Datum.fields?, fields, only.required]
  | alt predicate alternatives =>
    have first : Kept numbers (n + 1) predicate := kept_string _
    have second : Kept numbers (n + 1) alternatives := kept_list fun _ _ => kept_string _
    refine .of_tagged ["predicate", "alternatives"] [toDatum predicate, toDatum alternatives]
      (fun _ => rfl) rfl (by decide) rfl rfl (by simp [first.fits, second.fits]) fun d fields => ?_
    simp [Question.readAlt?, Datum.fields?, fields, first.required, second.required]

/-! Moves. -/

namespace Act

variable {mode : Reading} {a : Act}

theorem toDatum_eq {content : Datum} (has : a.content? = some content) :
    toDatum a = .record [("type", toDatum a.tag), ("content", content)] := by
  simp only [toDatum, has]

/-- An act with a content is kept if the content fits and is read with the tag. -/
theorem kept_of_content {content : Datum} (has : a.content? = some content)
    (fits : content.Fits numbers n)
    (reads : ∀ mode, ofContent? mode a.tag (some content) = some a) : Kept numbers (n + 1) a := by
  have tag : Kept numbers n a.tag := kept_moveTag _
  refine ⟨fun mode => ?_, ?_⟩ <;> rw [toDatum_eq has]
  · have first : Datum.field? [("type", toDatum a.tag), ("content", content)] "type" =
        some (some (toDatum a.tag)) := Datum.field?_cons_self (by simp)
    have second : Datum.field? [("type", toDatum a.tag), ("content", content)] "content" =
        some (some content) := by simp [Datum.field?]
    simp [readDatum?, ofFields?, first, second, tag.required, reads]
  · exact .record (by simp [tag.fits, fits])

theorem kept (wide : ∀ i : Int64, numbers.ints i.toInt) (a : Act) : Kept numbers (n + 3) a := by
  cases a with
  | ask q =>
    have question : Kept numbers (n + 2) q := kept_question q
    exact kept_of_content rfl question.fits fun mode =>
      congrArg (Option.map ask) (question.read mode)
  | answer a =>
    have answer : Kept numbers (n + 2) a := kept_answer wide a
    exact kept_of_content rfl answer.fits fun mode =>
      congrArg (Option.map Act.answer) (answer.read mode)
  | assert p =>
    have proposition : Kept numbers (n + 2) p := kept_proposition wide p
    exact kept_of_content rfl proposition.fits fun mode =>
      congrArg (Option.map assert) (proposition.read mode)
  | request task =>
    have text : Kept numbers (n + 1) task := kept_string task
    refine kept_of_content rfl (.record (by simp [text.fits])) fun mode => ?_
    have field : Datum.field? [("task", toDatum task)] "task" = some (some (toDatum task)) :=
      Datum.field?_cons_self (by simp)
    simp [ofContent?, tag, field, text.required]
  | feedback f =>
    have feedback : Kept numbers (n + 2) f := kept_feedback f
    exact kept_of_content rfl feedback.fits fun mode =>
      congrArg (Option.map Act.feedback) (feedback.read mode)
  | greet => exact ⟨fun _ => rfl, .record (List.forall_mem_singleton.mpr .text)⟩
  | quit => exact ⟨fun _ => rfl, .record (List.forall_mem_singleton.mpr .text)⟩

end Act

theorem kept_move (wide : ∀ i : Int64, numbers.ints i.toInt) {m : Move}
    (finite : m.confidence.isFinite = true) (admitted : numbers.reals m.confidence) :
    Kept numbers (n + 4) m := by
  have speaker : Kept numbers (n + 3) m.speaker := kept_speaker _
  have act : Kept numbers (n + 3) m.act := m.act.kept wide
  have addresses : Kept numbers (n + 3) m.addresses :=
    kept_option (fun _ _ => kept_questionKey _) nofun
  have confidence : Kept numbers (n + 3) m.confidence := kept_binary32 finite admitted
  refine .of_record ["speaker", "kind", "addresses", "confidence"]
    [toDatum m.speaker, toDatum m.act, toDatum m.addresses, toDatum m.confidence]
    (by decide) rfl rfl
    (by simp [speaker.fits, act.fits, addresses.fits, confidence.fits]) fun mode d fields => ?_
  simp [readDatum?, Datum.fields?, fields, speaker.required, act.required, addresses.optional,
    confidence.required]

theorem Move.toDatum_ne_null (m : Move) : toDatum m ≠ .null := fun same => nomatch same

/-! Plans. -/

theorem kept_planAction (wide : ∀ i : Int64, numbers.ints i.toInt) (a : PlanAction) :
    Kept numbers (n + 3) a := by
  cases a with
  | findout q =>
    have question : Kept numbers (n + 2) q := kept_question q
    exact ⟨fun mode => congrArg (Option.map PlanAction.findout) (question.read mode),
      .record (by simpa using question.fits)⟩
  | raise q =>
    have question : Kept numbers (n + 2) q := kept_question q
    exact ⟨fun mode => congrArg (Option.map PlanAction.raise) (question.read mode),
      .record (by simpa using question.fits)⟩
  | inform p =>
    have proposition : Kept numbers (n + 2) p := kept_proposition wide p
    exact ⟨fun mode => congrArg (Option.map PlanAction.inform) (proposition.read mode),
      .record (by simpa using proposition.fits)⟩

theorem kept_planStep (wide : ∀ i : Int64, numbers.ints i.toInt) (s : PlanStep) :
    Kept numbers (n + 4) s := by
  have id : Kept numbers (n + 3) s.id := kept_stepId _
  have action : Kept numbers (n + 3) s.action := kept_planAction wide _
  have status : Kept numbers (n + 3) s.status := kept_stepStatus _
  refine .of_record ["id", "action", "status"] [toDatum s.id, toDatum s.action, toDatum s.status]
    (by decide) rfl rfl (by simp [id.fits, action.fits, status.fits]) fun mode d fields => ?_
  simp [readDatum?, Datum.fields?, fields, id.required, action.required, status.required]

theorem kept_plan (wide : ∀ i : Int64, numbers.ints i.toInt) (p : Plan) :
    Kept numbers (n + 6) p := by
  have task : Kept numbers (n + 5) p.task := kept_string _
  have steps : Kept numbers (n + 5) p.steps := kept_list fun s _ => kept_planStep wide s
  refine .of_record ["task", "steps"] [toDatum p.task, toDatum p.steps] (by decide) rfl rfl
    (by simp [task.fits, steps.fits]) fun mode d fields => ?_
  simp [readDatum?, Datum.fields?, fields, task.required, steps.required]

/-! The history. -/

def Delta.confidences : Delta → List Binary32
  | moveRecorded m _ | moveEnqueued m | moveDequeued m | pendingTaken m => [m.confidence]
  | pendingSet m => (m.map Move.confidence).toList
  | confidenceSet c => [c]
  | _ => []

theorem Delta.readField?_eq_some {α : Type} [Storable α] {a : α} {field : String} {make : α → Delta}
    {d : Datum} (kept : Kept numbers n a)
    (fields : ∀ least, Datum.someFields? [field] least d = some [some (toDatum a)]) :
    readField? field make d = some (make a) := by
  simp [readField?, Datum.fields?, fields, kept.required]

theorem kept_delta (wide : ∀ i : Int64, numbers.ints i.toInt) {d : Delta}
    (confidences : ∀ x ∈ d.confidences, x.isFinite = true ∧ numbers.reals x) :
    Kept numbers (n + 5) d := by
  have move (m : Move) (h : m.confidence ∈ d.confidences) : Kept numbers (n + 4) m :=
    kept_move wide (confidences _ h).1 (confidences _ h).2
  -- all changes but three have a single field that is always there
  have single {α : Type} [Storable α] {a : α} {field tag : String} {make : α → Delta}
      (kept : Kept numbers (n + 4) a) (distinct : field ≠ "delta")
      (reader : Datum.named? Delta.readers tag = some (Delta.readField? field make))
      (written : toDatum (make a) = .record [("delta", .text tag), (field, toDatum a)]) :
      Kept numbers (n + 5) (make a) :=
    .of_tagged [field] [toDatum a] (fun _ => rfl) reader (by simpa using distinct.symm) rfl written
      (by simpa using kept.fits) fun d fields => Delta.readField?_eq_some kept fields
  cases d with
  | cycleStarted speaker => exact single (kept_speaker speaker) (by decide) rfl rfl
  | moveRecorded m integrated =>
    have move : Kept numbers (n + 4) m := move m (by simp [Delta.confidences])
    have flag : Kept numbers (n + 4) integrated := kept_bool _
    refine .of_tagged ["mv", "integrated"] [toDatum m, toDatum integrated] (fun _ => rfl) rfl
      (by decide) rfl rfl (by simp [move.fits, flag.fits]) fun d fields => ?_
    simp [Delta.readMoveRecorded?, Datum.fields?, fields, move.required, flag.required]
  | questionPushed q | questionPopped q => exact single (kept_question q) (by decide) rfl rfl
  | commitmentAdded p | beliefSet p => exact single (kept_proposition wide p) (by decide) rfl rfl
  | moveEnqueued m | moveDequeued m | pendingTaken m =>
    exact single (move m (by simp [Delta.confidences])) (by decide) rfl rfl
  | planLoaded task => exact single (kept_string task) (by decide) rfl rfl
  | stepStarted step | stepCompleted step => exact single (kept_stepId step) (by decide) rfl rfl
  | pendingSet m =>
    have pending : Kept numbers (n + 4) m :=
      kept_option (fun m h => move m (by simp [Delta.confidences, h])) Move.toDatum_ne_null
    refine .of_tagged ["mv"] [toDatum m] (fun _ => rfl) rfl (by decide) rfl rfl
      (by simp [pending.fits]) fun d fields => ?_
    simp [Delta.readPendingSet?, Datum.fields?, fields, pending.optional]
  | confidenceSet c =>
    have number := confidences c (by simp [Delta.confidences])
    exact single (kept_binary32 number.1 number.2) (by decide) rfl rfl
  | groundingSet awaiting => exact single (kept_bool awaiting) (by decide) rfl rfl
  | floorSet speaker => exact single (kept_speaker speaker) (by decide) rfl rfl
  | terminated =>
    refine .of_tagged [] [] (fun _ => rfl) rfl (by decide) rfl rfl (by simp) fun d fields => ?_
    simp [Delta.readTerminated?, Datum.fields?, fields]

theorem kept_entry (wide : ∀ i : Int64, numbers.ints i.toInt) {e : Entry}
    (cycles : numbers.ints e.cycle) (versions : numbers.ints e.version)
    (confidences : ∀ x ∈ e.delta.confidences, x.isFinite = true ∧ numbers.reals x) :
    Kept numbers (n + 6) e := by
  have cycle : Kept numbers (n + 5) e.cycle := kept_nat cycles
  have version : Kept numbers (n + 5) e.version := kept_nat versions
  have delta : Kept numbers (n + 5) e.delta := kept_delta wide confidences
  refine .of_record ["cycle", "version", "delta"]
    [toDatum e.cycle, toDatum e.version, toDatum e.delta] (by decide) rfl rfl
    (by simp [cycle.fits, version.fits, delta.fits]) fun mode d fields => ?_
  simp [readDatum?, Datum.fields?, fields, cycle.required, version.required, delta.required]

/-! States. -/

namespace State

def confidences (s : State) : List Binary32 :=
  s.lastConfidence :: (s.agenda.map Move.confidence ++ (s.pending.map Move.confidence).toList ++
    s.history.flatMap (·.delta.confidences))

def counters (s : State) : List Nat :=
  s.cycle :: s.version :: s.history.flatMap fun e => [e.cycle, e.version]

/-- What has to be known of the numbers in a state. -/
structure Admitted (numbers : Numbers) (s : State) : Prop where
  wide : ∀ i : Int64, numbers.ints i.toInt
  counters : ∀ k ∈ s.counters, numbers.ints k
  confidences : ∀ x ∈ s.confidences, x.isFinite = true ∧ numbers.reals x

variable {s t : State} {mode : Reading}

theorem Admitted.move (h : s.Admitted numbers) {m : Move} (among : m.confidence ∈ s.confidences) :
    Kept numbers (n + 4) m :=
  kept_move h.wide (h.confidences _ among).1 (h.confidences _ among).2

theorem Admitted.entry (h : s.Admitted numbers) {e : Entry} (member : e ∈ s.history) :
    Kept numbers (n + 6) e := by
  have counted {k : Nat} (of : k ∈ [e.cycle, e.version]) : numbers.ints k :=
    h.counters k (List.mem_cons_of_mem _ (List.mem_cons_of_mem _
      (List.mem_flatMap.mpr ⟨e, member, of⟩)))
  have sure {x : Binary32} (of : x ∈ e.delta.confidences) : x ∈ s.confidences := by
    simp only [State.confidences, List.mem_cons, List.mem_append, List.mem_flatMap]
    exact .inr (.inr ⟨e, member, of⟩)
  exact kept_entry h.wide (counted (by simp)) (counted (by simp)) fun x of =>
    h.confidences x (sure of)

/-- The private part fits, and is read into any state. -/
theorem privatePart_kept (h : s.Admitted numbers) : s.privatePart.Fits numbers (n + 8) ∧
    ∀ mode t, readPrivate? mode s.privatePart t =
      some { t with beliefs := s.beliefs, agenda := s.agenda, plan := s.plan } := by
  have beliefs : Kept numbers (n + 7) s.beliefs := kept_map fun _ _ => kept_value h.wide _
  have agenda : Kept numbers (n + 7) s.agenda := kept_list fun m member =>
    h.move (by simpa [confidences] using .inr (.inl ⟨m, member, rfl⟩))
  have plan : Kept numbers (n + 7) s.plan := kept_option (fun p _ => kept_plan h.wide p) nofun
  refine ⟨.record (by simp [beliefs.fits, agenda.fits, plan.fits]), fun mode t => ?_⟩
  have fields : Datum.fields? ["beliefs", "agenda", "plan"] s.privatePart =
      some [some (toDatum s.beliefs), some (toDatum s.agenda), some (toDatum s.plan)] :=
    Datum.someFields?_zip ["beliefs", "agenda", "plan"]
      [toDatum s.beliefs, toDatum s.agenda, toDatum s.plan] (by decide) rfl _
  simp [readPrivate?, fields, beliefs.required, agenda.required, plan.optional]

theorem sharedPart_kept (h : s.Admitted numbers) : s.sharedPart.Fits numbers (n + 8) ∧
    ∀ mode t, readShared? mode s.sharedPart t =
      some { t with qud := s.qud, commitments := s.commitments, history := s.history } := by
  have qud : Kept numbers (n + 7) s.qud.reverse := kept_list fun q _ => kept_question q
  have commitments : Kept numbers (n + 7) s.commitments :=
    kept_set fun p _ => kept_proposition h.wide p
  have history : Kept numbers (n + 7) s.history := kept_list fun e member => h.entry member
  refine ⟨.record (by simp [qud.fits, commitments.fits, history.fits]), fun mode t => ?_⟩
  have fields : Datum.fields? ["qud", "commitments", "history"] s.sharedPart =
      some [some (toDatum s.qud.reverse), some (toDatum s.commitments), some (toDatum s.history)] :=
    Datum.someFields?_zip ["qud", "commitments", "history"]
      [toDatum s.qud.reverse, toDatum s.commitments, toDatum s.history] (by decide) rfl _
  simp [readShared?, fields, qud.required, commitments.required, history.required]

theorem controlPart_kept (h : s.Admitted numbers) : s.controlPart.Fits numbers (n + 8) ∧
    ∀ mode t, readControl? mode s.controlPart t = some { t with
      turn := s.turn, nextSpeaker := s.nextSpeaker, cycle := s.cycle, pending := s.pending,
      lastConfidence := s.lastConfidence, awaitingGrounding := s.awaitingGrounding,
      terminated := s.terminated } := by
  have turn : Kept numbers (n + 7) s.turn := kept_speaker _
  have next : Kept numbers (n + 7) s.nextSpeaker := kept_speaker _
  have cycle : Kept numbers (n + 7) s.cycle := kept_nat (h.counters _ (by simp [counters]))
  have pending : Kept numbers (n + 7) s.pending := kept_option
    (fun m waits => h.move (by simpa [confidences] using .inr (.inr (.inl ⟨m, waits, rfl⟩))))
    Move.toDatum_ne_null
  have number := h.confidences s.lastConfidence (by simp [confidences])
  have confidence : Kept numbers (n + 7) s.lastConfidence := kept_binary32 number.1 number.2
  have awaiting : Kept numbers (n + 7) s.awaitingGrounding := kept_bool _
  have ended : Kept numbers (n + 7) s.terminated := kept_bool _
  refine ⟨.record (by simp [turn.fits, next.fits, cycle.fits, pending.fits, confidence.fits,
    awaiting.fits, ended.fits]), fun mode t => ?_⟩
  have fields : Datum.fields? ["turn", "next_speaker", "cycle", "pending", "last_confidence",
      "awaiting_grounding", "terminated"] s.controlPart =
      some [some (toDatum s.turn), some (toDatum s.nextSpeaker), some (toDatum s.cycle),
        some (toDatum s.pending), some (toDatum s.lastConfidence),
        some (toDatum s.awaitingGrounding), some (toDatum s.terminated)] :=
    Datum.someFields?_zip ["turn", "next_speaker", "cycle", "pending", "last_confidence",
      "awaiting_grounding", "terminated"]
      [toDatum s.turn, toDatum s.nextSpeaker, toDatum s.cycle, toDatum s.pending,
        toDatum s.lastConfidence, toDatum s.awaitingGrounding, toDatum s.terminated]
      (by decide) rfl _
  simp [readControl?, fields, turn.required, next.required, cycle.required, pending.optional,
    confidence.required, awaiting.required, ended.required]

theorem Admitted.kept (h : s.Admitted numbers) : Kept numbers (n + 9) s := by
  have own := privatePart_kept (n := n) h
  have common := sharedPart_kept (n := n) h
  have control := controlPart_kept (n := n) h
  have version : Kept numbers (n + 8) s.version :=
    kept_nat (h.counters _ (by simp [State.counters]))
  refine .of_record ["private", "shared", "control", "version"]
    [s.privatePart, s.sharedPart, s.controlPart, toDatum s.version] (by decide) rfl rfl
    (by simp [own.1, common.1, control.1, version.fits]) fun mode d fields => ?_
  simp [readDatum?, Datum.fields?, fields, own.2, common.2, control.2, version.required]

end State

/-! Audit records and sessions. -/

theorem kept_diagnostic (d : Diagnostic) : Kept numbers (n + 1) d := by
  cases d with
  | unintegratedMove tag =>
    have only : Kept numbers n tag := kept_moveTag _
    refine .of_tagged ["tag"] [toDatum tag] (fun _ => rfl) rfl (by decide) rfl rfl
      (by simp [only.fits]) fun d fields => ?_
    simp [Diagnostic.readUnintegratedMove?, Datum.fields?, fields, only.required]
  | selectionExhausted =>
    refine .of_tagged [] [] (fun _ => rfl) rfl (by decide) rfl rfl (by simp) fun d fields => ?_
    simp [Diagnostic.readSelectionExhausted?, Datum.fields?, fields]
  | interpretationFailed reason =>
    have only : Kept numbers n reason := kept_string _
    refine .of_tagged ["reason"] [toDatum reason] (fun _ => rfl) rfl (by decide) rfl rfl
      (by simp [only.fits]) fun d fields => ?_
    simp [Diagnostic.readInterpretationFailed?, Datum.fields?, fields, only.required]

def CycleRecord.counters (r : CycleRecord) : List Nat :=
  [r.cycle, r.updateBodies, r.selectionBodies]

theorem kept_cycleRecord {r : CycleRecord} (counters : ∀ k ∈ r.counters, numbers.ints k) :
    Kept numbers (n + 3) r := by
  simp only [CycleRecord.counters, List.forall_mem_cons] at counters
  have cycle : Kept numbers (n + 2) r.cycle := kept_nat counters.1
  have speaker : Kept numbers (n + 2) r.speaker := kept_speaker _
  have phases : Kept numbers (n + 2) r.phases := kept_list fun p _ => kept_phase p
  have updateRule : Kept numbers (n + 2) r.updateRule :=
    kept_option (fun r _ => kept_updateRule r) nofun
  have selectionRule : Kept numbers (n + 2) r.selectionRule :=
    kept_option (fun r _ => kept_selectionRule r) nofun
  have updateBodies : Kept numbers (n + 2) r.updateBodies := kept_nat counters.2.1
  have selectionBodies : Kept numbers (n + 2) r.selectionBodies := kept_nat counters.2.2.1
  have diagnostics : Kept numbers (n + 2) r.diagnostics := kept_list fun d _ => kept_diagnostic d
  have input : Kept numbers (n + 2) r.input := kept_option (fun t _ => kept_moveTag t) nofun
  have output : Kept numbers (n + 2) r.output := kept_option (fun t _ => kept_moveTag t) nofun
  refine .of_record ["cycle", "speaker", "phases", "update_rule", "selection_rule",
      "update_bodies", "selection_bodies", "diagnostics", "input", "output"]
    [toDatum r.cycle, toDatum r.speaker, toDatum r.phases, toDatum r.updateRule,
      toDatum r.selectionRule, toDatum r.updateBodies, toDatum r.selectionBodies,
      toDatum r.diagnostics, toDatum r.input, toDatum r.output] (by decide) rfl rfl
    (by simp [cycle.fits, speaker.fits, phases.fits, updateRule.fits, selectionRule.fits,
      updateBodies.fits, selectionBodies.fits, diagnostics.fits, input.fits, output.fits])
    fun mode d fields => ?_
  simp [readDatum?, Datum.fields?, fields, cycle.required, speaker.required, phases.required,
    updateRule.optional, selectionRule.optional, updateBodies.required, selectionBodies.required,
    diagnostics.required, input.optional, output.optional]

/-! Identifiers. -/

namespace Uuid

theorem hexValue?_hexDigit {d : Nat} (small : d < 16) : hexValue? (hexDigit d) = some d := by
  revert d
  decide

@[simp] theorem length_hexDigits (k count : Nat) : (hexDigits k count).length = count := by
  induction count generalizing k with
  | zero => rfl
  | succ count ih => simp [hexDigits, ih]

theorem mapM_hexDigits (k count : Nat) : ∃ values,
    (hexDigits k count).mapM hexValue? = some values ∧
    values.foldl (fun n d => n * 16 + d) 0 = k % 16 ^ count := by
  induction count generalizing k with
  | zero => exact ⟨[], rfl, by simp [Nat.mod_one]⟩
  | succ count ih =>
    obtain ⟨values, read, total⟩ := ih (k / 16)
    refine ⟨values ++ [k % 16], ?_, ?_⟩
    · simp [hexDigits, read, hexValue?_hexDigit (Nat.mod_lt k (by decide))]
    · have split : k % 16 ^ (count + 1) = k / 16 % 16 ^ count * 16 + k % 16 := by
        rw [Nat.pow_succ, Nat.mul_comm (16 ^ count), Nat.mod_mul]
        omega
      simp [total, split]

theorem ofDigits?_hexDigits (u : Uuid) : ofDigits? (hexDigits u.bits.toNat 32) = some u := by
  obtain ⟨values, read, total⟩ := mapM_hexDigits u.bits.toNat 32
  have below : u.bits.toNat < 16 ^ 32 := u.bits.isLt
  rw [Nat.mod_eq_of_lt below] at total
  simp [ofDigits?, read, total]

/-- The hyphens are taken out where they were put in. -/
theorem ofHyphenated?_hyphenated {ds : List Char} (length : ds.length = 32) :
    ofHyphenated? (hyphenated ds) = ofDigits? ds := by
  have digits : (hyphenated ds).take 8 ++ ((hyphenated ds).drop 9).take 4 ++
      ((hyphenated ds).drop 14).take 4 ++ ((hyphenated ds).drop 19).take 4 ++
      (hyphenated ds).drop 24 = ds := by
    have first := List.take_append_drop 8 ds
    have second := List.take_append_drop 4 (ds.drop 8)
    have third := List.take_append_drop 4 (ds.drop 12)
    have fourth := List.take_append_drop 4 (ds.drop 16)
    simp only [List.drop_drop, Nat.reduceAdd] at second third fourth
    simp [hyphenated, List.drop_append, List.drop_take, length, fourth, third, second, first]
  simp only [ofHyphenated?, digits, if_true]

theorem parse?_toText (u : Uuid) : parse? u.toText = some u := by
  have length : (hyphenated (hexDigits u.bits.toNat 32)).length = 36 := by simp [hyphenated]
  simp [parse?, toText, length, ofHyphenated?_hyphenated, ofDigits?_hexDigits]

theorem kept (u : Uuid) : Kept numbers n u := ⟨fun _ => parse?_toText u, .text⟩

end Uuid

theorem kept_sessionRecord {r : SessionRecord} (state : r.state.Admitted numbers)
    (counters : ∀ x ∈ r.trail, ∀ k ∈ x.counters, numbers.ints k) : Kept numbers (n + 10) r := by
  have id : Kept numbers (n + 9) r.id := r.id.kept
  have state : Kept numbers (n + 9) r.state := state.kept
  have trail : Kept numbers (n + 9) r.trail :=
    kept_list fun x member => kept_cycleRecord (counters x member)
  refine .of_record ["id", "state", "trail"] [toDatum r.id, toDatum r.state, toDatum r.trail]
    (by decide) rfl rfl (by simp [id.fits, state.fits, trail.fits]) fun mode d fields => ?_
  simp [readDatum?, fields, id.required, state.required, trail.standard]

end Dialogue
