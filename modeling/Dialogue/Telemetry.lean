import Dialogue.Cycle

/-!
Telemetry: events without any content of the dialogue, only rules, kinds of moves, numbers of cycles
and counts. What is seen of them is a window on the latest events.
-/
namespace Dialogue

inductive RuleName where
  | update (rule : UpdateRule)
  | selection (rule : SelectionRule)
  deriving DecidableEq

namespace RuleName

def all : List RuleName := UpdateRule.all.map update ++ SelectionRule.all.map selection

instance : Storable RuleName where
  toDatum
    | update r => .record [("Update", toDatum r)]
    | selection r => .record [("Selection", toDatum r)]
  readDatum? mode d := do
    match ← Datum.single? d with
    | ("Update", d) => (readDatum? mode d).map update
    | ("Selection", d) => (readDatum? mode d).map selection
    | _ => none

end RuleName

structure Summary where
  cycles : Nat
  rulesFired : Nat
  unintegratedMoves : Nat
  exhaustedSelections : Nat
  rollbacks : Nat
  deriving DecidableEq

inductive Event where
  | ruleFired (rule : RuleName) (cycle : Nat)
  | moveUnintegrated (tag : MoveTag) (cycle : Nat)
  | selectionExhausted (cycle : Nat)
  /-- The reason is not kept. -/
  | interpretationFailed (cycle : Nat)
  /-- A turn was given up because of a collaborator, or by cancellation. -/
  | turnRolledBack (stage : Option Stage)
  | sessionSummary (summary : Summary)
  deriving DecidableEq

namespace Event

def cycle? : Event → Option Nat
  | ruleFired _ cycle | moveUnintegrated _ cycle | selectionExhausted cycle
  | interpretationFailed cycle => some cycle
  | turnRolledBack _ | sessionSummary _ => none

def ofDiagnostic (cycle : Nat) : Diagnostic → Event
  | .unintegratedMove tag => moveUnintegrated tag cycle
  | .selectionExhausted => selectionExhausted cycle
  | .interpretationFailed _ => interpretationFailed cycle

/-- The events of a cycle: the rules that fired, then what was amiss. -/
def ofCycle (r : CycleRecord) : List Event :=
  (r.updateRule.map fun rule => ruleFired (.update rule) r.cycle).toList ++
    (r.selectionRule.map fun rule => ruleFired (.selection rule) r.cycle).toList ++
    r.diagnostics.map (ofDiagnostic r.cycle)

instance : Storable Event where
  toDatum
    | ruleFired rule cycle =>
      .record [("RuleFired", .record [("rule", toDatum rule), ("cycle", toDatum cycle)])]
    | moveUnintegrated tag cycle =>
      .record [("MoveUnintegrated", .record [("tag", toDatum tag), ("cycle", toDatum cycle)])]
    | selectionExhausted cycle =>
      .record [("SelectionExhausted", .record [("cycle", toDatum cycle)])]
    | interpretationFailed cycle =>
      .record [("InterpretationFailed", .record [("cycle", toDatum cycle)])]
    | turnRolledBack stage => .record [("TurnRolledBack", .record [("stage", toDatum stage)])]
    | sessionSummary x => .record [("SessionSummary", .record [("cycles", toDatum x.cycles),
        ("rules_fired", toDatum x.rulesFired), ("unintegrated_moves", toDatum x.unintegratedMoves),
        ("exhausted_selections", toDatum x.exhaustedSelections),
        ("rollbacks", toDatum x.rollbacks)])]
  readDatum? mode d := do
    match ← Datum.single? d with
    | ("RuleFired", d) =>
      let [rule, cycle] ← Datum.fields? ["rule", "cycle"] d | none
      return ruleFired (← Datum.required mode rule) (← Datum.required mode cycle)
    | ("MoveUnintegrated", d) =>
      let [tag, cycle] ← Datum.fields? ["tag", "cycle"] d | none
      return moveUnintegrated (← Datum.required mode tag) (← Datum.required mode cycle)
    | ("SelectionExhausted", d) =>
      let [cycle] ← Datum.fields? ["cycle"] d | none
      return selectionExhausted (← Datum.required mode cycle)
    | ("InterpretationFailed", d) =>
      let [cycle] ← Datum.fields? ["cycle"] d | none
      return interpretationFailed (← Datum.required mode cycle)
    | ("TurnRolledBack", d) =>
      let [stage] ← Datum.fields? ["stage"] d | none
      return turnRolledBack (← Datum.optional mode stage)
    | ("SessionSummary", d) =>
      let [cycles, rules, unintegrated, exhausted, rollbacks] ← Datum.fields? ["cycles",
        "rules_fired", "unintegrated_moves", "exhausted_selections", "rollbacks"] d | none
      return sessionSummary ⟨← Datum.required mode cycles, ← Datum.required mode rules,
        ← Datum.required mode unintegrated, ← Datum.required mode exhausted,
        ← Datum.required mode rollbacks⟩
    | _ => none

end Event

structure Snapshot where
  events : List Event

namespace Snapshot

def count (x : Snapshot) (rule : RuleName) : Nat :=
  x.events.countP fun
    | .ruleFired r _ => r = rule
    | _ => false

/-- The rules that fired, in the order of the tables, with their counts. -/
def ruleCounts (x : Snapshot) : List (RuleName × Nat) :=
  (RuleName.all.map fun rule => (rule, x.count rule)).filter (·.2 ≠ 0)

def rulesFired (x : Snapshot) : Nat := x.ruleCounts.foldr (fun c total => c.2 + total) 0

def cycles (x : Snapshot) : Nat := (x.events.filterMap Event.cycle?).eraseDups.length

def unintegratedMoves (x : Snapshot) : Nat :=
  x.events.countP fun
    | .moveUnintegrated _ _ => true
    | _ => false

def exhaustedSelections (x : Snapshot) : Nat :=
  x.events.countP fun
    | .selectionExhausted _ => true
    | _ => false

def interpretationFailures (x : Snapshot) : Nat :=
  x.events.countP fun
    | .interpretationFailed _ => true
    | _ => false

/-- How many turns were given up in a stage; without a stage, by cancellation. -/
def rollbacksIn (x : Snapshot) (stage : Option Stage) : Nat :=
  x.events.count (.turnRolledBack stage)

def rollbacks (x : Snapshot) : Nat :=
  x.rollbacksIn (some .interpret) + x.rollbacksIn (some .generate) + x.rollbacksIn none

def summary (x : Snapshot) : Summary where
  cycles := x.cycles
  rulesFired := x.rulesFired
  unintegratedMoves := x.unintegratedMoves
  exhaustedSelections := x.exhaustedSelections
  rollbacks := x.rollbacks

end Snapshot

structure Telemetry where
  /-- The latest event first. -/
  latestFirst : List Event := []

namespace Telemetry

def window : Nat := 10000

def record (t : Telemetry) (e : Event) : Telemetry := ⟨e :: t.latestFirst⟩

/-- The events that are seen, oldest first. -/
def events (t : Telemetry) : List Event := (t.latestFirst.take window).reverse

def snapshot (t : Telemetry) : Snapshot := ⟨t.events⟩

def recordCycle (t : Telemetry) (r : CycleRecord) : Telemetry := (Event.ofCycle r).foldl record t

end Telemetry
end Dialogue
