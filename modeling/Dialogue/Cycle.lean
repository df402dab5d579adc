import Dialogue.Rules.Update
import Dialogue.Rules.Selection

/-!
Audit records: for each cycle which phases ran, which rules fired, and what went amiss without
stopping the dialogue.
-/
namespace Dialogue

inductive Phase where
  | interpret
  | integrate
  | select
  | generate
  deriving DecidableEq

namespace Phase

def all : List Phase := [interpret, integrate, select, generate]

def name : Phase → String
  | interpret => "interpret"
  | integrate => "integrate"
  | select => "select"
  | generate => "generate"

instance : Storable Phase where
  toDatum p := .text p.name
  readDatum? := Datum.ofNames? (all.map fun p => (p.name, p))

end Phase

inductive Diagnostic where
  /-- No update rule took the move. -/
  | unintegratedMove (tag : MoveTag)
  /-- No selection rule applied. -/
  | selectionExhausted
  | interpretationFailed (reason : String)
  deriving DecidableEq

namespace Diagnostic

def readUnintegratedMove? (d : Datum) : Option Diagnostic := do
  let [tag] ← Datum.fields? ["tag"] d | none
  return unintegratedMove (← Datum.required .setAside tag)

def readSelectionExhausted? (d : Datum) : Option Diagnostic := do
  let [] ← Datum.fields? [] d | none
  return selectionExhausted

def readInterpretationFailed? (d : Datum) : Option Diagnostic := do
  let [reason] ← Datum.fields? ["reason"] d | none
  return interpretationFailed (← Datum.required .setAside reason)

instance : Storable Diagnostic where
  toDatum
    | unintegratedMove tag => .record [("kind", .text "unintegrated_move"), ("tag", toDatum tag)]
    | selectionExhausted => .record [("kind", .text "selection_exhausted")]
    | interpretationFailed reason =>
      .record [("kind", .text "interpretation_failed"), ("reason", toDatum reason)]
  readDatum? mode := Datum.tagged? mode "kind" [
    ("unintegrated_move", readUnintegratedMove?),
    ("selection_exhausted", readSelectionExhausted?),
    ("interpretation_failed", readInterpretationFailed?)]

end Diagnostic

def Integration.diagnostics (x : Integration) : List Diagnostic :=
  (x.leftover.map fun m => Diagnostic.unintegratedMove m.tag).toList

def Selection.diagnostics (x : Selection) : List Diagnostic :=
  if x.move.isNone then [.selectionExhausted] else []

structure CycleRecord where
  cycle : Nat
  speaker : Speaker
  phases : List Phase := []
  updateRule : Option UpdateRule := none
  selectionRule : Option SelectionRule := none
  /-- How many update rules fired. -/
  updateBodies : Nat := 0
  /-- How many selection rules fired. -/
  selectionBodies : Nat := 0
  diagnostics : List Diagnostic := []
  /-- The move that came in. -/
  input : Option MoveTag := none
  /-- The move that went out. -/
  output : Option MoveTag := none
  deriving DecidableEq

namespace CycleRecord

/-! A record is written while its cycle goes on. -/

def enter (p : Phase) (r : CycleRecord) : CycleRecord := { r with phases := r.phases ++ [p] }

def begun (cycle : Nat) (speaker : Speaker) : CycleRecord := enter .interpret { cycle, speaker }

def noteInput (m : Option Move) (amiss : Option Diagnostic) (r : CycleRecord) : CycleRecord :=
  { r with input := m.map Move.tag, diagnostics := r.diagnostics ++ amiss.toList }

def noteIntegration (x : Integration) (r : CycleRecord) : CycleRecord :=
  { r with
    updateRule := x.rule
    updateBodies := x.bodies
    diagnostics := r.diagnostics ++ x.diagnostics }

def noteSelection (x : Selection) (r : CycleRecord) : CycleRecord :=
  { r with
    selectionRule := x.rule
    selectionBodies := x.bodies
    diagnostics := r.diagnostics ++ x.diagnostics }

def noteOutput (m : Option Move) (r : CycleRecord) : CycleRecord :=
  { r with output := m.map Move.tag }

def isQuiescent (r : CycleRecord) : Bool := r.updateRule.isNone && r.selectionRule.isNone

instance : Storable CycleRecord where
  toDatum r := .record [("cycle", toDatum r.cycle), ("speaker", toDatum r.speaker),
    ("phases", toDatum r.phases), ("update_rule", toDatum r.updateRule),
    ("selection_rule", toDatum r.selectionRule), ("update_bodies", toDatum r.updateBodies),
    ("selection_bodies", toDatum r.selectionBodies), ("diagnostics", toDatum r.diagnostics),
    ("input", toDatum r.input), ("output", toDatum r.output)]
  readDatum? mode d := do
    let [cycle, speaker, phases, updateRule, selectionRule, updateBodies, selectionBodies,
        diagnostics, input, output] ←
      Datum.fields? ["cycle", "speaker", "phases", "update_rule", "selection_rule",
        "update_bodies", "selection_bodies", "diagnostics", "input", "output"] d | none
    return {
      cycle := ← Datum.required mode cycle
      speaker := ← Datum.required mode speaker
      phases := ← Datum.required mode phases
      updateRule := ← Datum.optional mode updateRule
      selectionRule := ← Datum.optional mode selectionRule
      updateBodies := ← Datum.required mode updateBodies
      selectionBodies := ← Datum.required mode selectionBodies
      diagnostics := ← Datum.required mode diagnostics
      input := ← Datum.optional mode input
      output := ← Datum.optional mode output }

end CycleRecord
end Dialogue
