import Dialogue.Cycle

/-!
The dialogue engine. Every cycle has four phases: interpret, integrate, select, generate. The engine
keeps no state of its own; an exchange takes a state and yields a new one, and one that is given up
yields none. Interpreter and generator stand outside: they may answer, fail, or stay silent.
-/
namespace Dialogue

inductive Reply (α : Type) where
  | done (a : α)
  | failed (e : Error)
  /-- No answer comes in time. The session may have been cancelled in the meantime. -/
  | silent (cancelling : Bool)

abbrev Interpreter := String → State → Reply Move

abbrev Generator := Move → State → Reply String

structure Abort where
  error : Error
  /-- The session was cancelled while a collaborator was silent. -/
  cancelling : Bool := false
  deriving DecidableEq

structure Engine where
  domain : Domain
  interpreter : Interpreter
  generator : Generator
  config : Config := {}

structure Interpretation where
  move : Option Move
  diagnostic : Option Diagnostic
  deriving DecidableEq

structure TurnOutcome where
  state : State
  record : CycleRecord
  move : Option Move
  utterance : Option String
  deriving DecidableEq

/-- The move that the system made, with its words. -/
def TurnOutcome.said (o : TurnOutcome) : Option (Move × String) :=
  match o.move, o.utterance with
  | some m, some text => some (m, text)
  | _, _ => none

structure Exchange where
  state : State
  records : List CycleRecord := []
  moves : List Move := []
  utterances : List String := []
  deriving DecidableEq

namespace Exchange

def push (x : Exchange) (o : TurnOutcome) : Exchange where
  state := o.state
  records := x.records ++ [o.record]
  moves := x.moves ++ o.move.toList
  utterances := x.utterances ++ o.utterance.toList

def text (x : Exchange) : String := " ".intercalate x.utterances

end Exchange

namespace Engine

def initialState (e : Engine) : State := .withBeliefs e.domain.beliefs

/-- An error of a collaborator as an error of its stage. -/
def blame (stage : Stage) (x : Error) : Abort :=
  ⟨if x.isRollback then x else .collaborator stage x.message, false⟩

/-- A collaborator that stays silent runs into the timeout. -/
def expire (e : Engine) (stage : Stage) (cancelling : Bool) : Abort :=
  ⟨.timeout stage e.config.timeoutMs, cancelling⟩

/-- The move behind an utterance. Any move heard is one of the user; a failure to understand is a
diagnostic and not an error. -/
def interpret (e : Engine) (utterance : String) (s : State) : Except Abort Interpretation :=
  match e.interpreter utterance s with
  | .done m => pure ⟨some { m with speaker := .user }, none⟩
  | .failed (.interpretation reason) => pure ⟨none, some (.interpretationFailed reason)⟩
  | .failed x => throw (blame .interpret x)
  | .silent cancelling => throw (e.expire .interpret cancelling)

def integrate (e : Engine) (s : State) (m : Option Move) : Integration :=
  s.integrate e.domain e.config m

def select (e : Engine) (s : State) : Selection := s.select e.domain e.config

def generate (e : Engine) (m : Move) (s : State) : Except Abort String :=
  match e.generator m s with
  | .done text => pure text
  | .failed x => throw (blame .generate x)
  | .silent cancelling => throw (e.expire .generate cancelling)

/-- The last three phases of a cycle whose record has been begun. Where a rule changed the state but
the system has nothing to say, it keeps the floor, as it may have more to do. -/
def finishCycle (e : Engine) (s : State) (m : Option Move) (record : CycleRecord) :
    Except Abort TurnOutcome := do
  let record := record.enter .integrate
  let integrated := e.integrate s m
  let record := (record.noteIntegration integrated).enter .select
  let selected := e.select integrated.state
  let record := record.noteSelection selected
  let next := if selected.move.isNone && record.updateRule.isSome
    then selected.state.giveFloor .system else selected.state
  let record := record.enter .generate
  let utterance ← selected.move.mapM (e.generate · next)
  return ⟨next, record.noteOutput selected.move, selected.move, utterance⟩

/-- A cycle of the user. A dialogue that has ended takes no more input. -/
def turn (e : Engine) (s : State) (utterance : String) : Except Abort TurnOutcome := do
  if s.terminated then throw ⟨.dialogueEnded, false⟩
  let s := s.beginCycle .user
  let record := CycleRecord.begun s.cycle .user
  let heard ← e.interpret utterance s
  let record := record.noteInput heard.move heard.diagnostic
  let s := if heard.diagnostic.isSome then s.setConfidence .zero else s
  e.finishCycle s heard.move record

def tick (e : Engine) (s : State) : Except Abort TurnOutcome :=
  let s := s.beginCycle .system
  e.finishCycle s none (.begun s.cycle .system)

/-- Cycles of the system while it has the floor, until no rule fires, but no more than `limit`. -/
def runSystem (e : Engine) (limit : Nat) (x : Exchange) : Except Abort Exchange :=
  match limit with
  | 0 => pure x
  | limit + 1 =>
    if x.state.terminated || x.state.nextSpeaker ≠ .system then pure x
    else do
      let o ← e.tick x.state
      if o.record.isQuiescent then pure (x.push o) else e.runSystem limit (x.push o)

/-- A turn of the user and what the system does then. -/
def respond (e : Engine) (s : State) (utterance : String) : Except Abort Exchange := do
  let first ← e.turn s utterance
  e.runSystem e.config.maxSystemCycles (Exchange.push { state := s } first)

/-- The state in which a dialogue opens: the system has the floor, and greets if nobody has said
anything yet. -/
def openingState (e : Engine) (s : State) : State :=
  let greeted := if e.config.greetOnStart && s.moves.isEmpty then s.enqueue (.greet .system) else s
  greeted.giveFloor .system

def opening (e : Engine) (s : State) : Except Abort Exchange :=
  e.runSystem e.config.maxSystemCycles { state := e.openingState s }

end Engine
end Dialogue
