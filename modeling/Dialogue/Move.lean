import Dialogue.Answer

/-!
Dialogue moves: who does what, to which question it refers, and how sure the interpretation is.
-/
namespace Dialogue

inductive Speaker where
  | user
  | system
  deriving DecidableEq

inductive Feedback where
  | acknowledge
  | notUnderstood
  deriving DecidableEq

inductive Act where
  | ask (question : Question)
  | answer (answer : Answer)
  | assert (proposition : Proposition)
  | request (task : String)
  | feedback (feedback : Feedback)
  | greet
  | quit
  deriving DecidableEq

inductive MoveTag where
  | ask
  | answer
  | assert
  | request
  | feedback
  | greet
  | quit
  deriving DecidableEq

/-- A move. Confidence is meant to lie between 0 and 1; the system is always sure of its own
moves. -/
structure Move where
  speaker : Speaker
  act : Act
  addresses : Option QuestionKey := none
  confidence : Binary32 := .one
  deriving DecidableEq

def Act.tag : Act → MoveTag
  | ask _ => .ask
  | answer _ => .answer
  | assert _ => .assert
  | request _ => .request
  | feedback _ => .feedback
  | greet => .greet
  | quit => .quit

namespace Move

def ask (speaker : Speaker) (q : Question) : Move := { speaker, act := .ask q }

def answer (speaker : Speaker) (a : Answer) : Move :=
  { speaker, act := .answer a, addresses := a.question }

def assert (speaker : Speaker) (p : Proposition) : Move := { speaker, act := .assert p }
def request (speaker : Speaker) (task : String) : Move := { speaker, act := .request task }
def feedback (speaker : Speaker) (f : Feedback) : Move := { speaker, act := .feedback f }
def greet (speaker : Speaker) : Move := { speaker, act := .greet }
def quit (speaker : Speaker) : Move := { speaker, act := .quit }

def withConfidence (m : Move) (c : Binary32) : Move := { m with confidence := c.clampUnit }

def addressing (m : Move) (k : QuestionKey) : Move := { m with addresses := some k }

def tag (m : Move) : MoveTag := m.act.tag

def question? (m : Move) : Option Question :=
  match m.act with
  | .ask q => some q
  | _ => none

/-- The answer that the move gives; the reference of the move counts where the answer has none. -/
def answer? (m : Move) : Option Answer :=
  match m.act with
  | .answer a => some { a with question := a.question.or m.addresses }
  | _ => none

def yieldsFloor (m : Move) : Bool :=
  match m.act with
  | .ask _ | .quit | .feedback .notUnderstood => true
  | _ => false

/-- Equal moves, where confidences are compared as numbers. A move without a confidence that is a
number agrees with no move, itself included. -/
def agrees (a b : Move) : Bool :=
  a.speaker = b.speaker && a.act = b.act && a.addresses = b.addresses &&
    a.confidence == b.confidence

end Move

namespace Speaker

def name : Speaker → String
  | user => "user"
  | system => "system"

instance : Storable Speaker where
  toDatum s := .text s.name
  readDatum? := Datum.ofNames? [("user", user), ("system", system)]

end Speaker

namespace Feedback

def name : Feedback → String
  | acknowledge => "acknowledge"
  | notUnderstood => "not_understood"

instance : Storable Feedback where
  toDatum f := .text f.name
  readDatum? := Datum.ofNames? [("acknowledge", acknowledge), ("not_understood", notUnderstood)]

end Feedback

namespace MoveTag

def name : MoveTag → String
  | ask => "ask"
  | answer => "answer"
  | assert => "assert"
  | request => "request"
  | feedback => "icm"
  | greet => "greet"
  | quit => "quit"

def all : List MoveTag := [ask, answer, assert, request, feedback, greet, quit]

def table : List (String × MoveTag) := all.map fun t => (t.name, t)

instance : Storable MoveTag where
  toDatum t := .text t.name
  readDatum? := Datum.ofNames? table

end MoveTag

namespace Act

/-- What an act is about, as it is stored; nothing for a greeting and a farewell. -/
def content? : Act → Option Datum
  | ask q => some (toDatum q)
  | answer a => some (toDatum a)
  | assert p => some (toDatum p)
  | request task => some (.record [("task", toDatum task)])
  | feedback f => some (toDatum f)
  | greet | quit => none

/-- The act with a tag from its stored content. What is requested stands in a record, never in a
list by position. -/
def ofContent? (mode : Reading) (tag : MoveTag) (content : Option Datum) : Option Act :=
  match tag, content with
  | .ask, some d => (readDatum? mode d).map ask
  | .answer, some d => (readDatum? mode d).map answer
  | .assert, some d => (readDatum? mode d).map assert
  | .request, some (.record fields) => do
    return request (← Datum.field? fields "task" >>= Datum.required mode)
  | .feedback, some d => (readDatum? mode d).map feedback
  | .greet, none | .greet, some .null => some greet
  | .quit, none | .quit, some .null => some quit
  | _, _ => none

/-- Reads a record with a tag and a content. A content that stands before the tag is set aside until
the tag is known. -/
def ofFields? (mode : Reading) (fields : List (String × Datum)) : Option Act := do
  let tag ← Datum.field? fields "type" >>= Datum.required mode
  let content ← Datum.field? fields "content"
  let first := fields.find? fun f => f.1 ∈ ["type", "content"]
  if first.any (·.1 = "type") then ofContent? mode tag content
  else if content.all Datum.isMeaningful then ofContent? .setAside tag content
  else none

def ofPair? (mode : Reading) (tag content : Datum) : Option Act := do
  ofContent? mode (← Datum.tag? mode MoveTag.table tag) (some content)

instance : Storable Act where
  toDatum a := .record (("type", toDatum a.tag) ::
    match a.content? with
    | some d => [("content", d)]
    | none => [])
  readDatum?
    | mode, .record fields => ofFields? mode fields
    | mode, .list [tag, content] => ofPair? mode tag content
    | _, _ => none

end Act

instance : Storable Move where
  toDatum m := .record [("speaker", toDatum m.speaker), ("kind", toDatum m.act),
    ("addresses", toDatum m.addresses), ("confidence", toDatum m.confidence)]
  readDatum? mode d := do
    let [speaker, act, addresses, confidence] ←
      Datum.fields? ["speaker", "kind", "addresses", "confidence"] d | none
    return ⟨← Datum.required mode speaker, ← Datum.required mode act,
      ← Datum.optional mode addresses, ← Datum.required mode confidence⟩

end Dialogue
