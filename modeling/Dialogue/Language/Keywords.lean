import Dialogue.Engine

/-!
Interpretation by keywords: greetings, farewells and feedback, triggers of tasks, questions by the
phrases of their topics, truth values, sentences of the form "X is Y", and short answers. Longer
phrases are tried before shorter ones.
-/
namespace Dialogue

/-- Phrases in normal form with what they stand for, the longer ones first. -/
structure Lexicon (α : Type) where
  entries : List (String × α) := []

namespace Lexicon

/-- Puts an entry behind all phrases that are at least as long, in bytes. -/
def insertEntry {α : Type} (phrase : String) (a : α) : List (String × α) → List (String × α)
  | [] => [(phrase, a)]
  | e :: rest =>
    if e.1.utf8ByteSize < phrase.utf8ByteSize then (phrase, a) :: e :: rest
    else e :: insertEntry phrase a rest

def insert {α : Type} (l : Lexicon α) (phrase : String) (a : α) : Lexicon α :=
  ⟨insertEntry (Text.normalize phrase) a l.entries⟩

def find? {α : Type} (l : Lexicon α) (p : String → Bool) : Option α :=
  (l.entries.find? fun e => p e.1).map (·.2)

end Lexicon

structure Keywords where
  /-- Trigger phrases with their tasks. -/
  triggers : Lexicon String := {}
  /-- Topic phrases with their questions. -/
  topics : Lexicon Question := {}

inductive Misunderstanding where
  | emptyUtterance
  | unknownTopic
  deriving DecidableEq

def Misunderstanding.reason : Misunderstanding → String
  | emptyUtterance => "empty utterance"
  | unknownTopic => "question about an unknown topic"

namespace Keywords

def withTrigger (k : Keywords) (task phrase : String) : Keywords :=
  { k with triggers := k.triggers.insert phrase task }

def withTopic (k : Keywords) (phrase : String) (q : Question) : Keywords :=
  { k with topics := k.topics.insert phrase q }

def withQuestion (k : Keywords) (q : Question) : Keywords :=
  let k := k.withTopic q.topic q
  if '_' ∈ q.topic.toList then k.withTopic (Text.spaced q.topic) q else k

def ofDomain (d : Domain) : Keywords :=
  d.questions.foldl withQuestion
    (d.triggers.foldl (fun k t => k.withTrigger t.1 t.2) {})

def isPunctuation (c : Char) : Bool := c ∈ ['.', '!', '?', ',']

def greetings : List String := ["hello", "hi", "hey", "good morning", "good afternoon"]
def farewells : List String := ["bye", "goodbye", "quit", "exit", "stop"]
def notUnderstood : List String := ["pardon", "what", "sorry", "huh", "come again"]
def acknowledgements : List String := ["ok", "okay", "thanks", "thank you", "got it", "fine"]

/-- The confidence in a short answer, which does not say what it answers. -/
def shortAnswerConfidence : Binary32 := ⟨0x3F4CCCCD⟩

/-- Drops punctuation at the end, then blanks at both ends. -/
def bared (s : List Char) : List Char := Text.trimChars (Text.dropEndWhile isPunctuation s)

/-- The phrase stands in the text as whole words, punctuation apart. -/
def containsWords (text : List Char) (phrase : String) : Bool :=
  let padded := ' ' :: text.map (fun c => if isPunctuation c then ' ' else c) ++ [' ']
  phrase ≠ "" && Text.occursIn (' ' :: phrase.toList ++ [' ']) padded

def determiners : List String := ["the ", "my ", "our ", "your "]

def stripDeterminer (s : List Char) : List Char :=
  let s := Text.trimChars s
  match determiners.find? fun w => w.toList.isPrefixOf s with
  | some w => Text.trimChars (s.drop w.toList.length)
  | none => s

def valueOf (s : List Char) : Value :=
  match Text.int64? s with
  | some n => .int n
  | none => .text (.ofList s)

def conventional? (bare : String) : Option Move :=
  if bare ∈ greetings then some (.greet .user)
  else if bare ∈ farewells then some (.quit .user)
  else if bare ∈ notUnderstood then some (.feedback .user .notUnderstood)
  else if bare ∈ acknowledgements then some (.feedback .user .acknowledge)
  else none

def isCopula (word : List Char) : Bool := word.map Char.toLower = ['i', 's']

/-- What stands before and after the first word "is", where both are more than a determiner. -/
def copula? (raw : List Char) : Option (List Char × List Char) :=
  let words := raw.splitOn ' '
  let before := words.takeWhile fun w => !isCopula w
  match words.dropWhile fun w => !isCopula w with
  | [] => none
  | _ :: after =>
    let subject := stripDeterminer (Text.normalChars ([' '].intercalate before))
    let object := [' '].intercalate after
    if subject = [] ∨ object = [] then none else some (subject, object)

/-- "X is Y" answers the question on a known topic and asserts anything else. -/
def statement (k : Keywords) (subject object : List Char) : Move :=
  match k.topics.find? fun phrase => phrase.toList = subject with
  | some q => .answer .user (.full q.topic (valueOf object))
  | none =>
    .assert .user ⟨.ofList (subject.map fun c => if c = ' ' then '_' else c), valueOf object⟩

/-- The move behind an utterance. Words are compared in normal form; values keep the letters of the
utterance. -/
def parse (k : Keywords) (utterance : String) : Except Misunderstanding Move :=
  let text := Text.normalChars utterance.toList
  let bare := bared text
  let raw := bared (Text.singleSpaced utterance.toList)
  if bare = [] then throw .emptyUtterance
  else match conventional? (.ofList bare) with
  | some m => pure m
  | none => match k.triggers.find? (containsWords bare) with
  | some task => pure (.request .user task)
  | none =>
    if text.getLast? = some '?' then
      match k.topics.find? (containsWords bare) with
      | some q => pure (.ask .user q)
      | none => throw .unknownTopic
    else match Value.truthOfText (.ofList bare) with
    | some b => pure (.answer .user (.short (.bool b)))
    | none => match copula? raw with
    | some (subject, object) => pure (k.statement subject object)
    | none => pure ((Move.answer .user (.short (valueOf raw))).withConfidence shortAnswerConfidence)

def interpreter (k : Keywords) : Interpreter := fun utterance _ =>
  match k.parse utterance with
  | .ok m => .done m
  | .error x => .failed (.interpretation x.reason)

end Keywords
end Dialogue
