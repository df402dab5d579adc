import Dialogue.Engine

/-!
Generation from templates: a fixed wording for each kind of move, and the phrases of a domain for
its questions. Alternatives are listed after the phrase unless it names them all.
-/
namespace Dialogue

structure Templates where
  /-- How to ask the question of a topic. -/
  phrases : OrderedMap String String := ∅

namespace Templates

def ofDomain (d : Domain) : Templates :=
  ⟨.ofList (d.questions.filterMap fun q => (d.phraseFor? q).map (q.topic, ·))⟩

def withPhrase (t : Templates) (topic phrase : String) : Templates :=
  ⟨t.phrases.insert topic phrase⟩

/-- All items, with commas between them and "or" before the last. -/
def orList (items : List String) : String :=
  match items.dropLast, items.getLast? with
  | _, none => ""
  | [], some last => last
  | rest, some last => ", ".intercalate rest ++ " or " ++ last

def namesAll (phrase : String) (alternatives : List String) : Bool :=
  alternatives.all fun a =>
    Text.occursIn (Text.lowerChars a.toList) (Text.lowerChars phrase.toList)

def withoutQuestionMarks (s : String) : String := .ofList (Text.dropEndWhile (· = '?') s.toList)

def renderAlternatives (phrase : Option String) (alternatives : List String) : String :=
  match phrase with
  | some p =>
    if namesAll p alternatives then p
    else withoutQuestionMarks p ++ ": " ++ orList alternatives ++ "?"
  | none => Text.capitalise (orList alternatives) ++ "?"

def renderQuestion (t : Templates) (q : Question) : String :=
  let phrase := t.phrases.get? q.topic
  match q with
  | .alt _ alternatives => renderAlternatives phrase alternatives
  | .wh _ predicate _ => phrase.getD ("What is the " ++ Text.spaced predicate ++ "?")
  | .yesNo predicate => phrase.getD ("Is it true that " ++ Text.spaced predicate ++ "?")

def renderFact (predicate : String) (v : Value) : String :=
  "The " ++ Text.spaced predicate ++ " is " ++ v.wording ++ "."

def render (t : Templates) (m : Move) : String :=
  match m.act with
  | .ask q => t.renderQuestion q
  | .answer ⟨v, some predicate, _⟩ => renderFact predicate v
  | .answer ⟨v, none, _⟩ => v.wording ++ "."
  | .assert p => renderFact p.predicate p.value
  | .request task => "Let's " ++ Text.spaced task ++ "."
  | .feedback .acknowledge => "Okay."
  | .feedback .notUnderstood => "Sorry, I didn't understand that."
  | .greet => "Hello."
  | .quit => "Goodbye."

def generator (t : Templates) : Generator := fun m _ => .done (t.render m)

end Templates
end Dialogue
