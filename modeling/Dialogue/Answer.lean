import Dialogue.Value
import Dialogue.Question

/-!
Answers: values offered in reply to questions. A short answer is only a value; a full answer names
the predicate too. An answer may also point to a question by its key.
-/
namespace Dialogue

structure Answer where
  value : Value
  predicate : Option String := none
  question : Option QuestionKey := none
  deriving DecidableEq

namespace Answer

def short (value : Value) : Answer := { value }

def full (predicate : String) (value : Value) : Answer := { value, predicate := some predicate }

def addressing (a : Answer) (k : QuestionKey) : Answer := { a with question := some k }

def ofProposition (p : Proposition) : Answer := full p.predicate p.value

/-- The answer does not point to another question, by key or by predicate. -/
def addresses (a : Answer) (q : Question) : Bool :=
  a.question.all (· = q.key) && a.predicate.all (· = q.topic)

instance : Storable Answer where
  toDatum a := .record [("value", toDatum a.value), ("predicate", toDatum a.predicate),
    ("question", toDatum a.question)]
  readDatum? mode d := do
    let [value, predicate, question] ← Datum.fields? ["value", "predicate", "question"] d | none
    return ⟨← Datum.required mode value, ← Datum.optional mode predicate,
      ← Datum.optional mode question⟩

end Answer
end Dialogue
