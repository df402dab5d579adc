import Dialogue.Answer

/-!
When an answer settles a question, and what remains when it does not. Every function is total: an
answer that does not fit yields `none` or `false`.
-/
namespace Dialogue
namespace Question

/-- The value as one of a type; texts are expected without blanks at their ends. -/
def typed (type : String) (v : Value) : Option Value :=
  match type, v with
  | "text", .text s => if Text.isBlankText s then none else some (.text (Text.trim s))
  | "text", .int n => some (.text (Text.ofInt64 n))
  | "int", .int n => some (.int n)
  | "int", .text s => (Text.int64? (Text.trimChars s.toList)).map .int
  | "bool", v => v.truth.map .bool
  | _, _ => none

/-- The first option with the normal form of the value. -/
def exactOption (options : List String) (v : Value) : Option String :=
  options.find? fun o => Text.normalize o = Text.normalize v.wording

/-- The options whose normal form contains that of the value. A blank value is in no option. -/
def partialMatches (options : List String) (v : Value) : List String :=
  let wanted := Text.normalChars v.wording.toList
  if wanted = [] then []
  else options.filter fun o => Text.occursIn wanted (Text.normalChars o.toList)

def trimmed : Value → Value
  | .text s => .text (Text.trim s)
  | v => v

/-- The value under the type constraint. Without one, a truth value is no answer. -/
def underType (constraints : OrderedMap String String) (v : Value) : Option Value :=
  match constraints.get? typeConstraint, v with
  | some type, v => typed type v
  | none, .bool _ => none
  | none, v => some v

def underOptions (constraints : OrderedMap String String) (v : Value) : Option Value :=
  match constraints.get? oneOfConstraint with
  | some listed => (exactOption (splitOptions listed) v).map .text
  | none => some v

def bind? : Question → Value → Option Value
  | wh _ _ constraints, v => underType constraints (trimmed v) >>= underOptions constraints
  | yesNo _, v => v.truth.map .bool
  | alt _ alternatives, v => (exactOption alternatives v).map .text

/-- The proposition that holds when the answer settles the question. -/
def resolution (q : Question) (a : Answer) : Option Proposition :=
  if a.addresses q && !a.value.isEmpty then (q.bind? a.value).map (⟨q.topic, ·⟩) else none

end Question

namespace Answer

def resolves (a : Answer) (q : Question) : Bool := (q.resolution a).isSome

/-- The options of a question that the answer leaves open. -/
def openOptions (a : Answer) (q : Question) : List String :=
  match q.options with
  | some options => Question.partialMatches options a.value
  | none => []

/-- The answer is about the topic of the question, whether or not it settles it. -/
def relevant (a : Answer) (q : Question) : Bool :=
  a.addresses q &&
    (a.resolves q || a.predicate = some q.topic || !(a.openOptions q).isEmpty)

end Answer

namespace Question

/-- The question that remains after an answer that leaves several options open, but not all. -/
def combines (q : Question) (a : Answer) : Option Question := do
  let options ← q.options
  if !a.addresses q || a.resolves q then none
  let left := partialMatches options a.value
  if left.length < 2 || left.length = options.length then none
  else (buildAlt q.topic left).toOption

/-- One of the commitments, read as a full answer, settles the question. -/
def resolvedBy (q : Question) (commitments : OrderedSet Proposition) : Bool :=
  commitments.toList.any fun p => (Answer.ofProposition p).resolves q

end Question
end Dialogue
