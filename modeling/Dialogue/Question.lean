import Dialogue.Datum.Basic
import Dialogue.Text.Normal

/-!
Questions: what has which value, is something so, or which of several alternatives holds. The
building functions check the parts of a question; its key is its canonical text and serves to refer
to it.
-/
namespace Dialogue

/-- A question. Its predicate is also called its topic. -/
inductive Question where
  /-- Which value of the variable satisfies the predicate under the constraints. -/
  | wh (var predicate : String) (constraints : OrderedMap String String)
  | yesNo (predicate : String)
  | alt (predicate : String) (alternatives : List String)
  deriving DecidableEq

/-- A reference to a question by its canonical text. -/
structure QuestionKey where
  text : String
  deriving DecidableEq

instance : Storable QuestionKey where
  toDatum k := toDatum k.text
  readDatum? mode d := (readDatum? mode d).map QuestionKey.mk

inductive QuestionFault where
  | emptyField (field : String)
  | unknownType (predicate type : String)
  | noOptions (predicate : String)
  | unknownConstraint (predicate constraint : String)
  | fewAlternatives (predicate : String)
  | emptyAlternative (predicate : String)
  | repeatedAlternative (predicate alternative : String)
  deriving DecidableEq

def QuestionFault.reason : QuestionFault → String
  | emptyField field => "question " ++ field ++ " must not be empty"
  | unknownType p type => "question `" ++ p ++ "`: unknown value type `" ++ type ++ "`"
  | noOptions p => "question `" ++ p ++ "`: empty one_of constraint"
  | unknownConstraint p c => "question `" ++ p ++ "`: unknown constraint `" ++ c ++ "`"
  | fewAlternatives p => "alternative question `" ++ p ++ "` needs at least two alternatives"
  | emptyAlternative p => "alternative question `" ++ p ++ "` has an empty alternative"
  | repeatedAlternative p a => "alternative question `" ++ p ++ "` repeats `" ++ a ++ "`"

namespace Question

def typeConstraint : String := "type"

def oneOfConstraint : String := "one_of"

def valueTypes : List String := ["text", "int", "bool"]

def defaultTopic : String := "choice"

/-- The pieces of a text between bars, trimmed, without the empty ones. -/
def splitOptions (s : String) : List String :=
  ((s.toList.splitOn '|').map fun piece => String.ofList (Text.trimChars piece)).filter (· ≠ "")

def topic : Question → String
  | wh _ predicate _ => predicate
  | yesNo predicate => predicate
  | alt predicate _ => predicate

/-- The options of a question that closes over finitely many. -/
def options : Question → Option (List String)
  | wh _ _ constraints => (constraints.get? oneOfConstraint).map splitOptions
  | yesNo _ => none
  | alt _ alternatives => some alternatives

def constraintText (constraints : OrderedMap String String) : String :=
  if constraints.entries = [] then ""
  else "[" ++ ",".intercalate (constraints.entries.map fun c => c.1 ++ "=" ++ c.2) ++ "]"

def wording : Question → String
  | wh var predicate constraints =>
    "?" ++ var ++ "." ++ predicate ++ "(" ++ var ++ ")" ++ constraintText constraints
  | yesNo predicate => "?" ++ predicate
  | alt predicate alternatives =>
    "?" ++ predicate ++ "\x7b" ++ "|".intercalate alternatives ++ "\x7d"

def key (q : Question) : QuestionKey := ⟨q.wording⟩

def required (field value : String) : Except QuestionFault String :=
  let trimmed := Text.trim value
  if trimmed = "" then throw (.emptyField field) else pure trimmed

def constraintFault? (predicate : String) (name value : String) : Option QuestionFault :=
  if name = typeConstraint then
    if value ∈ valueTypes then none else some (.unknownType predicate value)
  else if name = oneOfConstraint then
    if splitOptions value = [] then some (.noOptions predicate) else none
  else some (.unknownConstraint predicate name)

/-- What is wrong with the first faulty alternative, given the normal forms of those before. -/
def alternativeFault? (predicate : String) (seen : List String) :
    List String → Option QuestionFault
  | [] => none
  | a :: rest =>
    if a = "" then some (.emptyAlternative predicate)
    else if Text.normalize a ∈ seen then some (.repeatedAlternative predicate a)
    else alternativeFault? predicate (Text.normalize a :: seen) rest

/-- The question for a value. Of two constraints with one name the later counts. -/
def buildWh (var predicate : String) (constraints : List (String × String)) :
    Except QuestionFault Question := do
  let var ← required "variable" var
  let predicate ← required "predicate" predicate
  let constraints := OrderedMap.ofList constraints
  match constraints.entries.findSome? fun c => constraintFault? predicate c.1 c.2 with
  | some fault => throw fault
  | none => pure (wh var predicate constraints)

def buildYesNo (predicate : String) : Except QuestionFault Question := do
  return yesNo (← required "predicate" predicate)

/-- The question for one of at least two alternatives, which differ in their normal forms. -/
def buildAlt (predicate : String) (alternatives : List String) : Except QuestionFault Question := do
  let predicate ← required "predicate" predicate
  let alternatives := alternatives.map Text.trim
  if alternatives.length < 2 then throw (.fewAlternatives predicate)
  match alternativeFault? predicate [] alternatives with
  | some fault => throw fault
  | none => pure (alt predicate alternatives)

def readWh? (d : Datum) : Option Question := do
  let [var, predicate, constraints] ←
    Datum.fields? ["variable", "predicate", "constraints"] d | none
  return wh (← Datum.required .setAside var) (← Datum.required .setAside predicate)
    (← Datum.required .setAside constraints)

def readYesNo? (d : Datum) : Option Question := do
  let [predicate] ← Datum.fields? ["predicate"] d | none
  return yesNo (← Datum.required .setAside predicate)

def readAlt? (d : Datum) : Option Question := do
  let [predicate, alternatives] ← Datum.fields? ["predicate", "alternatives"] d | none
  return alt (← Datum.required .setAside predicate) (← Datum.required .setAside alternatives)

instance : Storable Question where
  toDatum
    | wh var predicate constraints => .record [("kind", .text "wh"), ("variable", toDatum var),
        ("predicate", toDatum predicate), ("constraints", toDatum constraints)]
    | yesNo predicate => .record [("kind", .text "yes_no"), ("predicate", toDatum predicate)]
    | alt predicate alternatives => .record [("kind", .text "alt"),
        ("predicate", toDatum predicate), ("alternatives", toDatum alternatives)]
  readDatum? mode :=
    Datum.tagged? mode "kind" [("wh", readWh?), ("yes_no", readYesNo?), ("alt", readAlt?)]

example : (alt "drink" ["tea", "coffee"]).wording = "?drink\x7btea|coffee\x7d" := by decide +kernel
example : splitOptions " a || b|" = ["a", "b"] := by decide +kernel

end Question
end Dialogue
