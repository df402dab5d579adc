import Dialogue.Domain.File

/-!
The domain of the console when no file is given: drafting a non-disclosure agreement, and small talk
about the weather.
-/
namespace Dialogue.Console

def demoQuestions : List QuestionEntry := [
  { topic := "party", kind := .wh, constraints := .ofList [("type", "text")],
    phrase := some "Who is the other party?" },
  { topic := "nda_type", kind := .alt, alternatives := ["mutual", "one-way"],
    phrase := some "Should the NDA be mutual or one-way?" },
  { topic := "duration", kind := .wh, constraints := .ofList [("type", "int")],
    phrase := some "How many years should it last?" },
  { topic := "governing_law", kind := .wh,
    constraints := .ofList [("one_of", "England and Wales|Scotland|New York|California")],
    phrase := some "Which law governs the agreement?" },
  { topic := "signed_copy", kind := .yesNo,
    phrase := some "Do you want a signed copy sent to you?" },
  { topic := "city", kind := .wh, constraints := .ofList [("type", "text")],
    phrase := some "Which city?" },
  { topic := "weather", kind := .wh }]

def demoTask : TaskEntry where
  id := "draft_nda"
  triggers := ["nda", "non-disclosure", "confidentiality agreement"]
  steps := [.findout "party", .findout "nda_type", .findout "duration", .findout "governing_law",
    .findout "signed_copy", .inform ⟨"nda_status", .text "drafted"⟩]

def demo : DomainFile where
  name := "nda"
  questions := demoQuestions
  tasks := [demoTask]
  dependencies := [⟨"weather", ["city"]⟩]
  beliefs := .ofList [("weather.london", .text "cloudy"), ("weather.edinburgh", .text "rainy"),
    ("weather.new york", .text "sunny")]

end Dialogue.Console
