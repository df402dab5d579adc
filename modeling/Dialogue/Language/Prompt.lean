import Dialogue.Language.Templates

/-!
Generation through a completion server, which is to rephrase the template of a move. The client that
talks to the server is a parameter.
-/
namespace Dialogue

inductive Completion where
  | content (text : String)
  /-- The server answers that it has failed. -/
  | refused (status : String)
  /-- The prompt cannot be sent, or the answer cannot be read. -/
  | failed (reason : String)
  /-- No answer comes in time. -/
  | silent (cancelling : Bool)

abbrev CompletionClient := String → Completion

/-- A client whose server has no usable address: it fails before anything is sent. -/
def CompletionClient.unusable : CompletionClient := fun _ => .failed "builder error"

namespace Templates

def instruction : String :=
  "You are a concise dialogue assistant. Rephrase the given line naturally. Keep its meaning, " ++
    "its question if it has one, and every option it lists. Reply with one sentence."

def actName : MoveTag → String
  | .ask => "a question"
  | .answer => "an answer"
  | .assert => "a statement"
  | .request => "a suggestion"
  | .feedback => "a short feedback"
  | .greet => "a greeting"
  | .quit => "a farewell"

def prompt (t : Templates) (m : Move) : String :=
  "System: " ++ instruction ++ "\nUser: Rephrase " ++ actName m.tag ++ ": \"" ++ t.render m ++
    "\"\nAssistant:"

/-- The utterance for a move is what the server makes of the prompt, without the blanks around it.
Where nothing is left of that, the template itself is the utterance. -/
def rephrasingBy (client : CompletionClient) (t : Templates) : Generator := fun m _ =>
  match client (t.prompt m) with
  | .content text => .done (if Text.trim text = "" then t.render m else Text.trim text)
  | .refused status => .failed (.collaborator .generate ("LLM server error: " ++ status))
  | .failed reason => .failed (.collaborator .generate reason)
  | .silent cancelling => .silent cancelling

example : ({} : Templates).rephrasingBy (fun _ => .content " \n") (.greet .system) .fresh =
    .done "Hello." := rfl

def rephrasing : Templates → Generator := rephrasingBy .unusable

end Templates
end Dialogue
