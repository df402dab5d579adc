import Dialogue.Datum.Basic

/-!
What can go wrong, as causes, and the messages for them. Errors of collaborators and cancellation
give up the turn and keep the state from before it.
-/
namespace Dialogue

inductive Stage where
  | interpret
  | generate
  deriving DecidableEq

def Stage.name : Stage → String
  | interpret => "interpret"
  | generate => "generate"

instance : Storable Stage where
  toDatum s := .text s.name
  readDatum? := Datum.ofNames? [("interpret", .interpret), ("generate", .generate)]

inductive Error where
  /-- A question, a domain or a setting is malformed. -/
  | configuration (reason : String)
  /-- An utterance cannot be mapped to a move. -/
  | interpretation (reason : String)
  | collaborator (stage : Stage) (reason : String)
  | timeout (stage : Stage) (milliseconds : Nat)
  | cancelled
  /-- The user took a turn after the end of the dialogue. -/
  | dialogueEnded
  | unreadableFile
  | unreadableJson
  | unreadableToml
  deriving DecidableEq

namespace Error

def message : Error → String
  | configuration reason => "configuration error: " ++ reason
  | interpretation reason => "could not interpret utterance: " ++ reason
  | collaborator stage reason => stage.name ++ " collaborator failed: " ++ reason
  | timeout stage ms => stage.name ++ " collaborator timed out after " ++ toString ms ++ "ms"
  | cancelled => "turn cancelled"
  | dialogueEnded => "dialogue has already ended"
  | unreadableFile => "io error: the file cannot be read"
  | unreadableJson => "json error: the data cannot be read"
  | unreadableToml => "toml error: the data cannot be read"

/-- The error gives up a turn and keeps the state from before it. -/
def isRollback : Error → Bool
  | collaborator _ _ | timeout _ _ | cancelled => true
  | _ => false

def stage? : Error → Option Stage
  | collaborator stage _ | timeout stage _ => some stage
  | _ => none

end Error
end Dialogue
