import Dialogue.Console.Demo
import Dialogue.Language.Keywords
import Dialogue.Language.Prompt
import Dialogue.Session

/-!
The console: a session that reads utterances line by line and prints what the system says. What is
printed, and where, is computed here for each line.
-/
namespace Dialogue.Console

/-- A file named on the command line or in the environment, with its text if it can be read. -/
structure NamedFile where
  path : String
  text : Option String

structure Launch where
  domain : Option NamedFile := none
  config : Option NamedFile := none
  /-- A completion server is to rephrase what the system says. -/
  rephrase : Bool := false
  client : CompletionClient := .unusable

inductive Failure where
  | domain (path : String) (cause : Error)
  | demo (cause : Error)
  | config (path : String) (cause : Error)
  | opening (cause : Error)

def Failure.line : Failure → String
  | domain path _ => "Error: loading domain " ++ path
  | demo _ => "Error: loading built-in domain"
  | config path _ => "Error: loading config " ++ path
  | opening cause => "Error: " ++ cause.message

namespace Launch

def domain? (l : Launch) : Except Failure Domain :=
  match l.domain with
  | some f => (Domain.load f.text).mapError (.domain f.path)
  | none => (Domain.ofFile demo).mapError fun fault => .demo (.configuration fault.reason)

def config? (l : Launch) : Except Failure Config :=
  match l.config with
  | some f => (Config.load f.text).mapError (.config f.path)
  | none => pure {}

def engine (l : Launch) : Except Failure Engine := do
  let domain ← l.domain?
  let config ← l.config?
  let templates := Templates.ofDomain domain
  return {
    domain
    config
    interpreter := (Keywords.ofDomain domain).interpreter
    generator := if l.rephrase then templates.rephrasingBy l.client else templates.generator }

end Launch

def prompt : String := "> "

def spoken (text : String) : String := if text = "" then "" else text ++ "\n"

def droppedLine (e : Error) : String := "[turn dropped: " ++ e.message ++ "]"

def opening (e : Engine) (s : Session) : Except Failure (Session × String) :=
  match s.opening e with
  | (s, .ok x) => pure (s, spoken x.text)
  | (_, .error cause) => throw (.opening cause)

def answer (e : Engine) (s : Session) (line : String) : Session × String × Option Error :=
  match s.respond e line with
  | (s, .ok x) => (s, spoken x.text, none)
  | (s, .error cause) => (s, "", some cause)

structure Transcript where
  printed : String
  dropped : List String

def converse (e : Engine) (s : Session) (t : Transcript) (lines : List String) :
    Session × Transcript :=
  if s.isFinished then (s, t)
  else
    let t := { t with printed := t.printed ++ prompt }
    match lines with
    | [] => (s, t)
    | line :: rest =>
      let (s, text, failed) := answer e s line
      converse e s ⟨t.printed ++ text, t.dropped ++ (failed.map droppedLine).toList⟩ rest

def run (l : Launch) (id : Uuid) (lines : List String) : Transcript × Except Failure Session :=
  let started := do
    let e ← l.engine
    return (e, ← opening e (.start e id))
  match started with
  | .error failure => (⟨"", []⟩, .error failure)
  | .ok (e, s, text) =>
    let (s, t) := converse e s ⟨text, []⟩ lines
    (t, .ok s)

def withoutReturn (line : List Char) : List Char :=
  if line.getLast? = some '\r' then line.dropLast else line

/-- The lines of a text without their ends. Only where a line break follows, a carriage return
belongs to the end. -/
def linesOf (text : String) : List String :=
  let pieces := text.toList.splitOn '\n'
  let ended := pieces.dropLast.map withoutReturn
  let unended := (pieces.getLast?.toList).filter (· ≠ [])
  (ended ++ unended).map String.ofList

example : linesOf "a\r\n\nb\r" = ["a", "", "b\r"] := by decide +kernel

end Dialogue.Console
