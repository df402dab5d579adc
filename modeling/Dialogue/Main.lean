import Dialogue.Console.Run
import Dialogue.Store

/-!
The command line. Its argument names a domain file; the environment names a file of settings, the
directory for saved sessions, and a completion server. There is no transport to such a server here.
-/
open Dialogue Dialogue.Console

namespace Dialogue.Main

def readNamed (path : String) : IO NamedFile := do
  try
    return ⟨path, some (← IO.FS.readFile path)⟩
  catch _ => return ⟨path, none⟩

def randomId : IO Uuid := do
  let bytes ← IO.getRandomBytes 16
  return .ofRandom (.ofNat 128 (bytes.toList.foldl (fun n b => n * 256 + b.toNat) 0))

def launch (args : List String) : IO Launch := do
  return {
    domain := ← args.head?.mapM readNamed
    config := ← (← IO.getEnv "IBDM_CONFIG").mapM readNamed
    rephrase := (← IO.getEnv "IBDM_LLM_URL").isSome }

partial def converse (e : Engine) (s : Session) : IO Session := do
  if s.isFinished then return s
  let out ← IO.getStdout
  out.putStr prompt
  out.flush
  let line ← (← IO.getStdin).getLine
  match linesOf line with
  | [] => return s
  | line :: _ =>
    let (s, text, failed) := answer e s line
    out.putStr text
    if let some cause := failed then (← IO.getStderr).putStrLn (droppedLine cause)
    converse e s

def save (s : Session) : IO Unit := do
  let dir := (← IO.getEnv "IBDM_SESSION_DIR").getD "sessions"
  IO.FS.createDirAll dir
  IO.FS.writeFile (dir ++ "/" ++ Directory.fileName s.id) (Directory.fileText s.record)

end Dialogue.Main

open Dialogue.Main in
def main (args : List String) : IO UInt32 := do
  let started : Except Failure (Engine × Session × String) ← do
    let id ← randomId
    pure ((← launch args).engine >>= fun e => (opening e (.start e id)).map (e, ·))
  match started with
  | .error failure =>
    (← IO.getStderr).putStrLn failure.line
    return 1
  | .ok (e, s, text) =>
    (← IO.getStdout).putStr text
    save (← converse e s)
    return 0
