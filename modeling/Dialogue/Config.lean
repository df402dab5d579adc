import Dialogue.Error
import Dialogue.Toml.Parser

/-!
The settings of the engine. Every setting has a default; only a file of settings is checked for its
limits.
-/
namespace Dialogue

structure Config where
  /-- Moves below this confidence are not integrated and lead to a clarification. -/
  threshold : Binary32 := ⟨0x3F000000⟩
  /-- How many cycles the system may run on its own after a turn of the user. -/
  maxSystemCycles : Nat := 6
  /-- How long a collaborator may take. -/
  timeoutMs : Nat := 2000
  /-- A dialogue opens with a greeting. -/
  greetOnStart : Bool := true
  deriving DecidableEq

namespace Config

def thresholdInRange (c : Config) : Bool :=
  Binary32.zero.le c.threshold && c.threshold.le .one

def validate (c : Config) : Except Error Unit :=
  if !c.thresholdInRange then
    throw (.configuration
      ("clarification_threshold must be within 0.0..=1.0, got " ++ c.threshold.messageText))
  else if c.timeoutMs = 0 then
    throw (.configuration "collaborator_timeout_ms must be positive")
  else pure ()

instance : Storable Config where
  toDatum c := .record [("clarification_threshold", toDatum c.threshold),
    ("max_system_cycles", toDatum c.maxSystemCycles),
    ("collaborator_timeout_ms", toDatum c.timeoutMs), ("greet_on_start", toDatum c.greetOnStart)]
  readDatum? mode d := do
    let [threshold, cycles, timeout, greet] ← Datum.someFields? ["clarification_threshold",
      "max_system_cycles", "collaborator_timeout_ms", "greet_on_start"] 0 d | none
    let c : Config := {}
    return ⟨← Datum.standard mode c.threshold threshold,
      ← Datum.standard mode c.maxSystemCycles cycles,
      ← Datum.standard mode c.timeoutMs timeout, ← Datum.standard mode c.greetOnStart greet⟩

def ofToml (text : String) : Except Error Config := do
  match Toml.parse? text >>= ofDatum? with
  | none => throw .unreadableToml
  | some (c : Config) =>
    c.validate
    return c

def load : Option String → Except Error Config
  | some text => ofToml text
  | none => throw .unreadableFile

end Config
end Dialogue
