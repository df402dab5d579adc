import Dialogue.Session

/-!
Stores of session records. Both keep texts, so that loading always goes through the stored form: one
keeps them in memory under their identifiers, the other in a directory with one file for each
session.
-/
namespace Dialogue

def SessionRecord.ofText (text : String) : Except Error SessionRecord :=
  match Json.parse? text >>= ofDatum? with
  | some r => pure r
  | none => throw .unreadableJson

structure MemoryStore where
  texts : OrderedMap Uuid String := ∅

namespace MemoryStore

def save (m : MemoryStore) (r : SessionRecord) : MemoryStore :=
  ⟨m.texts.insert r.id (Json.compact (toDatum r))⟩

def load (m : MemoryStore) (id : Uuid) : Except Error (Option SessionRecord) :=
  match m.texts.get? id with
  | some text => (SessionRecord.ofText text).map some
  | none => pure none

def list (m : MemoryStore) : List Uuid := m.texts.keys

end MemoryStore

/-- A directory with the texts of its files. A directory that was not made yet has none. -/
structure Directory where
  files : OrderedMap String String := ∅

namespace Directory

/-- Splits a file name before its last point. A name without a point, or with only one at its
front, has no extension. -/
def splitExtension (name : String) : List Char × Option (List Char) :=
  let s := name.toList.reverse
  let extension := s.takeWhile (· ≠ '.')
  match s.dropWhile (· ≠ '.') with
  | _ :: [] | [] => (name.toList, none)
  | _ :: stem => (stem.reverse, some extension.reverse)

def fileName (id : Uuid) : String := id.toText ++ ".json"

def fileText (r : SessionRecord) : String := Json.pretty (toDatum r)

/-- The session whose record a file holds by its name. -/
def sessionOf? (name : String) : Option Uuid :=
  match splitExtension name with
  | (stem, some extension) =>
    if extension = "json".toList then Uuid.parse? (.ofList stem) else none
  | _ => none

def isFileName (name : String) : Bool :=
  name ∉ ["", ".", ".."] && '/' ∉ name.toList && '\x00' ∉ name.toList && name.utf8ByteSize ≤ 255

def write (d : Directory) (name text : String) : Except Error Directory :=
  if isFileName name then pure ⟨d.files.insert name text⟩ else throw .unreadableFile

def save (d : Directory) (r : SessionRecord) : Directory :=
  ⟨d.files.insert (fileName r.id) (fileText r)⟩

def load (d : Directory) (id : Uuid) : Except Error (Option SessionRecord) :=
  match d.files.get? (fileName id) with
  | some text => (SessionRecord.ofText text).map some
  | none => pure none

def list (d : Directory) : List Uuid :=
  (d.files.keys.filterMap sessionOf?).mergeSort fun a b => (compare a b).isLE

example : splitExtension "a.b.json" = ("a.b".toList, some "json".toList) := by decide +kernel

end Directory
end Dialogue
