import Dialogue.Datum.Basic

/-!
Tables under construction. A document opens tables by headers and fills them by keys, and both may
create tables on the way. How a table came about decides what may still be added to it: a header
opens a table once, and dotted keys extend only tables that dotted keys created.
-/
namespace Dialogue.Toml

/-- How a table came about: by a header of its own, as a step on the way to another header, or as a
step on the way to a dotted key. -/
inductive Origin where
  | header
  | passed
  | dotted
  deriving DecidableEq

/-- What a key of a table is bound to: a value, a table, or a list of tables opened by headers of
their own, of which the last is the one that can be added to. -/
inductive Node where
  | value (d : Datum)
  | table (origin : Origin) (entries : List (String × Node))
  | tables (closed : List (List (String × Node))) (last : List (String × Node))

namespace Node

def replace (key : String) (node : Node) (entries : List (String × Node)) : List (String × Node) :=
  entries.map fun e => if e.1 = key then (key, node) else e

/-- Changes the table at the end of a path. Tables that are missing on the path are created with the
given origin; on the way to a dotted key, tables with a header are not entered. -/
def change (created : Origin) (f : Origin → List (String × Node) → Option (List (String × Node))) :
    List String → Origin → List (String × Node) → Option (List (String × Node))
  | [], origin, entries => f origin entries
  | key :: path, _, entries =>
    match entries.find? fun e => e.1 = key with
    | none => do
      let inner ← change created f path created []
      return entries ++ [(key, .table created inner)]
    | some (_, .value _) => none
    | some (_, .table origin inner) => do
      if created = .dotted ∧ origin = .header then none
      let inner ← change created f path origin inner
      return replace key (.table origin inner) entries
    | some (_, .tables closed last) => do
      let last ← change created f path .header last
      return replace key (.tables closed last) entries

def bindNew (key : String) (node : Node) (entries : List (String × Node)) :
    Option (List (String × Node)) :=
  if entries.any fun e => e.1 = key then none else some (entries ++ [(key, node)])

def addValue (key : List String) (d : Datum) (entries : List (String × Node)) :
    Option (List (String × Node)) := do
  let name ← key.getLast?
  change .dotted (fun origin inner =>
    if origin = .dotted ∨ key.length = 1 then bindNew name (.value d) inner else none)
    key.dropLast .header entries

def openTable (path : List String) (entries : List (String × Node)) :
    Option (List (String × Node)) := do
  let name ← path.getLast?
  change .passed (fun _ inner =>
    match inner.find? fun e => e.1 = name with
    | none => some (inner ++ [(name, .table .header [])])
    | some (_, .table .passed kept) => some (replace name (.table .header kept) inner)
    | some _ => none)
    path.dropLast .header entries

def openElement (path : List String) (entries : List (String × Node)) :
    Option (List (String × Node)) := do
  let name ← path.getLast?
  change .passed (fun _ inner =>
    match inner.find? fun e => e.1 = name with
    | none => some (inner ++ [(name, .tables [] [])])
    | some (_, .tables closed last) => some (replace name (.tables (closed ++ [last]) []) inner)
    | some _ => none)
    path.dropLast .header entries

mutual

def toDatum : Node → Datum
  | .value d => d
  | .table _ entries => .record (entriesToDatum entries)
  | .tables closed last => .list (tablesToDatum closed ++ [.record (entriesToDatum last)])

def entriesToDatum : List (String × Node) → List (String × Datum)
  | [] => []
  | (key, node) :: rest => (key, toDatum node) :: entriesToDatum rest

def tablesToDatum : List (List (String × Node)) → List Datum
  | [] => []
  | entries :: rest => .record (entriesToDatum entries) :: tablesToDatum rest

end

end Node
end Dialogue.Toml
