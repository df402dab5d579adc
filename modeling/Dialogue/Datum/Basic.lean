import Dialogue.Binary32
import Dialogue.Ordered.Map
import Dialogue.Ordered.Set

/-!
Data trees, the common ground of the text formats: what a parser makes of a file, what a printer
writes, and what every persistent type is stored as. A type is stored through `Storable`; the
readers below say how records, tagged alternatives and named constants are recognised in a tree.
-/
namespace Dialogue

/-- A data tree. The fields of a record keep the order in which they were written, and a name may
occur twice. -/
inductive Datum where
  | null
  | bool (b : Bool)
  | int (n : Int)
  | real (x : Binary32)
  | text (s : String)
  | list (items : List Datum)
  | record (fields : List (String × Datum))
  /-- Well-formed writing without a value, such as a number out of range. It does no harm where
  nobody looks at it. -/
  | meaningless

/-- How a tree is read. The content of an alternative cannot be read before its tag is known. Where
the tag may come late, the content is set aside first, and then read more freely: alternatives may
be given by their index, and constants as records with an empty record in them. -/
inductive Reading where
  | direct
  | setAside
  deriving DecidableEq

namespace Datum

mutual

/-- Every part of the tree has a value. Only such trees can be set aside. -/
def isMeaningful : Datum → Bool
  | .list items => areMeaningful items
  | .record fields => fieldsAreMeaningful fields
  | .meaningless => false
  | _ => true

def areMeaningful : List Datum → Bool
  | [] => true
  | d :: rest => d.isMeaningful && areMeaningful rest

def fieldsAreMeaningful : List (String × Datum) → Bool
  | [] => true
  | (_, d) :: rest => d.isMeaningful && fieldsAreMeaningful rest

end

/-- The value of the field with this name: `none` if it occurs twice, `some none` if it is
absent. -/
def field? (fields : List (String × Datum)) (name : String) : Option (Option Datum) :=
  match fields.filter fun f => f.1 == name with
  | [] => some none
  | [f] => some (some f.2)
  | _ => none

/-- The fields of a record of which a list by position may leave out all but the first `least`. -/
def someFields? (names : List String) (least : Nat) : Datum → Option (List (Option Datum))
  | .record fields => names.mapM (field? fields)
  | .list items =>
    if least ≤ items.length ∧ items.length ≤ names.length then
      some (items.map some ++ List.replicate (names.length - items.length) none)
    else none
  | _ => none

/-- The named fields of a record in the order of `names`. Other fields are passed over. A record may
also be given as the list of its fields, all of them and in this order. -/
def fields? (names : List String) : Datum → Option (List (Option Datum)) :=
  someFields? names names.length

def named? {α : Type} (table : List (String × α)) (name : String) : Option α :=
  (table.find? fun e => e.1 == name).map (·.2)

/-- What a table says of the alternative with this tag. The entries are in the order of indices. -/
def tag? {α : Type} (mode : Reading) (table : List (String × α)) : Datum → Option α
  | .text name => named? table name
  | .int i => if mode = .setAside ∧ 0 ≤ i then table[i.toNat]?.map (·.2) else none
  | _ => none

/-- The tag of an alternative, which is one of its fields or the front of a list, and the rest. -/
def splitTag? (field : String) : Datum → Option (Datum × Datum)
  | .record fields => do
    let some tag ← field? fields field | none
    return (tag, .record (fields.filter fun f => f.1 != field))
  | .list (tag :: items) => some (tag, .list items)
  | _ => none

/-- Reads an alternative whose tag stands among its own fields, by the table of readers for the
other fields, which have been set aside. -/
def tagged? {α : Type} (mode : Reading) (field : String)
    (readers : List (String × (Datum → Option α))) (d : Datum) : Option α := do
  let (tag, content) ← splitTag? field d
  let read ← tag? mode readers tag
  if content.isMeaningful then read content else none

/-- Splits a record with a single field, which names an alternative, into name and content. -/
def single? : Datum → Option (String × Datum)
  | .record [(name, content)] => some (name, content)
  | _ => none

/-- The name of a constant: a text, or a record with that one field and nothing in it. -/
def constant? (mode : Reading) : Datum → Option String
  | .text name => some name
  | .record [(name, .null)] => some name
  | .record [(name, .record [])] => if mode = .setAside then some name else none
  | _ => none

end Datum

/-- A type that is stored as a data tree. -/
class Storable (α : Type) where
  toDatum : α → Datum
  readDatum? : Reading → Datum → Option α

export Storable (toDatum readDatum?)

def ofDatum? {α : Type} [Storable α] : Datum → Option α := readDatum? .direct

namespace Datum

def required {α : Type} [Storable α] (mode : Reading) (field : Option Datum) : Option α :=
  field >>= readDatum? mode

def ofNames? {α : Type} (names : List (String × α)) (mode : Reading) (d : Datum) : Option α := do
  constant? mode d >>= named? names

example : tag? .setAside [("wh", 'w'), ("alt", 'a')] (.int 1) = some 'a' := by decide +kernel
example : tag? .direct [("wh", 'w'), ("alt", 'a')] (.int 1) = none := by decide +kernel

end Datum

instance : Storable Bool where
  toDatum := .bool
  readDatum? | _, .bool b => some b | _, _ => none

instance : Storable String where
  toDatum := .text
  readDatum? | _, .text s => some s | _, _ => none

instance : Storable Nat where
  toDatum n := .int n
  readDatum? | _, .int n => if 0 ≤ n then some n.toNat else none | _, _ => none

instance : Storable Int64 where
  toDatum n := .int n.toInt
  readDatum?
    | _, .int n =>
      if Int64.minValue.toInt ≤ n ∧ n ≤ Int64.maxValue.toInt then some (.ofInt n) else none
    | _, _ => none

/-- Numbers that are not finite have no stored form; nothing is stored in their place. -/
instance : Storable Binary32 where
  toDatum x := if x.isFinite then .real x else .null
  readDatum? | _, .real x => some x | _, .int n => some (.ofInt n) | _, _ => none

instance {α : Type} [Storable α] : Storable (List α) where
  toDatum items := .list (items.map toDatum)
  readDatum? | mode, .list items => items.mapM (readDatum? mode) | _, _ => none

instance {α : Type} [Storable α] : Storable (Option α) where
  toDatum | some a => toDatum a | none => .null
  readDatum? | _, .null => some none | mode, d => (readDatum? mode d).map some

def Datum.optional {α : Type} [Storable α] (mode : Reading) : Option Datum → Option (Option α)
  | none => some none
  | some d => readDatum? mode d

/-- Reads a field that stands for a standard value where it is missing. -/
def Datum.standard {α : Type} [Storable α] (mode : Reading) (a : α) : Option Datum → Option α
  | none => some a
  | some d => readDatum? mode d

instance {α : Type} [Storable α] : Storable (OrderedMap String α) where
  toDatum m := .record (m.entries.map fun e => (e.1, toDatum e.2))
  readDatum?
    | mode, .record fields =>
      (fields.mapM fun f => (readDatum? mode f.2).map (f.1, ·)).map .ofList
    | _, _ => none

instance {α : Type} [Ord α] [Std.TransOrd α] [Std.LawfulEqOrd α] [Storable α] :
    Storable (OrderedSet α) where
  toDatum s := toDatum s.toList
  readDatum? mode d := (readDatum? mode d).map .ofList

end Dialogue
