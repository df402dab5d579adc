import Mathlib.Data.List.Nodup
import Dialogue.Datum.Basic

/-!
Laws of storing. A value is kept if it is read back from its tree, and the tree has the shape that a
text can carry: no part without a value, numbers of a certain kind only, and lists and records
nested up to a certain depth.
-/
namespace Dialogue

structure Numbers where
  ints : Int → Prop
  reals : Binary32 → Prop

namespace Datum

/-- Trees whose parts all have a value and whose numbers are admitted, with lists and records nested
no more than `n` deep. -/
inductive Fits (numbers : Numbers) : Nat → Datum → Prop
  | null {n : Nat} : Fits numbers n .null
  | bool {n : Nat} {b : Bool} : Fits numbers n (.bool b)
  | int {n : Nat} {i : Int} (admitted : numbers.ints i) : Fits numbers n (.int i)
  | real {n : Nat} {x : Binary32} (admitted : numbers.reals x) : Fits numbers n (.real x)
  | text {n : Nat} {s : String} : Fits numbers n (.text s)
  | list {n : Nat} {items : List Datum} (fit : ∀ d ∈ items, Fits numbers n d) :
      Fits numbers (n + 1) (.list items)
  | record {n : Nat} {fields : List (String × Datum)} (fit : ∀ f ∈ fields, Fits numbers n f.2) :
      Fits numbers (n + 1) (.record fields)

variable {numbers : Numbers} {n : Nat} {d : Datum} {items : List Datum}
  {fields : List (String × Datum)} {name : String} {mode : Reading} {α : Type}

@[simp] theorem fits_list :
    Fits numbers (n + 1) (.list items) ↔ ∀ d ∈ items, Fits numbers n d :=
  ⟨fun h => by cases h; assumption, .list⟩

@[simp] theorem fits_record :
    Fits numbers (n + 1) (.record fields) ↔ ∀ f ∈ fields, Fits numbers n f.2 :=
  ⟨fun h => by cases h; assumption, .record⟩

theorem areMeaningful_eq_true :
    areMeaningful items = true ↔ ∀ d ∈ items, d.isMeaningful = true := by
  induction items with
  | nil => simp [areMeaningful]
  | cons d rest ih => simp [areMeaningful, ih]

theorem fieldsAreMeaningful_eq_true :
    fieldsAreMeaningful fields = true ↔ ∀ f ∈ fields, f.2.isMeaningful = true := by
  induction fields with
  | nil => simp [fieldsAreMeaningful]
  | cons f rest ih => simp [fieldsAreMeaningful, ih]

theorem Fits.isMeaningful (h : Fits numbers n d) : d.isMeaningful = true := by
  induction h with
  | list _ ih => exact areMeaningful_eq_true.mpr ih
  | record _ ih => exact fieldsAreMeaningful_eq_true.mpr ih
  | _ => rfl

/-! Records as they are written: every name once. -/

theorem field?_cons_self (absent : ∀ f ∈ fields, f.1 ≠ name) :
    field? ((name, d) :: fields) name = some (some d) := by
  have none : (fields.filter fun f => f.1 == name) = [] := by simpa using absent
  simp [field?, none]

theorem field?_cons_of_ne {first : String × Datum} (other : first.1 ≠ name) :
    field? (first :: fields) name = field? fields name := by
  simp [field?, other]

theorem field?_of_mem (distinct : (fields.map Prod.fst).Nodup) (member : (name, d) ∈ fields) :
    field? fields name = some (some d) := by
  induction fields with
  | nil => contradiction
  | cons first fields ih =>
    obtain ⟨fresh, distinct⟩ := List.nodup_cons.mp distinct
    rcases List.mem_cons.mp member with rfl | member
    · exact field?_cons_self fun f among same => fresh (List.mem_map.mpr ⟨f, among, same⟩)
    · have other : first.1 ≠ name := fun same =>
        fresh (List.mem_map.mpr ⟨(name, d), member, same.symm⟩)
      rw [field?_cons_of_ne other, ih distinct member]

theorem mapM_field? {names : List String} {values : List Datum}
    (matching : names.length = values.length)
    (found : ∀ f ∈ names.zip values, field? fields f.1 = some (some f.2)) :
    names.mapM (field? fields) = some (values.map some) := by
  induction names generalizing values with
  | nil => simp [List.length_eq_zero_iff.mp matching.symm]
  | cons name names ih =>
    obtain ⟨d, values, rfl⟩ := List.exists_cons_of_length_eq_add_one matching.symm
    obtain ⟨first, others⟩ := List.forall_mem_cons.mp found
    simp [first, ih (by simpa using matching) others]

/-- The fields of a record are found in the order in which they were written. -/
theorem someFields?_zip (names : List String) (values : List Datum) (distinct : names.Nodup)
    (matching : names.length = values.length) (least : Nat) :
    someFields? names least (.record (names.zip values)) = some (values.map some) := by
  have unique : ((names.zip values).map Prod.fst).Nodup := by
    rwa [List.map_fst_zip (by omega)]
  exact mapM_field? matching fun f member => field?_of_mem unique member

/-- An alternative is read by the reader that its tag names. -/
theorem tagged?_record {field tag : String} {readers : List (String × (Datum → Option α))}
    {read : Datum → Option α} (absent : ∀ f ∈ fields, f.1 ≠ field)
    (meaningful : (Datum.record fields).isMeaningful = true)
    (reader : named? readers tag = some read) :
    tagged? mode field readers (.record ((field, .text tag) :: fields)) =
      read (.record fields) := by
  have rest : (fields.filter fun f => f.1 != field) = fields := by simpa using absent
  simp [tagged?, splitTag?, field?_cons_self absent, rest, tag?, reader, meaningful]

end Datum

/-- A value is read back from its tree, whether it has been set aside or not, and the tree fits. -/
structure Kept {α : Type} [Storable α] (numbers : Numbers) (n : Nat) (a : α) : Prop where
  read : ∀ mode, readDatum? mode (toDatum a) = some a
  fits : (toDatum a).Fits numbers n

namespace Kept

variable {numbers : Numbers} {n : Nat} {mode : Reading} {α : Type} [Storable α] {a : α}

theorem required (h : Kept numbers n a) : Datum.required mode (some (toDatum a)) = some a :=
  h.read mode

theorem optional {a : Option α} (h : Kept numbers n a) :
    Datum.optional mode (some (toDatum a)) = some a :=
  h.read mode

theorem standard {other : α} (h : Kept numbers n a) :
    Datum.standard mode other (some (toDatum a)) = some a :=
  h.read mode

/-- What is stored as a record is kept if its fields fit and it is read from what they hold. -/
theorem of_record (names : List String) (values : List Datum) (distinct : names.Nodup)
    (matching : names.length = values.length) (written : toDatum a = .record (names.zip values))
    (fit : ∀ d ∈ values, d.Fits numbers n)
    (reads : ∀ mode d, (∀ least, Datum.someFields? names least d = some (values.map some)) →
      readDatum? mode d = some a) : Kept numbers (n + 1) a where
  read mode := by
    rw [written]
    exact reads mode _ (Datum.someFields?_zip names values distinct matching)
  fits := by
    rw [written]
    exact .record fun f member => fit f.2 (List.of_mem_zip member).2

/-- What is stored as an alternative with its tag among its fields is kept if the fields fit and the
reader for the tag reads it from what they hold. -/
theorem of_tagged (names : List String) (values : List Datum) {field tag : String}
    {readers : List (String × (Datum → Option α))} {read : Datum → Option α}
    (tagged : ∀ mode, readDatum? mode = Datum.tagged? mode field readers)
    (reader : Datum.named? readers tag = some read)
    (distinct : (field :: names).Nodup) (matching : names.length = values.length)
    (written : toDatum a = .record ((field, .text tag) :: names.zip values))
    (fit : ∀ d ∈ values, d.Fits numbers n)
    (reads : ∀ d, (∀ least, Datum.someFields? names least d = some (values.map some)) →
      read d = some a) : Kept numbers (n + 1) a := by
  obtain ⟨absent, distinct⟩ := List.nodup_cons.mp distinct
  have fields : ∀ f ∈ names.zip values, f.2.Fits numbers n := fun f member =>
    fit f.2 (List.of_mem_zip member).2
  refine ⟨fun mode => ?_, ?_⟩
  · have others : ∀ f ∈ names.zip values, f.1 ≠ field := fun f member same =>
      absent (same ▸ (List.of_mem_zip member).1)
    rw [tagged, written,
      Datum.tagged?_record others (Datum.Fits.record fields).isMeaningful reader]
    exact reads _ (Datum.someFields?_zip names values distinct matching)
  · rw [written]
    exact .record (List.forall_mem_cons.mpr ⟨.text, fields⟩)

end Kept

section

variable {numbers : Numbers} {n : Nat} {α : Type} [Storable α]

theorem kept_bool (b : Bool) : Kept numbers n b := ⟨fun _ => rfl, .bool⟩

theorem kept_string (s : String) : Kept numbers n s := ⟨fun _ => rfl, .text⟩

theorem kept_nat {k : Nat} (admitted : numbers.ints k) : Kept numbers n k :=
  ⟨fun _ => by simp [readDatum?, toDatum], .int admitted⟩

theorem kept_int64 {i : Int64} (admitted : numbers.ints i.toInt) : Kept numbers n i where
  read _ := by
    have bounds : Int64.minValue.toInt ≤ i.toInt ∧ i.toInt ≤ Int64.maxValue.toInt :=
      ⟨i.minValue_le_toInt, i.toInt_le⟩
    simp only [readDatum?, toDatum, if_pos bounds, Int64.ofInt_toInt]
  fits := .int admitted

theorem kept_binary32 {x : Binary32} (finite : x.isFinite = true) (admitted : numbers.reals x) :
    Kept numbers n x where
  read _ := by simp [readDatum?, toDatum, finite]
  fits := by simpa [toDatum, finite] using Datum.Fits.real admitted

theorem mapM_toDatum {mode : Reading} {items : List α} (h : ∀ a ∈ items, Kept numbers n a) :
    (items.map toDatum).mapM (readDatum? mode) = some items := by
  induction items with
  | nil => rfl
  | cons a items ih =>
    obtain ⟨first, others⟩ := List.forall_mem_cons.mp h
    simp [first.read, ih others]

theorem kept_list {items : List α} (h : ∀ a ∈ items, Kept numbers n a) :
    Kept numbers (n + 1) items where
  read _ := mapM_toDatum h
  fits := .list fun d member => by
    obtain ⟨a, among, rfl⟩ := List.mem_map.mp member
    exact (h a among).fits

/-- Nothing is stored as null, so what there is must not be. -/
theorem kept_option {a : Option α} (h : ∀ b, a = some b → Kept numbers n b)
    (present : ∀ b : α, toDatum b ≠ .null) : Kept numbers n a := by
  cases a with
  | none => exact ⟨fun _ => rfl, .null⟩
  | some b =>
    have kept := h b rfl
    refine ⟨fun mode => ?_, kept.fits⟩
    have read := kept.read mode
    simp only [readDatum?, toDatum] at read ⊢
    split
    · rename_i null
      exact absurd null (present b)
    · simp only [read, Option.map_some]

theorem kept_map {m : OrderedMap String α} (h : ∀ e ∈ m.entries, Kept numbers n e.2) :
    Kept numbers (n + 1) m where
  read mode := by
    have entries (es : List (String × α)) (kept : ∀ e ∈ es, Kept numbers n e.2) :
        ((es.map fun e => (e.1, toDatum e.2)).mapM fun f =>
          (readDatum? mode f.2).map (f.1, ·)) = some es := by
      induction es with
      | nil => rfl
      | cons e es ih =>
        obtain ⟨first, others⟩ := List.forall_mem_cons.mp kept
        simp [first.read, ih others]
    simp [readDatum?, toDatum, entries m.entries h, OrderedMap.ofList_entries]
  fits := .record fun f member => by
    obtain ⟨e, among, rfl⟩ := List.mem_map.mp member
    exact (h e among).fits

theorem kept_set [Ord α] [Std.TransOrd α] [Std.LawfulEqOrd α] {s : OrderedSet α}
    (h : ∀ a ∈ s, Kept numbers n a) : Kept numbers (n + 1) s where
  read mode := by
    have elements : readDatum? mode (toDatum s.toList) = some s.toList := (kept_list h).read mode
    simp only [readDatum?, toDatum] at elements ⊢
    simp [elements, OrderedSet.ofList_toList]
  fits := (kept_list h).fits

end
end Dialogue
