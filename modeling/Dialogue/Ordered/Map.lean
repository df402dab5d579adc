/-!
Maps as lists of entries in strictly ascending key order. Two maps with the same entries are equal,
and listing a map never depends on how it was filled.
-/
namespace Dialogue

/-- A finite map whose entries stand in ascending order of their keys, each key once. -/
structure OrderedMap (κ α : Type) [Ord κ] where
  entries : List (κ × α)
  ascending : entries.Pairwise fun a b => compare a.1 b.1 = .lt

namespace OrderedMap

def insertEntry {κ α : Type} [Ord κ] (k : κ) (v : α) : List (κ × α) → List (κ × α)
  | [] => [(k, v)]
  | e :: rest =>
    match compare k e.1 with
    | .lt => (k, v) :: e :: rest
    | .eq => (k, v) :: rest
    | .gt => e :: insertEntry k v rest

theorem mem_insertEntry {κ α : Type} [Ord κ] {k : κ} {v : α} {entries : List (κ × α)}
    {e : κ × α} (h : e ∈ insertEntry k v entries) : e = (k, v) ∨ e ∈ entries := by
  induction entries with
  | nil => simpa [insertEntry] using h
  | cons first rest ih =>
    simp only [insertEntry] at h
    split at h
    · simpa using h
    · rcases List.mem_cons.mp h with h | h
      · exact .inl h
      · exact .inr (List.mem_cons_of_mem _ h)
    · rcases List.mem_cons.mp h with h | h
      · exact .inr (h ▸ List.mem_cons_self)
      · exact (ih h).imp id (List.mem_cons_of_mem _)

theorem insertEntry_ascending {κ α : Type} [Ord κ] [Std.TransOrd κ] [Std.LawfulEqOrd κ] (k : κ)
    (v : α) {entries : List (κ × α)}
    (ascending : entries.Pairwise fun a b => compare a.1 b.1 = .lt) :
    (insertEntry k v entries).Pairwise fun a b => compare a.1 b.1 = .lt := by
  induction entries with
  | nil => simp [insertEntry]
  | cons first rest ih =>
    obtain ⟨below, tail⟩ := List.pairwise_cons.mp ascending
    simp only [insertEntry]
    split
    · rename_i lt
      refine List.pairwise_cons.mpr ⟨fun e he => ?_, ascending⟩
      rcases List.mem_cons.mp he with rfl | he
      · exact lt
      · exact Std.TransCmp.lt_trans lt (below e he)
    · rename_i eq
      refine List.pairwise_cons.mpr ⟨fun e he => ?_, tail⟩
      rw [Std.LawfulEqCmp.eq_of_compare eq]
      exact below e he
    · rename_i gt
      refine List.pairwise_cons.mpr ⟨fun e he => ?_, ih tail⟩
      rcases mem_insertEntry he with rfl | he
      · exact Std.OrientedCmp.lt_of_gt gt
      · exact below e he

variable {κ α : Type} [Ord κ]

def empty : OrderedMap κ α := ⟨[], .nil⟩

instance : EmptyCollection (OrderedMap κ α) := ⟨empty⟩
instance : Inhabited (OrderedMap κ α) := ⟨empty⟩

instance [DecidableEq κ] [DecidableEq α] : DecidableEq (OrderedMap κ α) := fun a b =>
  decidable_of_iff (a.entries = b.entries) ⟨fun h => by cases a; cases b; simp_all, congrArg _⟩

def insert [Std.TransOrd κ] [Std.LawfulEqOrd κ] (m : OrderedMap κ α) (k : κ) (v : α) :
    OrderedMap κ α :=
  ⟨insertEntry k v m.entries, insertEntry_ascending k v m.ascending⟩

/-- The map of the pairs; of two with the same key the later counts. -/
def ofList [Std.TransOrd κ] [Std.LawfulEqOrd κ] (pairs : List (κ × α)) : OrderedMap κ α :=
  pairs.foldl (fun m e => m.insert e.1 e.2) empty

def get? [DecidableEq κ] (m : OrderedMap κ α) (k : κ) : Option α :=
  (m.entries.find? fun e => e.1 = k).map (·.2)

def contains [DecidableEq κ] (m : OrderedMap κ α) (k : κ) : Bool := (m.get? k).isSome

def keys (m : OrderedMap κ α) : List κ := m.entries.map (·.1)

def values (m : OrderedMap κ α) : List α := m.entries.map (·.2)

@[simp] theorem entries_empty : (empty : OrderedMap κ α).entries = [] := rfl

@[ext] theorem ext {a b : OrderedMap κ α} (h : a.entries = b.entries) : a = b := by
  cases a; cases b; simp_all

/-- An entry whose key comes after all others is put last. -/
theorem insertEntry_last [Std.OrientedOrd κ] {k : κ} {v : α} {entries : List (κ × α)}
    (last : ∀ e ∈ entries, compare e.1 k = .lt) :
    insertEntry k v entries = entries ++ [(k, v)] := by
  induction entries with
  | nil => rfl
  | cons first rest ih =>
    obtain ⟨below, others⟩ := List.forall_mem_cons.mp last
    simp [insertEntry, Std.OrientedCmp.gt_of_lt below, ih others]

/-- A map is filled again from its entries. -/
theorem ofList_entries [Std.TransOrd κ] [Std.LawfulEqOrd κ] (m : OrderedMap κ α) :
    ofList m.entries = m := by
  have fill (rest : List (κ × α)) (part : OrderedMap κ α)
      (ascending : (part.entries ++ rest).Pairwise fun a b => compare a.1 b.1 = .lt) :
      (rest.foldl (fun m e => m.insert e.1 e.2) part).entries = part.entries ++ rest := by
    induction rest generalizing part with
    | nil => simp
    | cons e rest ih =>
      have last : ∀ x ∈ part.entries, compare x.1 e.1 = .lt := fun x member =>
        (List.pairwise_append.mp ascending).2.2 x member e List.mem_cons_self
      have next : (part.insert e.1 e.2).entries = part.entries ++ [e] := insertEntry_last last
      simpa [next] using ih (part.insert e.1 e.2) (by simpa [next] using ascending)
  exact ext (by simpa [ofList] using fill m.entries empty (by simpa using m.ascending))

/-- A key that was just bound is found. -/
@[simp] theorem get?_insert_self [DecidableEq κ] [Std.TransOrd κ] [Std.LawfulEqOrd κ]
    (m : OrderedMap κ α) (k : κ) (v : α) : (m.insert k v).get? k = some v := by
  have found (entries : List (κ × α)) :
      (insertEntry k v entries).find? (fun e => decide (e.1 = k)) = some (k, v) := by
    induction entries with
    | nil => simp [insertEntry]
    | cons first rest ih =>
      simp only [insertEntry]
      split
      · simp
      · simp
      · rename_i gt
        have other : first.1 ≠ k := by
          rintro rfl
          simp at gt
        simp [other, ih]
  simp [get?, insert, found]

/-- Binding a key leaves the others as they are. -/
theorem get?_insert_of_ne [DecidableEq κ] [Std.TransOrd κ] [Std.LawfulEqOrd κ]
    (m : OrderedMap κ α) {k other : κ} (v : α) (ne : other ≠ k) :
    (m.insert k v).get? other = m.get? other := by
  have passes (entries : List (κ × α)) :
      (insertEntry k v entries).find? (fun e => decide (e.1 = other)) =
        entries.find? (fun e => decide (e.1 = other)) := by
    induction entries with
    | nil => simp [insertEntry, ne.symm]
    | cons first rest ih =>
      simp only [insertEntry]
      split
      · simp [ne.symm]
      · rename_i eq
        have same : first.1 = k := (Std.LawfulEqCmp.eq_of_compare eq).symm
        simp [same, ne.symm]
      · simp [List.find?_cons, ih]
  simp only [get?, insert, passes]

theorem mem_keys_iff [DecidableEq κ] (m : OrderedMap κ α) (k : κ) :
    k ∈ m.keys ↔ (m.get? k).isSome = true := by
  simp [keys, get?]

theorem keys_ascending (m : OrderedMap κ α) : m.keys.Pairwise fun a b => compare a b = .lt :=
  List.pairwise_map.mpr m.ascending

end OrderedMap
end Dialogue
