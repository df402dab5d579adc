/-!
Sets as lists in strictly ascending order. Two sets with the same elements are equal.
-/
namespace Dialogue

structure OrderedSet (α : Type) [Ord α] where
  toList : List α
  ascending : toList.Pairwise fun a b => compare a b = .lt

namespace OrderedSet

def insertSorted {α : Type} [Ord α] (a : α) : List α → List α
  | [] => [a]
  | b :: rest =>
    match compare a b with
    | .lt => a :: b :: rest
    | .eq => a :: rest
    | .gt => b :: insertSorted a rest

theorem mem_insertSorted {α : Type} [Ord α] [Std.LawfulEqOrd α] {a b : α} {elements : List α} :
    b ∈ insertSorted a elements ↔ b = a ∨ b ∈ elements := by
  induction elements with
  | nil => simp [insertSorted]
  | cons first rest ih =>
    simp only [insertSorted]
    split
    · simp
    · rename_i eq
      have same := Std.LawfulEqCmp.eq_of_compare eq
      subst same
      simp
    · simp only [List.mem_cons, ih]
      constructor
      · rintro (h | h | h) <;> simp [h]
      · rintro (h | h | h) <;> simp [h]

theorem insertSorted_ascending {α : Type} [Ord α] [Std.TransOrd α] [Std.LawfulEqOrd α] (a : α)
    {elements : List α} (ascending : elements.Pairwise fun a b => compare a b = .lt) :
    (insertSorted a elements).Pairwise fun a b => compare a b = .lt := by
  induction elements with
  | nil => simp [insertSorted]
  | cons first rest ih =>
    obtain ⟨below, tail⟩ := List.pairwise_cons.mp ascending
    simp only [insertSorted]
    split
    · rename_i lt
      refine List.pairwise_cons.mpr ⟨fun b hb => ?_, ascending⟩
      rcases List.mem_cons.mp hb with rfl | hb
      · exact lt
      · exact Std.TransCmp.lt_trans lt (below b hb)
    · rename_i eq
      refine List.pairwise_cons.mpr ⟨fun b hb => ?_, tail⟩
      rw [Std.LawfulEqCmp.eq_of_compare eq]
      exact below b hb
    · rename_i gt
      refine List.pairwise_cons.mpr ⟨fun b hb => ?_, ih tail⟩
      rcases mem_insertSorted.mp hb with rfl | hb
      · exact Std.OrientedCmp.lt_of_gt gt
      · exact below b hb

theorem insertSorted_of_mem {α : Type} [Ord α] [Std.TransOrd α] [Std.LawfulEqOrd α] {a : α}
    {elements : List α} (ascending : elements.Pairwise fun a b => compare a b = .lt)
    (member : a ∈ elements) : insertSorted a elements = elements := by
  induction elements with
  | nil => contradiction
  | cons first rest ih =>
    obtain ⟨below, tail⟩ := List.pairwise_cons.mp ascending
    rcases List.mem_cons.mp member with rfl | member
    · simp [insertSorted, Std.ReflCmp.compare_self]
    · have above : compare a first = .gt := Std.OrientedCmp.gt_of_lt (below a member)
      simp [insertSorted, above, ih tail member]

variable {α : Type} [Ord α]

def empty : OrderedSet α := ⟨[], .nil⟩

instance : EmptyCollection (OrderedSet α) := ⟨empty⟩
instance : Inhabited (OrderedSet α) := ⟨empty⟩

instance [DecidableEq α] : DecidableEq (OrderedSet α) := fun a b =>
  decidable_of_iff (a.toList = b.toList) ⟨fun h => by cases a; cases b; simp_all, congrArg _⟩

def insert [Std.TransOrd α] [Std.LawfulEqOrd α] (s : OrderedSet α) (a : α) : OrderedSet α :=
  ⟨insertSorted a s.toList, insertSorted_ascending a s.ascending⟩

def ofList [Std.TransOrd α] [Std.LawfulEqOrd α] (elements : List α) : OrderedSet α :=
  elements.foldl insert empty

instance : Membership α (OrderedSet α) := ⟨fun s a => a ∈ s.toList⟩

instance [DecidableEq α] (a : α) (s : OrderedSet α) : Decidable (a ∈ s) :=
  inferInstanceAs (Decidable (a ∈ s.toList))

@[simp] theorem mem_toList {a : α} {s : OrderedSet α} : a ∈ s.toList ↔ a ∈ s := Iff.rfl

@[simp] theorem not_mem_empty {a : α} : ¬ a ∈ (empty : OrderedSet α) := List.not_mem_nil

@[simp] theorem mem_insert [Std.TransOrd α] [Std.LawfulEqOrd α] {a b : α} {s : OrderedSet α} :
    b ∈ s.insert a ↔ b = a ∨ b ∈ s := mem_insertSorted

@[ext] theorem ext {a b : OrderedSet α} (h : a.toList = b.toList) : a = b := by
  cases a; cases b; simp_all

/-- An element that comes after all others is put last. -/
theorem insertSorted_last [Std.OrientedOrd α] {a : α} {elements : List α}
    (last : ∀ b ∈ elements, compare b a = .lt) : insertSorted a elements = elements ++ [a] := by
  induction elements with
  | nil => rfl
  | cons first rest ih =>
    obtain ⟨below, others⟩ := List.forall_mem_cons.mp last
    simp [insertSorted, Std.OrientedCmp.gt_of_lt below, ih others]

/-- A set is filled again from its elements. -/
theorem ofList_toList [Std.TransOrd α] [Std.LawfulEqOrd α] (s : OrderedSet α) :
    ofList s.toList = s := by
  have fill (rest : List α) (part : OrderedSet α)
      (ascending : (part.toList ++ rest).Pairwise fun a b => compare a b = .lt) :
      (rest.foldl insert part).toList = part.toList ++ rest := by
    induction rest generalizing part with
    | nil => simp
    | cons a rest ih =>
      have last : ∀ b ∈ part.toList, compare b a = .lt := fun b member =>
        (List.pairwise_append.mp ascending).2.2 b member a List.mem_cons_self
      have next : (part.insert a).toList = part.toList ++ [a] := insertSorted_last last
      simpa [next] using ih (part.insert a) (by simpa [next] using ascending)
  have filled := fill s.toList empty (by simpa [empty] using s.ascending)
  exact ext (by simpa [ofList, empty] using filled)

/-- Inserting what is there already changes nothing. -/
theorem insert_of_mem [Std.TransOrd α] [Std.LawfulEqOrd α] {a : α} {s : OrderedSet α} (h : a ∈ s) :
    s.insert a = s := ext (insertSorted_of_mem s.ascending h)

end OrderedSet
end Dialogue
