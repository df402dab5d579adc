import Mathlib.Data.List.Forall2

/-!
Computations that may fail, taken apart: where one succeeds, so did its parts, and where one fails,
some part of it has failed.
-/
namespace Dialogue

variable {α β ε ε' : Type}

theorem bind_eq_ok {first : Except ε α} {next : α → Except ε β} {b : β} :
    (first >>= next) = .ok b ↔ ∃ a, first = .ok a ∧ next a = .ok b := by
  cases first <;> simp [bind, Except.bind]

theorem bind_eq_error {first : Except ε α} {next : α → Except ε β} {x : ε} :
    (first >>= next) = .error x ↔
      first = .error x ∨ ∃ a, first = .ok a ∧ next a = .error x := by
  cases first <;> simp [bind, Except.bind]

theorem mapError_eq_ok {f : ε → ε'} {first : Except ε α} {a : α} :
    first.mapError f = .ok a ↔ first = .ok a := by
  cases first with
  | ok => constructor <;> rintro ⟨⟩ <;> rfl
  | error => exact ⟨nofun, nofun⟩

/-- A computation that is seen to succeed, and with what property. -/
theorem exists_ok_of_decide {x : Except ε α} {P : α → Prop} [DecidablePred P]
    (holds : (match x with | .ok a => decide (P a) | .error _ => false) = true) :
    ∃ a, x = .ok a ∧ P a := by
  cases x with
  | ok a => exact ⟨a, rfl, of_decide_eq_true holds⟩
  | error => cases holds

theorem mapM_eq_ok {f : α → Except ε β} {xs : List α} {ys : List β} :
    xs.mapM f = .ok ys ↔ List.Forall₂ (fun x y => f x = .ok y) xs ys := by
  induction xs generalizing ys with
  | nil => simp [pure, Except.pure, eq_comm]
  | cons x xs ih =>
    simp only [List.mapM_cons, bind_eq_ok, ih, List.forall₂_cons_left_iff, pure, Except.pure,
      Except.ok.injEq]
    constructor
    · rintro ⟨y, now, ys, rest, rfl⟩
      exact ⟨y, ys, now, rest, rfl⟩
    · rintro ⟨y, ys, now, rest, rfl⟩
      exact ⟨y, now, ys, rest, rfl⟩

section Passes

variable {f : β → α → Except ε β} {Built : List α → β → Prop} {Passes : List α → α → Prop}

theorem foldlM_after
    (step : ∀ before a b, Built before b →
      ((∃ next, f b a = .ok next) ↔ Passes before a) ∧
        ∀ next, f b a = .ok next → Built (before ++ [a]) next)
    (xs : List α) {before : List α} {b : β} (first : Built before b) :
    ((∃ last, xs.foldlM f b = .ok last) ↔
      ∀ earlier a later, xs = earlier ++ a :: later → Passes (before ++ earlier) a) ∧
        ∀ last, xs.foldlM f b = .ok last → Built (before ++ xs) last := by
  induction xs generalizing before b with
  | nil =>
    refine ⟨⟨fun _ earlier a later split => by simp at split, fun _ => ⟨b, rfl⟩⟩, ?_⟩
    rintro last ⟨⟩
    rwa [List.append_nil]
  | cons x xs ih =>
    obtain ⟨passes, builds⟩ := step before x b first
    simp only [List.foldlM_cons, bind_eq_ok]
    constructor
    · constructor
      · rintro ⟨last, next, now, rest⟩ earlier a later split
        rcases earlier with _ | ⟨y, earlier⟩
        · obtain ⟨rfl, rfl⟩ := List.cons_eq_cons.mp split
          rw [List.append_nil]
          exact passes.mp ⟨next, now⟩
        · obtain ⟨rfl, rfl⟩ := List.cons_eq_cons.mp split
          have later := (ih (builds next now)).1.mp ⟨last, rest⟩ earlier a later rfl
          rwa [List.append_assoc] at later
      · intro pass
        have here := pass [] x xs rfl
        rw [List.append_nil] at here
        obtain ⟨next, now⟩ := passes.mpr here
        obtain ⟨last, rest⟩ := (ih (builds next now)).1.mpr fun earlier a later split => by
          rw [List.append_assoc]
          exact pass (x :: earlier) a later (by rw [split, List.cons_append])
        exact ⟨last, next, now, rest⟩
    · rintro last ⟨next, now, rest⟩
      have built := (ih (builds next now)).2 last rest
      rwa [List.append_assoc] at built

/-- A fold succeeds if each element passes after the elements before it, where what these have built
decides whether it passes. -/
theorem foldlM_iff
    (step : ∀ before a b, Built before b →
      ((∃ next, f b a = .ok next) ↔ Passes before a) ∧
        ∀ next, f b a = .ok next → Built (before ++ [a]) next)
    (xs : List α) {b : β} (first : Built [] b) :
    ((∃ last, xs.foldlM f b = .ok last) ↔
      ∀ earlier a later, xs = earlier ++ a :: later → Passes earlier a) ∧
        ∀ last, xs.foldlM f b = .ok last → Built xs last :=
  foldlM_after step xs first

end Passes

end Dialogue
