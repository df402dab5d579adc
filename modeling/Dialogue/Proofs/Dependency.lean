import Dialogue.Domain.Basic

/-!
Dependency between questions as a relation. The exploration of a catalogue finds exactly the other
questions that a question needs, directly or through others; cycles of dependencies do no harm, as a
question found is removed from those that remain.
-/
namespace Dialogue.Domain

/-- A question needs another one of the catalogue, directly or through others. -/
inductive Needs (d : Domain) (q : Question) : Question → Prop
  | direct {on} (listed : on ∈ d.questions) (depends : d.depends q on = true) : Needs d q on
  | through {via on} (path : Needs d q via) (listed : on ∈ d.questions)
      (depends : d.depends via on = true) : Needs d q on

/-- Some question of the queue needs another one through questions that remain. -/
inductive Leads (d : Domain) (remaining queue : List Question) : Question → Prop
  | direct {q on} (queued : q ∈ queue) (remains : on ∈ remaining)
      (depends : d.depends q on = true) :
      Leads d remaining queue on
  | through {via on} (path : Leads d remaining queue via) (remains : on ∈ remaining)
      (depends : d.depends via on = true) : Leads d remaining queue on

variable {d : Domain} {q on : Question} {remaining queue : List Question}

theorem mem_needed : on ∈ d.needed q remaining ↔ on ∈ remaining ∧ d.depends q on = true :=
  List.mem_filter

theorem mem_unneeded : on ∈ d.unneeded q remaining ↔ on ∈ remaining ∧ d.depends q on = false := by
  simp [unneeded]

/-- What is led to after the first question of the queue was taken is led to before. -/
theorem Leads.before (h : d.Leads (d.unneeded q remaining) (queue ++ d.needed q remaining) on) :
    d.Leads remaining (q :: queue) on := by
  induction h with
  | direct queued remains depends =>
    have remains := (mem_unneeded.mp remains).1
    rcases List.mem_append.mp queued with queued | found
    · exact .direct (List.mem_cons_of_mem _ queued) remains depends
    · obtain ⟨listed, needed⟩ := mem_needed.mp found
      exact .through (.direct (List.mem_cons_self ..) listed needed) remains depends
  | through path remains depends ih => exact .through ih (mem_unneeded.mp remains).1 depends

/-- What the queue leads to is found at its first question, or led to after that was taken. -/
theorem Leads.after (h : d.Leads remaining (q :: queue) on) : on ∈ d.needed q remaining ∨
    d.Leads (d.unneeded q remaining) (queue ++ d.needed q remaining) on := by
  induction h with
  | @direct k on queued remains depends =>
    cases found : d.depends q on with
    | true => exact .inl (mem_needed.mpr ⟨remains, found⟩)
    | false =>
      rcases List.mem_cons.mp queued with rfl | queued
      · simp [found] at depends
      · have remains := mem_unneeded.mpr ⟨remains, found⟩
        exact .inr (.direct (List.mem_append_left _ queued) remains depends)
  | @through via on path remains depends ih =>
    cases found : d.depends q on with
    | true => exact .inl (mem_needed.mpr ⟨remains, found⟩)
    | false =>
      have remains := mem_unneeded.mpr ⟨remains, found⟩
      rcases ih with near | far
      · exact .inr (.direct (List.mem_append_right _ near) remains depends)
      · exact .inr (.through far remains depends)

theorem mem_explore : on ∈ d.explore remaining queue ↔ d.Leads remaining queue on := by
  fun_induction explore d remaining queue with
  | case1 remaining =>
    refine ⟨fun found => by simp at found, fun leads => ?_⟩
    have nothing : False := by
      induction leads with
      | direct queued => simp at queued
      | through _ _ _ ih => exact ih
    exact nothing.elim
  | case2 remaining q queue found ih =>
    rw [List.mem_append, ih]
    constructor
    · rintro (near | far)
      · obtain ⟨remains, depends⟩ := mem_needed.mp near
        exact .direct (List.mem_cons_self ..) remains depends
      · exact far.before
    · exact Leads.after

/-- Exactly the other questions that a question needs are reachable from it. -/
theorem mem_reachable : on ∈ d.reachable q ↔ on ≠ q ∧ d.Needs q on := by
  rw [reachable, mem_explore]
  constructor
  · intro leads
    induction leads with
    | direct queued remains depends =>
      obtain ⟨listed, other⟩ := List.mem_filter.mp remains
      cases List.mem_singleton.mp queued
      exact ⟨by simpa using other, .direct listed depends⟩
    | through _ remains depends ih =>
      obtain ⟨listed, other⟩ := List.mem_filter.mp remains
      exact ⟨by simpa using other, .through ih.2 listed depends⟩
  · rintro ⟨other, needs⟩
    -- a path that comes back to the question starts anew there
    have leads : on = q ∨ d.Leads (d.questions.filter (· ≠ q)) [q] on := by
      clear other
      induction needs with
      | @direct on listed depends =>
        by_cases same : on = q
        · exact .inl same
        · have remains : on ∈ d.questions.filter (· ≠ q) :=
            List.mem_filter.mpr ⟨listed, by simpa using same⟩
          exact .inr (.direct (List.mem_singleton_self q) remains depends)
      | @through via on _ listed depends ih =>
        by_cases same : on = q
        · exact .inl same
        · have remains : on ∈ d.questions.filter (· ≠ q) :=
            List.mem_filter.mpr ⟨listed, by simpa using same⟩
          rcases ih with rfl | path
          · exact .inr (.direct (List.mem_singleton_self _) remains depends)
          · exact .inr (.through path remains depends)
    exact leads.resolve_left other

theorem unresolvedDependencies_eq_nil {commitments : OrderedSet Proposition} :
    d.unresolvedDependencies q commitments = [] ↔
      ∀ on, on ≠ q → d.Needs q on → on.resolvedBy commitments = true := by
  simp [unresolvedDependencies, List.filter_eq_nil_iff, mem_reachable]

end Dialogue.Domain
