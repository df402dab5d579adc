import Mathlib.Order.Bounds.Basic
import Mathlib.Order.Lattice.Nat
import Dialogue.Proofs.Dependency

/-!
Dependencies as a graph, and the exploration of it. The exploration is a loop over a queue that
marks the questions it has seen; it comes to an end and finds each other question to which there is
a path, once, and none before one that is nearer. The queue holds questions of two distances at
most, one more for those at its end, and only from them are there edges to what was not seen yet.
-/
namespace Dialogue

variable {d : Domain} {q on x y : Question} {n k : Nat} {remaining queue near far : List Question}

namespace Domain

/-- The one question depends directly on the other, which is in the catalogue. -/
def Edge (d : Domain) (q on : Question) : Prop :=
  on ∈ d.questions ∧ on ≠ q ∧ d.depends q on = true

/-- There is a path of so many edges from the one question to the other. -/
inductive Path (d : Domain) (q : Question) : Nat → Question → Prop
  | start : Path d q 0 q
  | along {n : Nat} {via on : Question} (path : Path d q n via) (edge : d.Edge via on) :
      Path d q (n + 1) on

/-- How many edges the shortest path has, if there is a path. -/
noncomputable def distance (d : Domain) (q on : Question) : Nat := sInf {n | d.Path q n on}

theorem mem_dependenciesOf : on ∈ d.dependenciesOf q ↔ d.Edge q on := by
  simp [dependenciesOf, Edge]

theorem questions_nodup (d : Domain) : d.questions.Nodup := d.distinct_topics.of_map

theorem Path.needs (h : d.Path q (n + 1) on) : d.Needs q on := by
  generalize edges : n + 1 = m at h
  induction h generalizing n with
  | start => contradiction
  | @along m via on path edge ih =>
    obtain ⟨listed, _, depends⟩ := edge
    cases m with
    | zero =>
      cases path
      exact .direct listed depends
    | succ m => exact .through (ih rfl) listed depends

theorem Needs.path (h : d.Needs q on) : ∃ n, d.Path q n on := by
  induction h with
  | @direct on listed depends =>
    by_cases same : on = q
    · exact ⟨0, same ▸ .start⟩
    · exact ⟨1, .along .start ⟨listed, same, depends⟩⟩
  | @through via on _ listed depends ih =>
    obtain ⟨n, path⟩ := ih
    by_cases same : on = via
    · exact ⟨n, same ▸ path⟩
    · exact ⟨n + 1, .along path ⟨listed, same, depends⟩⟩

/-- A question is reachable if it is another one and there is a path to it. -/
theorem mem_reachable_iff_path : on ∈ d.reachable q ↔ on ≠ q ∧ ∃ n, d.Path q (n + 1) on := by
  rw [mem_reachable]
  refine and_congr_right fun other => ⟨fun needs => ?_, fun ⟨n, path⟩ => path.needs⟩
  obtain ⟨n, path⟩ := needs.path
  cases path with
  | start => exact absurd rfl other
  | along path edge => exact ⟨_, .along path edge⟩

/-! What is found. -/

theorem mem_of_mem_explore (h : on ∈ d.explore remaining queue) : on ∈ remaining := by
  fun_induction explore d remaining queue with
  | case1 => simp at h
  | case2 remaining q queue found ih =>
    rcases List.mem_append.mp h with near | far
    · exact (mem_needed.mp near).1
    · exact (mem_unneeded.mp (ih far)).1

theorem explore_nodup (distinct : remaining.Nodup) : (d.explore remaining queue).Nodup := by
  fun_induction explore d remaining queue with
  | case1 => exact List.nodup_nil
  | case2 remaining q queue found ih =>
    refine List.nodup_append.mpr ⟨distinct.filter _, ih (distinct.filter _), ?_⟩
    rintro on near _ far rfl
    have depends := (mem_needed.mp near).2
    simp [(mem_unneeded.mp (mem_of_mem_explore far)).2] at depends

/-! The order in which it is found. -/

/-- How an exploration from a question stands when those at the front of the queue are so many edges
away. -/
structure Frontier (d : Domain) (q : Question) (k : Nat) (remaining near far : List Question) :
    Prop where
  listed : ∀ x ∈ remaining, x ∈ d.questions ∧ x ≠ q
  seen : ∀ y ∈ near ++ far, y ∉ remaining
  front : ∀ y ∈ near, IsLeast {n | d.Path q n y} k
  back : ∀ y ∈ far, IsLeast {n | d.Path q n y} (k + 1)
  /-- Edges to what remains come from what remains or waits in the queue. -/
  closed : ∀ n y x, d.Path q n y → d.Edge y x → x ∈ remaining → y ∈ remaining ∨ y ∈ near ++ far

theorem Frontier.start : d.Frontier q 0 (d.questions.filter (· ≠ q)) [q] [] where
  listed x remains := by simpa using List.mem_filter.mp remains
  seen y queued := by simp_all
  front y queued := by
    cases List.mem_singleton.mp queued
    exact ⟨.start, fun _ _ => Nat.zero_le _⟩
  back := by simp
  closed n y x path _ _ := by
    by_cases same : y = q
    · exact .inr (by simp [same])
    · cases path with
      | start => exact absurd rfl same
      | along _ edge => exact .inl (List.mem_filter.mpr ⟨edge.1, by simpa using same⟩)

theorem Frontier.turned (h : d.Frontier q k remaining [] far) :
    d.Frontier q (k + 1) remaining far [] where
  listed := h.listed
  seen := by simpa using h.seen
  front := h.back
  back := by simp
  closed := by simpa using h.closed

/-- Every path to what remains leaves the queue before it gets there. -/
theorem Frontier.leaves (h : d.Frontier q k remaining near far) (path : d.Path q n x)
    (remains : x ∈ remaining) : ∃ y ∈ near ++ far, ∃ m < n, d.Path q m y := by
  induction path with
  | start => exact absurd rfl (h.listed _ remains).2
  | @along n via on path edge ih =>
    rcases h.closed n via on path edge remains with remains | queued
    · obtain ⟨y, queued, m, shorter, path⟩ := ih remains
      exact ⟨y, queued, m, by omega, path⟩
    · exact ⟨via, queued, n, by omega, path⟩

theorem Frontier.farther (h : d.Frontier q k remaining near far) (path : d.Path q n x)
    (remains : x ∈ remaining) : k < n := by
  obtain ⟨y, queued, m, shorter, path⟩ := h.leaves path remains
  rcases List.mem_append.mp queued with queued | queued
  · have least := (h.front y queued).2 path
    omega
  · have least := (h.back y queued).2 path
    omega

/-- What is found at the front of the queue is one edge farther away. -/
theorem Frontier.found (h : d.Frontier q k remaining (y :: near) far)
    (found : x ∈ d.needed y remaining) : IsLeast {n | d.Path q n x} (k + 1) := by
  obtain ⟨remains, depends⟩ := mem_needed.mp found
  have other : x ≠ y := by
    rintro rfl
    exact h.seen x (by simp) remains
  have path : d.Path q (k + 1) x :=
    .along (h.front y (by simp)).1 ⟨(h.listed x remains).1, other, depends⟩
  exact ⟨path, fun n path => h.farther path remains⟩

theorem Frontier.next (h : d.Frontier q k remaining (y :: near) far) :
    d.Frontier q k (d.unneeded y remaining) near (far ++ d.needed y remaining) where
  listed x remains := h.listed x (mem_unneeded.mp remains).1
  seen x queued remains := by
    obtain ⟨remains, free⟩ := mem_unneeded.mp remains
    rw [← List.append_assoc] at queued
    rcases List.mem_append.mp queued with queued | found
    · exact h.seen x (List.mem_cons_of_mem _ queued) remains
    · simp [(mem_needed.mp found).2] at free
  front x queued := h.front x (List.mem_cons_of_mem _ queued)
  back x queued := by
    rcases List.mem_append.mp queued with queued | found
    · exact h.back x queued
    · exact h.found found
  closed n x on path edge remains := by
    obtain ⟨remains, free⟩ := mem_unneeded.mp remains
    rcases h.closed n x on path edge remains with before | queued
    · cases depends : d.depends y x with
      | true => exact .inr (by simp [mem_needed, before, depends])
      | false => exact .inl (mem_unneeded.mpr ⟨before, depends⟩)
    · rcases List.mem_cons.mp queued with rfl | queued
      · simp [edge.2.2] at free
      · exact .inr (by rw [← List.append_assoc]; exact List.mem_append_left _ queued)

/-- To the one question there is a path no longer than any to the other. -/
def Nearer (d : Domain) (q x y : Question) : Prop :=
  ∀ n, d.Path q n y → ∃ m ≤ n, d.Path q m x

theorem Frontier.explore (h : d.Frontier q k remaining near far) :
    (d.explore remaining (near ++ far)).Pairwise (d.Nearer q) := by
  generalize waiting : near ++ far = queue
  fun_induction Domain.explore d remaining queue generalizing k near far
  case case1 => exact .nil
  case case2 remaining y queue found ih =>
    -- where the questions at the front have been looked at, those behind them come to the front
    obtain ⟨k, near, far, h, rfl⟩ : ∃ k near far,
        d.Frontier q k remaining (y :: near) far ∧ near ++ far = queue := by
      cases near with
      | nil =>
        cases waiting
        exact ⟨_, _, _, h.turned, List.append_nil _⟩
      | cons first near =>
        obtain ⟨rfl, rest⟩ := List.cons_eq_cons.mp waiting
        exact ⟨_, _, _, h, rest⟩
    have nearer : ∀ x ∈ found, ∀ z ∈ remaining, d.Nearer q x z := fun x member z remains n path =>
      ⟨k + 1, h.farther path remains, (h.found member).1⟩
    refine List.pairwise_append.mpr ⟨?_, ih h.next (List.append_assoc ..).symm, ?_⟩
    · exact List.pairwise_of_forall_mem_list fun x member z also =>
        nearer x member z (mem_needed.mp also).1
    · exact fun x member z later => nearer x member z (mem_unneeded.mp (mem_of_mem_explore later)).1

theorem Nearer.distance_le (h : d.Nearer q x y) (path : d.Path q n y) :
    d.distance q x ≤ d.distance q y := by
  obtain ⟨m, atMost, path⟩ := h _ (Nat.sInf_mem (s := {n | d.Path q n y}) ⟨n, path⟩)
  exact (Nat.sInf_le path).trans atMost

end Domain

namespace Search

variable {s : Search} {ons : List Question}

def unseen (d : Domain) (s : Search) : List Question := d.questions.filter (· ∉ s.seen)

theorem foldl_visit (distinct : ons.Nodup) (s : Search) :
    (ons.foldl visit s).queue = s.queue ++ ons.filter (· ∉ s.seen) ∧
      (ons.foldl visit s).found = s.found ++ ons.filter (· ∉ s.seen) ∧
      ∀ x, x ∈ (ons.foldl visit s).seen ↔ x ∈ s.seen ∨ x ∈ ons := by
  induction ons generalizing s with
  | nil => simp
  | cons on ons ih =>
    obtain ⟨fresh, distinct⟩ := List.nodup_cons.mp distinct
    obtain ⟨queue, found, seen⟩ := ih distinct (s.visit on)
    by_cases known : on ∈ s.seen
    · simp only [visit, known, if_true] at queue found seen
      simp only [List.foldl_cons, visit, known, if_true, queue, found, seen]
      refine ⟨by simp [known], by simp [known], fun x => ?_⟩
      grind
    · have same : ons.filter (· ∉ on :: s.seen) = ons.filter (· ∉ s.seen) :=
        List.filter_congr fun x member => by
          have other : x ≠ on := fun same => fresh (same ▸ member)
          simp [other]
      simp only [visit, known, if_false, same] at queue found seen
      simp only [List.foldl_cons, visit, known, if_false, queue, found, seen]
      refine ⟨by simp [known], by simp [known], fun x => ?_⟩
      grind

/-- One step of the loop is one step of the recursion: what is needed of the unseen questions moves
to the queue and is found. -/
theorem step_eq (known : ∀ y ∈ s.queue, y ∈ s.seen) {queue : List Question}
    (waits : s.queue = q :: queue) :
    (s.step d).queue = queue ++ d.needed q (s.unseen d) ∧
      (s.step d).found = s.found ++ d.needed q (s.unseen d) ∧
      (s.step d).unseen d = d.unneeded q (s.unseen d) ∧
      ∀ y ∈ (s.step d).queue, y ∈ (s.step d).seen := by
  have here : q ∈ s.seen := known q (by simp [waits])
  have fresh : (d.dependenciesOf q).filter (· ∉ s.seen) = d.needed q (s.unseen d) := by
    simp only [Domain.dependenciesOf, Domain.needed, unseen, List.filter_filter]
    exact List.filter_congr fun x _ => by grind
  have apart : (d.dependenciesOf q).Nodup := d.questions_nodup.filter _
  obtain ⟨queued, found, seen⟩ := foldl_visit apart { s with queue }
  rw [fresh] at queued found
  have stepped : s.step d = (d.dependenciesOf q).foldl visit { s with queue } := by
    simp [step, waits]
  rw [stepped]
  refine ⟨queued, found, ?_, fun y member => (seen y).mpr ?_⟩
  · simp only [unseen, Domain.unneeded, List.filter_filter]
    exact List.filter_congr fun x listed => by
      have := seen x
      simp only [Domain.mem_dependenciesOf, Domain.Edge] at this
      grind
  · rw [queued, ← fresh] at member
    rcases List.mem_append.mp member with member | member
    · exact .inl (known y (by simp [waits, member]))
    · exact .inr (List.mem_of_mem_filter member)

/-- The loop ends, and finds what the recursion does. -/
theorem ends (s : Search) (known : ∀ y ∈ s.queue, y ∈ s.seen) :
    s.Ends d (s.found ++ d.explore (s.unseen d) s.queue) := by
  generalize left : s.unseen d = remaining
  generalize waiting : s.queue = queue
  fun_induction Domain.explore d remaining queue generalizing s
  case case1 =>
    rw [List.append_nil]
    exact .done waiting
  case case2 remaining q queue found ih =>
    subst left
    obtain ⟨queued, finds, fewer, knownNext⟩ := s.step_eq known waiting
    rw [← List.append_assoc, ← finds]
    exact .next (by simp [waiting]) (ih (s.step d) knownNext fewer queued)

end Search

namespace Domain

/-- The exploration comes to an end and finds the other questions to which there is a path, each of
them once and nearer ones first. -/
theorem reachable_closure (d : Domain) (q : Question) :
    Search.Ends d (.start q) (d.reachable q) ∧
    (d.reachable q).Nodup ∧ q ∉ d.reachable q ∧
    (∀ on, on ∈ d.reachable q ↔ on ≠ q ∧ ∃ n, d.Path q (n + 1) on) ∧
    (d.reachable q).Pairwise fun x y => d.distance q x ≤ d.distance q y := by
  have ends : Search.Ends d (.start q) (d.reachable q) := by
    have unseen : (Search.start q).unseen d = d.questions.filter (· ≠ q) := by
      simp [Search.unseen, Search.start]
    have ends := (Search.start q).ends (d := d) (by simp [Search.start])
    rwa [unseen] at ends
  have nearer : (d.reachable q).Pairwise (d.Nearer q) := Frontier.start.explore
  refine ⟨ends, explore_nodup (d.questions_nodup.filter _), ?_, fun on => mem_reachable_iff_path,
    ?_⟩
  · intro member
    exact (mem_reachable_iff_path.mp member).1 rfl
  · refine nearer.imp_of_mem fun {x y} _ member h => ?_
    obtain ⟨_, n, path⟩ := mem_reachable_iff_path.mp member
    exact h.distance_le path

end Domain
end Dialogue
