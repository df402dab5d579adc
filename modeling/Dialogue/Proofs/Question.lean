import Mathlib.Data.List.Nodup
import Dialogue.Proofs.Resolution

/-!
What the building functions make of the parts of a question. Topics and alternatives are trimmed,
and no two alternatives have one normal form, so that each is named by itself alone.
-/
namespace Dialogue.Question

variable {q : Question} {field value w var predicate : String} {seen xs : List String}
  {constraints : List (String × String)}

theorem throw_eq {ε α : Type} (e : ε) : (throw e : Except ε α) = .error e := rfl

theorem required_eq : required field value =
    if Text.trim value = "" then .error (.emptyField field) else .ok (Text.trim value) := rfl

theorem buildWh_eq_ok : buildWh var predicate constraints = .ok q ↔
    Text.trim var ≠ "" ∧ Text.trim predicate ≠ "" ∧
      (∀ c ∈ (OrderedMap.ofList constraints).entries,
        constraintFault? (Text.trim predicate) c.1 c.2 = none) ∧
      q = wh (Text.trim var) (Text.trim predicate) (OrderedMap.ofList constraints) := by
  rw [← List.findSome?_eq_none_iff, buildWh, required_eq, required_eq]
  by_cases unnamed : Text.trim var = ""
  · simp [unnamed, bind, Except.bind]
  · by_cases empty : Text.trim predicate = ""
    · simp [unnamed, empty, bind, Except.bind]
    · cases faults : (OrderedMap.ofList constraints).entries.findSome? fun c =>
          constraintFault? (Text.trim predicate) c.1 c.2 <;>
        simp [unnamed, empty, faults, throw_eq, bind, Except.bind, pure, Except.pure, eq_comm]

theorem buildYesNo_eq_ok : buildYesNo predicate = .ok q ↔
    Text.trim predicate ≠ "" ∧ q = yesNo (Text.trim predicate) := by
  rw [buildYesNo, required_eq]
  by_cases empty : Text.trim predicate = "" <;>
    simp [empty, bind, Except.bind, pure, Except.pure, eq_comm]

theorem buildAlt_eq_ok : buildAlt predicate xs = .ok q ↔
    Text.trim predicate ≠ "" ∧ 2 ≤ xs.length ∧
      alternativeFault? (Text.trim predicate) [] (xs.map Text.trim) = none ∧
      q = alt (Text.trim predicate) (xs.map Text.trim) := by
  rw [buildAlt, required_eq]
  by_cases empty : Text.trim predicate = ""
  · simp [empty, bind, Except.bind]
  · by_cases few : xs.length < 2
    · simp [empty, few, throw_eq, bind, Except.bind, Nat.not_le.mpr few]
    · cases faults : alternativeFault? (Text.trim predicate) [] (xs.map Text.trim) <;>
        simp [empty, few, faults, throw_eq, bind, Except.bind, pure, Except.pure, eq_comm,
          Nat.not_lt.mp few]

/-- Alternatives are without fault if none is empty and all differ in their normal forms, also from
those before. -/
theorem alternativeFault?_eq_none : alternativeFault? predicate seen xs = none ↔
    (∀ a ∈ xs, a ≠ "") ∧ (∀ a ∈ xs, Text.normalize a ∉ seen) ∧
      (xs.map Text.normalize).Nodup := by
  induction xs generalizing seen with
  | nil => simp [alternativeFault?]
  | cons a rest ih =>
    by_cases empty : a = ""
    · simp [alternativeFault?, empty]
    · by_cases known : Text.normalize a ∈ seen
      · simp [alternativeFault?, empty, known]
      · simp only [alternativeFault?, empty, known, if_false, ih, List.map_cons, List.nodup_cons]
        grind

/-- The question was made by one of the building functions. -/
inductive Built : Question → Prop
  | wh {q : Question} {var predicate : String} {constraints : List (String × String)}
      (made : buildWh var predicate constraints = .ok q) : Built q
  | yesNo {q : Question} {predicate : String} (made : buildYesNo predicate = .ok q) : Built q
  | alt {q : Question} {predicate : String} {alternatives : List String}
      (made : buildAlt predicate alternatives = .ok q) : Built q

/-- The constraints of a question that was made have passed the checks. -/
theorem Built.faultless {constraints : OrderedMap String String}
    (built : (Question.wh var predicate constraints).Built) :
    ∀ c ∈ constraints.entries, constraintFault? predicate c.1 c.2 = none := by
  cases built with
  | wh made =>
    obtain ⟨_, _, faultless, shape⟩ := buildWh_eq_ok.mp made
    cases shape
    exact faultless
  | yesNo made => exact nomatch (buildYesNo_eq_ok.mp made).2
  | alt made => exact nomatch (buildAlt_eq_ok.mp made).2.2.2

/-- The alternatives of a question that was made are two or more, none of them is empty, and no two
have one normal form. -/
theorem Built.alternatives (built : (Question.alt predicate xs).Built) :
    2 ≤ xs.length ∧ (∀ a ∈ xs, a ≠ "") ∧ (xs.map Text.normalize).Nodup := by
  cases built with
  | wh made => exact nomatch (buildWh_eq_ok.mp made).2.2.2
  | yesNo made => exact nomatch (buildYesNo_eq_ok.mp made).2
  | alt made =>
    obtain ⟨_, enough, faultless, shape⟩ := buildAlt_eq_ok.mp made
    cases shape
    obtain ⟨named, -, distinct⟩ := alternativeFault?_eq_none.mp faultless
    exact ⟨by simpa using enough, named, distinct⟩

/-- There are no blanks at the ends of the topic, nor at those of an option. -/
structure Tidy (q : Question) : Prop where
  topic : Text.trim q.topic = q.topic
  options : ∀ options, q.options = some options → ∀ o ∈ options, Text.trim o = o

theorem Built.tidy (h : q.Built) : q.Tidy := by
  cases h with
  | wh made =>
    obtain ⟨_, _, _, rfl⟩ := buildWh_eq_ok.mp made
    refine ⟨Text.trim_trim _, fun options listed o member => ?_⟩
    obtain ⟨raw, _, rfl⟩ := Option.map_eq_some_iff.mp listed
    exact (mem_splitOptions member).1
  | yesNo made =>
    obtain ⟨_, rfl⟩ := buildYesNo_eq_ok.mp made
    exact ⟨Text.trim_trim _, by simp [options]⟩
  | alt made =>
    obtain ⟨_, _, _, rfl⟩ := buildAlt_eq_ok.mp made
    refine ⟨Text.trim_trim _, fun options listed o member => ?_⟩
    cases listed
    obtain ⟨raw, _, rfl⟩ := List.mem_map.mp member
    exact Text.trim_trim raw

end Dialogue.Question
