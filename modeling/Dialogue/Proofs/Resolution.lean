import Dialogue.Proofs.Text
import Dialogue.Resolution

/-!
Laws of resolution. What is committed for a question settles the question again: binding turns an
answer into a value, and binding that value once more leaves it as it is, whatever the type and the
options of the question are.
-/
namespace Dialogue.Question

variable {q : Question} {v w : Value} {options : List String} {o : String}

theorem exactOption_eq_some (h : exactOption options v = some o) :
    o ∈ options ∧ Text.normalize o = Text.normalize v.wording :=
  ⟨List.mem_of_find?_eq_some h, by simpa using List.find?_some h⟩

theorem exactOption_congr (same : Text.normalize v.wording = Text.normalize w.wording) :
    exactOption options v = exactOption options w := by
  rw [exactOption, exactOption, same]

/-- Options are trimmed and not blank. -/
theorem mem_splitOptions {listed : String} (h : o ∈ splitOptions listed) :
    Text.trim o = o ∧ Text.isBlankText o = false := by
  obtain ⟨pieces, nonempty⟩ := List.mem_filter.mp h
  obtain ⟨piece, _, rfl⟩ := List.mem_map.mp pieces
  refine ⟨by simp [Text.trim, Text.trimChars_trimChars], ?_⟩
  rw [Text.isBlankText, String.toList_ofList, Text.all_trimChars, ← Bool.not_eq_true,
    ← Text.trimChars_eq_nil]
  intro empty
  simp [empty] at nonempty

/-- Values under a type are under that type already. -/
theorem typed_typed {type : String} (h : typed type v = some w) :
    typed type (trimmed w) = some w := by
  unfold typed at h
  split at h
  · split at h
    · contradiction
    · rename_i s solid
      cases h
      simp [trimmed, typed, solid]
  · rename_i n
    cases h
    have trimmed : Text.trim (Text.ofInt64 n) = Text.ofInt64 n := by
      simp [Text.trim, Text.trimChars_ofInt64]
    simp [Question.trimmed, typed, trimmed, Text.isBlankText_ofInt64]
  · cases h; rfl
  · obtain ⟨n, _, rfl⟩ := Option.map_eq_some_iff.mp h
    rfl
  · obtain ⟨b, _, rfl⟩ := Option.map_eq_some_iff.mp h
    rfl
  · contradiction

/-- A text with the normal form of an integer is read as that integer. -/
theorem typed_int_of_normalize {n : Int64}
    (same : Text.normalize o = Text.normalize (Text.ofInt64 n)) :
    typed "int" (.text o) = some (.int n) := by
  have normal : Text.normalChars o.toList = Text.normalChars (Text.ofInt64 n).toList := by
    simpa [Text.normalize] using congrArg String.toList same
  have digits := Text.trimChars_of_normalChars (fun c hc => Text.isNumeral_of_mem_ofInt64 hc) normal
  simp [typed, digits, Text.int64?_ofInt64]

/-- A text with the normal form of a truth value stands for that truth value. -/
theorem truth_of_normalize {b : Bool}
    (same : Text.normalize o = Text.normalize (Value.bool b).wording) :
    (Value.text o).truth = some b := by
  have normal : Text.normalChars o.toList = Text.normalChars (Value.bool b).wording.toList := by
    simpa [Text.normalize] using congrArg String.toList same
  rw [Value.truth, Value.truthOfText, normal]
  cases b <;> decide +kernel

/-- The option that names a value under a type is that value under the type again. -/
theorem typed_option {type : String} (h : typed type v = some w)
    (same : Text.normalize o = Text.normalize w.wording) (trimmed : Text.trim o = o)
    (solid : Text.isBlankText o = false) :
    ∃ u, typed type (.text o) = some u ∧ Text.normalize u.wording = Text.normalize w.wording := by
  unfold typed at h
  split at h
  · exact ⟨.text o, by simp [typed, solid, trimmed], same⟩
  · exact ⟨.text o, by simp [typed, solid, trimmed], same⟩
  · cases h
    exact ⟨_, typed_int_of_normalize same, rfl⟩
  · obtain ⟨n, _, rfl⟩ := Option.map_eq_some_iff.mp h
    exact ⟨_, typed_int_of_normalize same, rfl⟩
  · obtain ⟨b, _, rfl⟩ := Option.map_eq_some_iff.mp h
    exact ⟨.bool b, by simp [typed, truth_of_normalize same], rfl⟩
  · contradiction

theorem trimmed_trimmed (v : Value) : trimmed (trimmed v) = trimmed v := by
  cases v <;> simp [trimmed]

theorem isEmpty_trimmed (v : Value) : (trimmed v).isEmpty = v.isEmpty := by
  cases v <;> simp [trimmed, Value.isEmpty]

/-- Values under a type constraint are under it already. -/
theorem underType_underType {constraints : OrderedMap String String}
    (h : underType constraints (trimmed v) = some w) :
    underType constraints (trimmed w) = some w := by
  unfold underType at h ⊢
  cases constraint : constraints.get? typeConstraint with
  | some type => simpa [constraint] using typed_typed (by simpa [constraint] using h)
  | none =>
    rw [constraint] at h
    cases value : trimmed v with
    | bool b => simp [value] at h
    | int n =>
      simp only [value, Option.some.injEq] at h
      subst h
      rfl
    | text s =>
      simp only [value, Option.some.injEq] at h
      subst h
      rw [← value, trimmed_trimmed, value]

/-- The option that names a value under a type constraint is that value under it again. -/
theorem underType_option {constraints : OrderedMap String String}
    (h : underType constraints v = some w)
    (same : Text.normalize o = Text.normalize w.wording) (trim : Text.trim o = o)
    (solid : Text.isBlankText o = false) :
    ∃ u, underType constraints (trimmed (.text o)) = some u ∧
      Text.normalize u.wording = Text.normalize w.wording := by
  rw [trimmed, trim]
  unfold underType at h ⊢
  cases constraint : constraints.get? typeConstraint with
  | some type =>
    rw [constraint] at h
    exact typed_option h same trim solid
  | none => exact ⟨.text o, rfl, same⟩

/-- What a question takes a value for, it takes for itself. -/
theorem bind?_bind? (h : q.bind? v = some w) : q.bind? w = some w := by
  cases q with
  | wh var predicate constraints =>
    obtain ⟨u, under, listed⟩ := Option.bind_eq_some_iff.mp h
    unfold underOptions at listed
    cases constraint : constraints.get? oneOfConstraint with
    | none =>
      simp only [constraint, Option.some.injEq] at listed
      subst listed
      simp [bind?, underType_underType under, underOptions, constraint]
    | some options =>
      rw [constraint] at listed
      obtain ⟨o, exact, rfl⟩ := Option.map_eq_some_iff.mp listed
      obtain ⟨member, same⟩ := exactOption_eq_some exact
      obtain ⟨trim, solid⟩ := mem_splitOptions member
      obtain ⟨again, under, normal⟩ := underType_option under same trim solid
      simp [bind?, under, underOptions, constraint, exactOption_congr normal, exact]
  | yesNo predicate =>
    obtain ⟨b, _, rfl⟩ := Option.map_eq_some_iff.mp h
    rfl
  | alt predicate alternatives =>
    obtain ⟨o, exact, rfl⟩ := Option.map_eq_some_iff.mp h
    obtain ⟨_, same⟩ := exactOption_eq_some exact
    have again : exactOption alternatives (.text o) = some o :=
      (exactOption_congr (v := .text o) same).trans exact
    simp [bind?, again]

theorem isEmpty_of_typed {type : String} (h : typed type v = some w) : w.isEmpty = false := by
  unfold typed at h
  split at h
  · split at h
    · contradiction
    · rename_i solid
      cases h
      simpa [Value.isEmpty] using solid
  · cases h
    exact Text.isBlankText_ofInt64 _
  · cases h; rfl
  · obtain ⟨_, _, rfl⟩ := Option.map_eq_some_iff.mp h
    rfl
  · obtain ⟨_, _, rfl⟩ := Option.map_eq_some_iff.mp h
    rfl
  · contradiction

theorem isEmpty_of_underType {constraints : OrderedMap String String}
    (h : underType constraints v = some w) (nonempty : v.isEmpty = false) : w.isEmpty = false := by
  unfold underType at h
  split at h
  · exact isEmpty_of_typed h
  · contradiction
  · cases h
    exact nonempty

theorem isBlankText_wording (nonempty : v.isEmpty = false) :
    Text.isBlankText v.wording = false := by
  cases v with
  | bool b => cases b <;> decide
  | int n => exact Text.isBlankText_ofInt64 n
  | text s => exact nonempty

/-- A question takes no value for a blank one, unless that was blank too. -/
theorem isEmpty_of_bind? (h : q.bind? v = some w) (nonempty : v.isEmpty = false) :
    w.isEmpty = false := by
  cases q with
  | wh var predicate constraints =>
    obtain ⟨u, under, listed⟩ := Option.bind_eq_some_iff.mp h
    have solid := isEmpty_of_underType under ((isEmpty_trimmed v).trans nonempty)
    unfold underOptions at listed
    split at listed
    · obtain ⟨o, exact, rfl⟩ := Option.map_eq_some_iff.mp listed
      exact (mem_splitOptions (exactOption_eq_some exact).1).2
    · cases listed
      exact solid
  | yesNo predicate =>
    obtain ⟨b, _, rfl⟩ := Option.map_eq_some_iff.mp h
    rfl
  | alt predicate alternatives =>
    obtain ⟨o, exact, rfl⟩ := Option.map_eq_some_iff.mp h
    obtain ⟨_, same⟩ := exactOption_eq_some exact
    exact (Text.isBlankText_congr same).trans (isBlankText_wording nonempty)

theorem resolution_eq_some {a : Answer} {p : Proposition} :
    q.resolution a = some p ↔
      a.addresses q = true ∧ a.value.isEmpty = false ∧
        p.predicate = q.topic ∧ q.bind? a.value = some p.value := by
  obtain ⟨predicate, value⟩ := p
  simp only [resolution, Option.ite_none_right_eq_some, Bool.and_eq_true, Bool.not_eq_true',
    Option.map_eq_some_iff, Proposition.mk.injEq]
  constructor
  · rintro ⟨⟨addressed, nonempty⟩, w, bound, rfl, rfl⟩
    exact ⟨addressed, nonempty, rfl, bound⟩
  · rintro ⟨addressed, nonempty, rfl, bound⟩
    exact ⟨⟨addressed, nonempty⟩, value, bound, rfl, rfl⟩

/-- The proposition that settles a question settles it as a full answer too. -/
theorem resolution_ofProposition {a : Answer} {p : Proposition} (h : q.resolution a = some p) :
    q.resolution (.ofProposition p) = some p := by
  obtain ⟨_, nonempty, topic, bound⟩ := resolution_eq_some.mp h
  refine resolution_eq_some.mpr ⟨?_, isEmpty_of_bind? bound nonempty, topic, bind?_bind? bound⟩
  simp [Answer.addresses, Answer.ofProposition, Answer.full, topic]

/-- A question is resolved by commitments among which is a proposition that settles it. -/
theorem resolvedBy_of_resolution {a : Answer} {p : Proposition}
    {commitments : OrderedSet Proposition} (h : q.resolution a = some p)
    (member : p ∈ commitments) :
    q.resolvedBy commitments = true :=
  List.any_eq_true.mpr ⟨p, member, by rw [Answer.resolves, resolution_ofProposition h]; rfl⟩

theorem resolvedBy_insert {a : Answer} {p : Proposition} {commitments : OrderedSet Proposition}
    (h : q.resolution a = some p) : q.resolvedBy (commitments.insert p) = true :=
  resolvedBy_of_resolution h (OrderedSet.mem_insert.mpr (.inl rfl))

/-- What is resolved stays resolved under further commitments. -/
theorem resolvedBy_mono {before after : OrderedSet Proposition}
    (h : q.resolvedBy before = true) (more : ∀ p ∈ before, p ∈ after) :
    q.resolvedBy after = true := by
  obtain ⟨p, member, settles⟩ := List.any_eq_true.mp h
  exact List.any_eq_true.mpr ⟨p, more p member, settles⟩

end Dialogue.Question
