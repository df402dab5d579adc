import Dialogue.Proofs.Question
import Dialogue.Rules.Update

/-!
Keys. The key of a question is its text, in which signs set the parts apart. A part may hold these
signs itself, and then two questions can have one key. Where the parts keep clear of them, the key
says which question it belongs to, and an answer that points to one question is for no other.
-/
namespace Dialogue.Question

variable {q r : Question} {var predicate other topic : String} {alternatives others : List String}
  {a b : OrderedMap String String}

/-- The list of options does not end like one that a type follows. -/
def Ended (constraints : OrderedMap String String) : Prop :=
  ∀ options, constraints.get? oneOfConstraint = some options → ∀ type ∈ valueTypes,
    ¬ (",type=" ++ type).toList <:+ options.toList

/-- The parts of a question hold none of the signs that end them in its text. -/
def Delimited : Question → Prop
  | wh var predicate constraints => '.' ∉ var.toList ∧ '(' ∉ predicate.toList ∧ Ended constraints
  | yesNo predicate => '(' ∉ predicate.toList ∧ '\x7b' ∉ predicate.toList
  | alt predicate alternatives => '\x7b' ∉ predicate.toList ∧ ∀ a ∈ alternatives, '|' ∉ a.toList

/-- What stands before the first of a sign is known from the whole, and so is what stands after. -/
theorem cut_unique {c : Char} {x y s t : List Char} (left : c ∉ x) (right : c ∉ y)
    (same : x ++ c :: s = y ++ c :: t) : x = y ∧ s = t := by
  rcases List.append_eq_append_iff.mp same with ⟨gap, rfl, rest⟩ | ⟨gap, rfl, rest⟩ <;>
    cases gap <;> simp_all

/-! Constraints. -/

/-- Constraints as they pass the checks: a list of options, a type, both, or neither. -/
inductive Checked (constraints : OrderedMap String String) : Prop
  | free (entries : constraints.entries = [])
  | listed {options : String} (entries : constraints.entries = [(oneOfConstraint, options)])
  | typed {type : String} (known : type ∈ valueTypes)
      (entries : constraints.entries = [(typeConstraint, type)])
  | both {options type : String} (known : type ∈ valueTypes)
      (entries : constraints.entries = [(oneOfConstraint, options), (typeConstraint, type)])

theorem checked_of_faultless
    (faultless : ∀ c ∈ a.entries, constraintFault? predicate c.1 c.2 = none) : Checked a := by
  have names : ∀ c ∈ a.entries,
      c.1 = oneOfConstraint ∨ c.1 = typeConstraint ∧ c.2 ∈ valueTypes := by
    intro c member
    have fault := faultless c member
    unfold constraintFault? at fault
    grind
  -- the names ascend, so that the list of options stands first, if there is one, and the type last
  have type_last (c : String × String)
      (name : c.1 = oneOfConstraint ∨ c.1 = typeConstraint ∧ c.2 ∈ valueTypes) :
      compare typeConstraint c.1 ≠ .lt := by
    rcases name with name | ⟨name, _⟩ <;> rw [name] <;> decide
  have ascending := a.ascending
  match entries : a.entries with
  | [] => exact .free entries
  | [(name, value)] =>
    rcases names (name, value) (by simp [entries]) with rfl | ⟨rfl, known⟩
    · exact .listed entries
    · exact .typed known entries
  | (name, value) :: next :: rest =>
    simp only [entries, List.forall_mem_cons, List.pairwise_cons] at names ascending
    obtain ⟨first, second, later⟩ := names
    obtain ⟨⟨below, _⟩, above, _⟩ := ascending
    rcases first with rfl | ⟨rfl, _⟩
    · rcases second with same | ⟨last, known⟩
      · exact absurd (same ▸ below) (by decide)
      · cases rest with
        | nil => exact .both known (by rw [entries, ← last])
        | cons third rest =>
          have below : compare typeConstraint third.1 = .lt := last ▸ above third List.mem_cons_self
          exact absurd below (type_last third (later third List.mem_cons_self))
    · exact absurd below (type_last next second)

/-- No type holds a comma, so the last comma of the text stands before the type. -/
theorem options_of_type {x y t u : String} (known : t ∈ valueTypes) (other : u ∈ valueTypes)
    (same : x ++ "," ++ ("type=" ++ t) = y ++ "," ++ ("type=" ++ u)) : x = y ∧ t = u := by
  have comma : ∀ type ∈ valueTypes, ',' ∉ ("type=" ++ type).toList.reverse := by decide
  have backwards : ("type=" ++ t).toList.reverse ++ ',' :: x.toList.reverse =
      ("type=" ++ u).toList.reverse ++ ',' :: y.toList.reverse := by
    simpa using congrArg (fun s => s.toList.reverse) same
  obtain ⟨last, before⟩ := cut_unique (comma t known) (comma u other) backwards
  exact ⟨by simpa [String.toList_inj] using before, by simpa [String.toList_inj] using last⟩

theorem Ended.alone (ended : Ended a) {options type : String} (earlier : String)
    (known : type ∈ valueTypes) (entries : a.entries = [(oneOfConstraint, options)]) :
    options ≠ earlier ++ "," ++ ("type=" ++ type) := by
  intro same
  have listed : a.get? oneOfConstraint = some options := by simp [OrderedMap.get?, entries]
  exact ended options listed type known ⟨earlier.toList, by simp [same]⟩

theorem constraintText_inj (checkedA : Checked a) (checkedB : Checked b) (endedA : Ended a)
    (endedB : Ended b) (same : constraintText a = constraintText b) : a = b := by
  have names (x y : String) : "type=" ++ x ≠ "one_of=" ++ y := by
    intro same
    simpa using congrArg String.toList same
  apply OrderedMap.ext
  cases checkedA <;> cases checkedB <;>
    simp_all [constraintText, oneOfConstraint, typeConstraint]
  case listed.typed => exact names _ _ same.symm
  case listed.both _ earlier type entries known others =>
    exact endedA.alone earlier known entries (by simpa [String.append_assoc] using same)
  case typed.both => exact names _ _ (by simpa [String.append_assoc] using same)
  case both.listed earlier type _ known entries others =>
    exact endedB.alone earlier known others
      (by simpa [String.append_assoc] using same.symm)
  case both.typed => exact names _ _ (by simpa [String.append_assoc] using same.symm)
  case both.both => exact options_of_type ‹_› ‹_› (by simpa [String.append_assoc] using same)

/-! Texts. -/

theorem wording_wh : (wh var predicate a).wording.toList = '?' :: (var.toList ++ '.' ::
    (predicate.toList ++ '(' :: (var.toList ++ ')' :: (constraintText a).toList))) := by
  simp [wording]

theorem wording_yesNo : (yesNo predicate).wording.toList = '?' :: predicate.toList := by
  simp [wording]

theorem wording_alt : (alt predicate alternatives).wording.toList = '?' :: (predicate.toList ++
    '\x7b' :: (['|'].intercalate (alternatives.map String.toList) ++ ['\x7d'])) := by
  simp [wording]

/-- A question for a value and alternatives end in different signs, whatever their parts are. -/
theorem wording_wh_ne_alt : (wh var predicate a).wording ≠ (alt topic alternatives).wording := by
  have last (front : String) : (front ++ ")").toList.getLast? = some ')' ∧
      (front ++ "]").toList.getLast? = some ']' ∧
      (front ++ "\x7d").toList.getLast? = some '\x7d' := by
    simp
  intro same
  have ends := congrArg (fun s => s.toList.getLast?) same
  simp only [wording, constraintText, last] at ends
  split at ends
  · simp only [String.append_empty, last] at ends
    exact absurd ends (by decide)
  · simp only [← String.append_assoc, last] at ends
    exact absurd ends (by decide)

theorem eq_of_wording_yesNo (clear : (yesNo predicate).Delimited)
    (same : q.wording = (yesNo predicate).wording) : q = yesNo predicate := by
  have chars := congrArg String.toList same
  cases q with
  | wh var other constraints =>
    rw [wording_wh, wording_yesNo] at chars
    exact absurd clear.1 (by simp [← List.tail_eq_of_cons_eq chars])
  | yesNo other => simpa [wording, String.toList_inj] using chars
  | alt other alternatives =>
    rw [wording_alt, wording_yesNo] at chars
    exact absurd clear.2 (by simp [← List.tail_eq_of_cons_eq chars])

theorem eq_of_wording_wh {v p : String} (clearA : (wh var predicate a).Delimited)
    (clearB : (wh v p b).Delimited) (checkedA : Checked a) (checkedB : Checked b)
    (same : (wh var predicate a).wording = (wh v p b).wording) :
    wh var predicate a = wh v p b := by
  have chars := congrArg String.toList same
  rw [wording_wh, wording_wh, List.cons.injEq] at chars
  obtain ⟨vars, chars⟩ := cut_unique clearA.1 clearB.1 chars.2
  obtain ⟨predicates, chars⟩ := cut_unique clearA.2.1 clearB.2.1 chars
  rw [vars, List.append_cancel_left_eq, List.cons.injEq] at chars
  have constraints := constraintText_inj checkedA checkedB clearA.2.2 clearB.2.2
    (String.toList_inj.mp chars.2)
  rw [String.toList_inj.mp vars, String.toList_inj.mp predicates, constraints]

theorem eq_of_wording_alt (clear : (alt predicate alternatives).Delimited)
    (clearOther : (alt topic others).Delimited) (some : alternatives ≠ []) (someOther : others ≠ [])
    (same : (alt predicate alternatives).wording = (alt topic others).wording) :
    alt predicate alternatives = alt topic others := by
  have chars := congrArg String.toList same
  rw [wording_alt, wording_alt, List.cons.injEq] at chars
  obtain ⟨topics, chars⟩ := cut_unique clear.1 clearOther.1 chars.2
  have lists := congrArg (List.splitOn '|') (List.append_cancel_right chars)
  rw [List.splitOn_intercalate _ (by simpa using clear.2) (by simpa using some),
    List.splitOn_intercalate _ (by simpa using clearOther.2) (by simpa using someOther)] at lists
  have alternatives := List.map_injective_iff.mpr (fun _ _ => String.toList_inj.mp) lists
  rw [String.toList_inj.mp topics, alternatives]

theorem Built.checked (built : (Question.wh var predicate a).Built) : Checked a :=
  checked_of_faultless built.faultless

theorem Built.alternatives_ne_nil (built : (Question.alt predicate alternatives).Built) :
    alternatives ≠ [] := by
  rintro rfl
  simpa using built.alternatives.1

theorem eq_of_key (builtQ : q.Built) (builtR : r.Built) (clearQ : q.Delimited)
    (clearR : r.Delimited) (same : q.key = r.key) : q = r := by
  have same := QuestionKey.mk.inj same
  cases r with
  | yesNo => exact eq_of_wording_yesNo clearR same
  | wh =>
    cases q with
    | wh => exact eq_of_wording_wh clearQ clearR builtQ.checked builtR.checked same
    | yesNo => exact (eq_of_wording_yesNo clearQ same.symm).symm
    | alt => exact absurd same.symm wording_wh_ne_alt
  | alt =>
    cases q with
    | wh => exact absurd same wording_wh_ne_alt
    | yesNo => exact (eq_of_wording_yesNo clearQ same.symm).symm
    | alt =>
      exact eq_of_wording_alt clearQ clearR builtQ.alternatives_ne_nil builtR.alternatives_ne_nil
        same

/-- Among questions whose parts keep clear of the signs of the text, a key identifies its question,
and an answer that points to one by its key is not taken for another. -/
theorem key_identifies (builtQ : q.Built) (builtR : r.Built) (clearQ : q.Delimited)
    (clearR : r.Delimited) :
    (q.key = r.key → q = r) ∧ ∀ a : Answer, a.question = some q.key → q ≠ r →
      r.resolution a = none ∧ a.relevant r = false ∧ r.combines a = none ∧
        a.integrable r = false := by
  refine ⟨eq_of_key builtQ builtR clearQ clearR, fun a points differ => ?_⟩
  have elsewhere : a.addresses r = false := by
    have keys : q.key ≠ r.key := fun same => differ (eq_of_key builtQ builtR clearQ clearR same)
    simp [Answer.addresses, points, keys]
  have unsettled : r.resolution a = none := by simp [resolution, elsewhere]
  have irrelevant : a.relevant r = false := by simp [Answer.relevant, elsewhere]
  have whole : r.combines a = none := by
    cases listed : r.options <;> simp [combines, listed, elsewhere]
  exact ⟨unsettled, irrelevant, whole, by simp [Answer.integrable, Answer.resolves, *]⟩

def shadeValue : Question :=
  wh "x" "shade" (.ofList [("one_of", "red, dark|blue"), ("type", "text")])
def shadeChoice : Question := alt "shade" ["red, dark", "blue"]

theorem shades_identified : shadeChoice.Built ∧ shadeValue.Built ∧ shadeChoice.Delimited ∧
    shadeValue.Delimited ∧
    ((Answer.short (.text "blue")).addressing shadeChoice.key).integrable shadeValue = false := by
  have builtChoice : shadeChoice.Built :=
    @Built.alt _ "shade" ["red, dark", "blue"] (by decide +kernel)
  have builtValue : shadeValue.Built :=
    @Built.wh _ "x" "shade" [("one_of", "red, dark|blue"), ("type", "text")] (by decide +kernel)
  have clearChoice : shadeChoice.Delimited := ⟨by decide, by decide⟩
  have clearValue : shadeValue.Delimited := by
    refine ⟨by decide, by decide, fun options listed => ?_⟩
    cases listed
    decide
  obtain ⟨-, elsewhere⟩ := key_identifies builtChoice builtValue clearChoice clearValue
  have points :=
    elsewhere ((Answer.short (.text "blue")).addressing shadeChoice.key) rfl (by decide)
  exact ⟨builtChoice, builtValue, clearChoice, clearValue, points.2.2.2⟩

/-- Two questions may share a key. An answer that points to a choice of two drinks is taken for a
choice of three, as one of the two holds the sign between alternatives; and an answer that points to
a question for a value is taken for the question whether something is so. -/
theorem key_shared :
    buildAlt defaultTopic ["tea|coffee", "water"] = .ok (alt "choice" ["tea|coffee", "water"]) ∧
      buildAlt defaultTopic ["tea", "coffee", "water"] =
        .ok (alt "choice" ["tea", "coffee", "water"]) ∧
      (alt "choice" ["tea|coffee", "water"]).key = (alt "choice" ["tea", "coffee", "water"]).key ∧
      ((Answer.short (.text "water")).addressing
        (alt "choice" ["tea|coffee", "water"]).key).integrable
          (alt "choice" ["tea", "coffee", "water"]) = true ∧
      buildWh "x" "late" [] = .ok (wh "x" "late" ∅) ∧
      buildYesNo "x.late(x)" = .ok (yesNo "x.late(x)") ∧
      (wh "x" "late" ∅).key = (yesNo "x.late(x)").key ∧
      ((Answer.short (.bool true)).addressing (wh "x" "late" ∅).key).integrable
        (yesNo "x.late(x)") = true := by
  decide +kernel

end Dialogue.Question
