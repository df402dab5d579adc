import Dialogue.Proofs.Datum
import Dialogue.Proofs.Token

/-!
JSON texts are read as the trees they were written from. What a text for a tree looks like is said
by a grammar, which leaves open where blanks stand. Both layouts follow the grammar, and the reader
takes any text of the grammar as its tree, whatever stands around it.
-/
namespace Dialogue.Json

variable {s t : List Char} {c : Char}

/-! The grammar. -/

def Gap (s t : List Char) : Prop :=
  ∃ blanks : List Char, blanks.all isSpace = true ∧ s = blanks ++ t

def quotedChars (x : String) : List Char := '"' :: x.toList.flatMap escaped ++ ['"']

theorem quotedChars_append (x : String) :
    quotedChars x ++ t = '"' :: (x.toList.flatMap escaped ++ '"' :: t) := by
  simp [quotedChars]

mutual

/-- A text for a tree stands at the front of `s`, and `t` is left after it. -/
inductive Writes : Datum → List Char → List Char → Prop
  | null {t : List Char} : Writes .null ('n' :: 'u' :: 'l' :: 'l' :: t) t
  | yes {t : List Char} : Writes (.bool true) ('t' :: 'r' :: 'u' :: 'e' :: t) t
  | no {t : List Char} : Writes (.bool false) ('f' :: 'a' :: 'l' :: 's' :: 'e' :: t) t
  | number {d : Datum} {l : Literal} {c : Char} {s t : List Char}
      (read : literal? (c :: s ++ t) = some (l, t)) (stands : l.toDatum? = some d) :
      Writes d (c :: s ++ t) t
  | text {x : String} {t : List Char} : Writes (.text x) (quotedChars x ++ t) t
  | emptyList {s t : List Char} (gap : Gap s (']' :: t)) : Writes (.list []) ('[' :: s) t
  | list {x : Datum} {xs : List Datum} {s s₁ s₂ t : List Char} (gap : Gap s s₁)
      (first : Writes x s₁ s₂) (more : WritesItems xs s₂ t) : Writes (.list (x :: xs)) ('[' :: s) t
  | emptyRecord {s t : List Char} (gap : Gap s ('\x7d' :: t)) : Writes (.record []) ('\x7b' :: s) t
  | record {name : String} {x : Datum} {fields : List (String × Datum)} {s s₁ s₂ s₃ t : List Char}
      (gap : Gap s (quotedChars name ++ ':' :: s₁)) (colon : Gap s₁ s₂) (first : Writes x s₂ s₃)
      (more : WritesFields fields s₃ t) : Writes (.record ((name, x) :: fields)) ('\x7b' :: s) t

inductive WritesItems : List Datum → List Char → List Char → Prop
  | close {s t : List Char} (gap : Gap s (']' :: t)) : WritesItems [] s t
  | more {x : Datum} {xs : List Datum} {s s₁ s₂ t : List Char} (gap : Gap s s₁)
      (next : Writes x s₁ s₂) (more : WritesItems xs s₂ t) : WritesItems (x :: xs) (',' :: s) t

inductive WritesFields : List (String × Datum) → List Char → List Char → Prop
  | close {s t : List Char} (gap : Gap s ('\x7d' :: t)) : WritesFields [] s t
  | more {name : String} {x : Datum} {fields : List (String × Datum)} {s s₁ s₂ s₃ t : List Char}
      (gap : Gap s (quotedChars name ++ ':' :: s₁)) (colon : Gap s₁ s₂) (next : Writes x s₂ s₃)
      (more : WritesFields fields s₃ t) : WritesFields ((name, x) :: fields) (',' :: s) t

end

/-! Reading texts of the grammar. -/

theorem Gap.refl (s : List Char) : Gap s s := ⟨[], rfl, rfl⟩

theorem Gap.length (gap : Gap s t) : t.length ≤ s.length := by
  obtain ⟨blanks, _, rfl⟩ := gap
  simp

theorem Gap.skipSpace (gap : Gap s (c :: t)) (solid : isSpace c = false) :
    skipSpace s = c :: t := by
  obtain ⟨blanks, blank, rfl⟩ := gap
  rw [Json.skipSpace, List.dropWhile_append_of_pos (List.all_eq_true.mp blank)]
  simp [solid]

structure Opens (c : Char) : Prop where
  solid : isSpace c = false
  noList : c ≠ ']'

theorem Opens.of_number (front : c = '-' ∨ c.isDigit = true) : Opens c := by
  rcases front with rfl | digit
  · exact ⟨by decide, by decide⟩
  · have other (x : Char) (no : x.isDigit = false) : c ≠ x := by
      rintro rfl
      simp [digit] at no
    refine ⟨?_, other _ (by decide)⟩
    simp [isSpace, other ' ' (by decide), other '\n' (by decide), other '\t' (by decide),
      other '\r' (by decide)]

theorem Writes.opens {d : Datum} (h : Writes d s t) : ∃ c rest, s = c :: rest ∧ Opens c := by
  cases h with
  | number read =>
    obtain ⟨c, rest, shape, front⟩ := literal?_head read
    exact ⟨c, rest, shape, .of_number front⟩
  | _ => exact ⟨_, _, rfl, by decide, by decide⟩

theorem keyword?_append (word : String) : keyword? word (word.toList ++ t) = some t := by
  simp [keyword?, ← String.length_toList]

theorem value_number {fuel depth : Nat} {l : Literal} {s' : List Char} (skips : skipSpace s' = s)
    (read : literal? s = some (l, t)) :
    value (fuel + 1) depth s' = some (l.toDatum?.getD .meaningless, t) := by
  obtain ⟨c, rest, rfl, front⟩ := literal?_head read
  have other (x : Char) (no : x ≠ '-' ∧ x.isDigit = false) : c ≠ x := by
    rintro rfl
    simp [no] at front
  have quote := other '"' (by decide)
  have array := other '[' (by decide)
  have object := other '\x7b' (by decide)
  have null := other 'n' (by decide)
  have yes := other 't' (by decide)
  have no := other 'f' (by decide)
  rw [value, skips]
  split <;> simp_all

theorem value_list {fuel depth : Nat} {s' : List Char} (skips : skipSpace s = '[' :: s')
    (next : skipSpace s' = c :: t) (item : c ≠ ']') (shallow : depth + 1 < maxDepth) :
    value (fuel + 1) depth s =
      (items fuel (depth + 1) (c :: t)).map fun (xs, s) => (.list xs, s) := by
  simp only [value, skips, if_pos shallow, next]
  split <;> simp_all

theorem value_record {fuel depth : Nat} {s' : List Char} (skips : skipSpace s = '\x7b' :: s')
    (next : skipSpace s' = c :: t) (member : c ≠ '\x7d') (shallow : depth + 1 < maxDepth) :
    value (fuel + 1) depth s =
      (members fuel (depth + 1) (c :: t)).map fun (ms, s) => (object ms, s) := by
  simp only [value, skips, if_pos shallow, next]
  split <;> simp_all

theorem object_some (fields : List (String × Datum)) :
    object (fields.map fun f => (some f.1, f.2)) = .record fields := by
  have names : (fields.map fun f => (some f.1, f.2)).mapM (fun m => m.1.map (·, m.2)) =
      some fields := by
    induction fields with
    | nil => rfl
    | cons f fields ih => simp [ih]
  simp [object, names]

theorem length_escaped (chars : List Char) : chars.length ≤ (chars.flatMap escaped).length := by
  induction chars with
  | nil => simp
  | cons c chars ih =>
    have some : 1 ≤ (escaped c).length := by
      unfold escaped
      split
      iterate 7 simp
      split <;> simp
    simp only [List.flatMap_cons, List.length_cons, List.length_append]
    omega

structure Reads (fuel : Nat) : Prop where
  value {numbers : Numbers} {n depth : Nat} {d : Datum} {s s₁ t : List Char} :
    d.Fits numbers n → depth + n < maxDepth → Gap s s₁ → Writes d s₁ t → 2 * s.length ≤ fuel →
      value fuel depth s = some (d, t) ∧ t.length < s.length
  items {numbers : Numbers} {n depth : Nat} {x : Datum} {xs : List Datum}
      {s s₁ s₂ t : List Char} :
    (∀ d ∈ x :: xs, d.Fits numbers n) → depth + n < maxDepth → Gap s s₁ → Writes x s₁ s₂ →
      WritesItems xs s₂ t → 2 * s.length + 1 ≤ fuel →
      items fuel depth s = some (x :: xs, t) ∧ t.length < s.length
  members {numbers : Numbers} {n depth : Nat} {name : String} {x : Datum}
      {fields : List (String × Datum)} {s s₁ s₂ s₃ t : List Char} :
    (∀ f ∈ (name, x) :: fields, f.2.Fits numbers n) → depth + n < maxDepth →
      Gap s (quotedChars name ++ ':' :: s₁) → Gap s₁ s₂ → Writes x s₂ s₃ →
      WritesFields fields s₃ t → 2 * s.length + 1 ≤ fuel →
      members fuel depth s = some (((name, x) :: fields).map fun f => (some f.1, f.2), t) ∧
        t.length < s.length

theorem value_reads {numbers : Numbers} {fuel n depth : Nat} {d : Datum} {s₁ : List Char}
    (ih : Reads fuel) (fits : d.Fits numbers n) (shallow : depth + n < maxDepth) (gap : Gap s s₁)
    (writes : Writes d s₁ t) (enough : 2 * s.length ≤ fuel + 1) :
    value (fuel + 1) depth s = some (d, t) ∧ t.length < s.length := by
  obtain ⟨c, rest, shape, opens⟩ := writes.opens
  have skips : skipSpace s = s₁ := by
    rw [shape] at gap ⊢
    exact gap.skipSpace opens.solid
  have shorter := gap.length
  cases writes with
  | null =>
    have word : keyword? "ull" ('u' :: 'l' :: 'l' :: t) = some t := keyword?_append "ull"
    exact ⟨by simp [value, skips, word], by simp only [List.length_cons] at shorter; omega⟩
  | yes =>
    have word : keyword? "rue" ('r' :: 'u' :: 'e' :: t) = some t := keyword?_append "rue"
    exact ⟨by simp [value, skips, word], by simp only [List.length_cons] at shorter; omega⟩
  | no =>
    have word : keyword? "alse" ('a' :: 'l' :: 's' :: 'e' :: t) = some t := keyword?_append "alse"
    exact ⟨by simp [value, skips, word], by simp only [List.length_cons] at shorter; omega⟩
  | number read stands =>
    simp only [List.length_append, List.length_cons] at shorter
    exact ⟨by simp [value_number skips read, stands], by omega⟩
  | @text x t =>
    have chars := length_escaped x.toList
    rw [quotedChars_append] at skips shorter
    simp only [List.length_cons, List.length_append] at shorter
    have body := stringBody_quoted fuel x t (by omega)
    exact ⟨by simp [value, skips, body], by omega⟩
  | @emptyList s₂ t inner =>
    have depthOk : depth + 1 < maxDepth := by cases fits; omega
    have close := inner.skipSpace (by decide)
    have inside := inner.length
    simp only [List.length_cons] at shorter inside
    exact ⟨by simp [value, skips, depthOk, close], by omega⟩
  | @list x xs s₂ s₃ s₄ t inner first more =>
    cases fits with | @list n _ fit => ?_
    obtain ⟨c, rest, rfl, opens⟩ := first.opens
    have inside := inner.length
    simp only [List.length_cons] at shorter inside
    have deeper : depth + 1 + n < maxDepth := by omega
    obtain ⟨read, left⟩ := ih.items fit deeper (.refl _) first more
      (by simp only [List.length_cons]; omega)
    simp only [List.length_cons] at left
    refine ⟨?_, by omega⟩
    rw [value_list skips (inner.skipSpace opens.solid) opens.noList (by omega), read]
    rfl
  | @emptyRecord s₂ t inner =>
    have depthOk : depth + 1 < maxDepth := by cases fits; omega
    have close := inner.skipSpace (by decide)
    have inside := inner.length
    simp only [List.length_cons] at shorter inside
    exact ⟨by simp [value, skips, depthOk, close], by omega⟩
  | @record name x fields s₂ s₃ s₄ s₅ t inner colon first more =>
    cases fits with | @record n _ fit => ?_
    have inside := inner.length
    simp only [List.length_cons] at shorter
    have deeper : depth + 1 + n < maxDepth := by omega
    obtain ⟨read, left⟩ := ih.members fit deeper (.refl _) colon first more (by omega)
    refine ⟨?_, by omega⟩
    rw [quotedChars_append] at inner read
    rw [value_record skips (inner.skipSpace (by decide)) (by decide) (by omega), read]
    simp only [Option.map_some, object_some]

theorem items_read {numbers : Numbers} {fuel n depth : Nat} {x : Datum} {xs : List Datum}
    {s₁ s₂ : List Char} (ih : Reads fuel) (fit : ∀ d ∈ x :: xs, d.Fits numbers n)
    (shallow : depth + n < maxDepth) (gap : Gap s s₁) (first : Writes x s₁ s₂)
    (more : WritesItems xs s₂ t) (enough : 2 * s.length + 1 ≤ fuel + 1) :
    items (fuel + 1) depth s = some (x :: xs, t) ∧ t.length < s.length := by
  obtain ⟨fits, others⟩ := List.forall_mem_cons.mp fit
  obtain ⟨read, shorter⟩ := ih.value fits shallow gap first (by omega)
  cases more with
  | close inner =>
    have inside := inner.length
    simp only [List.length_cons] at inside
    exact ⟨by simp [items, read, inner.skipSpace (by decide)], by omega⟩
  | @more y ys s₃ s₄ s₅ t inner next more =>
    simp only [List.length_cons] at shorter
    obtain ⟨rest, left⟩ := ih.items others shallow inner next more (by omega)
    have comma : skipSpace (',' :: s₃) = ',' :: s₃ := (Gap.refl _).skipSpace (by decide)
    exact ⟨by simp [items, read, comma, rest], by omega⟩

theorem members_read {numbers : Numbers} {fuel n depth : Nat} {name : String} {x : Datum}
    {fields : List (String × Datum)} {s₁ s₂ s₃ : List Char} (ih : Reads fuel)
    (fit : ∀ f ∈ (name, x) :: fields, f.2.Fits numbers n) (shallow : depth + n < maxDepth)
    (gap : Gap s (quotedChars name ++ ':' :: s₁)) (colon : Gap s₁ s₂) (first : Writes x s₂ s₃)
    (more : WritesFields fields s₃ t) (enough : 2 * s.length + 1 ≤ fuel + 1) :
    members (fuel + 1) depth s = some (((name, x) :: fields).map fun f => (some f.1, f.2), t) ∧
      t.length < s.length := by
  obtain ⟨fits, others⟩ := List.forall_mem_cons.mp fit
  rw [quotedChars_append] at gap
  have quote := gap.skipSpace (by decide)
  have chars := length_escaped name.toList
  have outside := gap.length
  simp only [List.length_cons, List.length_append] at outside
  have body := stringBody_quoted fuel name (':' :: s₁) (by omega)
  have mark : skipSpace (':' :: s₁) = ':' :: s₁ := (Gap.refl _).skipSpace (by decide)
  obtain ⟨read, shorter⟩ := ih.value fits shallow colon first (by omega)
  cases more with
  | close inner =>
    have inside := inner.length
    simp only [List.length_cons] at inside
    exact ⟨by simp [members, quote, body, mark, read, inner.skipSpace (by decide)], by omega⟩
  | @more other y fields s₄ s₅ s₆ s₇ t inner colon next more =>
    simp only [List.length_cons] at shorter
    obtain ⟨rest, left⟩ := ih.members others shallow inner colon next more (by omega)
    have comma : skipSpace (',' :: s₄) = ',' :: s₄ := (Gap.refl _).skipSpace (by decide)
    exact ⟨by simp [members, quote, body, mark, read, comma, rest], by omega⟩

/-- The induction is on the fuel, which each of the three readers spends on the others. -/
theorem reads (fuel : Nat) : Reads fuel := by
  induction fuel with
  | zero =>
    refine ⟨fun _ _ gap writes enough => ?_, by omega, by omega⟩
    obtain ⟨c, rest, rfl, _⟩ := writes.opens
    have := gap.length
    simp only [List.length_cons] at this
    omega
  | succ fuel ih =>
    exact ⟨value_reads ih, items_read ih, members_read ih⟩

/-! Writing texts of the grammar. -/

/-- Numbers that are read as they were written: integers of 64 bits, signed or not, and the real
numbers that the reader gets back from their texts. -/
def writable : Numbers where
  ints i := -0x8000000000000000 ≤ i ∧ i ≤ 0xFFFFFFFFFFFFFFFF
  reals := Exact

theorem Ends.nil : Ends [] := nofun

theorem Ends.cons (h : c.isDigit = false ∧ c ≠ '.' ∧ c ≠ 'e' ∧ c ≠ 'E') : Ends (c :: t) := by
  intro c' front
  cases front
  exact h

theorem Gap.ends (gap : Gap s t) (ends : Ends t) : Ends s := by
  obtain ⟨blanks, blank, rfl⟩ := gap
  cases blanks with
  | nil => exact ends
  | cons c blanks =>
    refine .cons ?_
    simp only [List.all_cons, Bool.and_eq_true, isSpace, Bool.or_eq_true, beq_iff_eq] at blank
    obtain ⟨((rfl | rfl) | rfl) | rfl, _⟩ := blank <;> decide

theorem WritesItems.ends {xs : List Datum} (h : WritesItems xs s t) : Ends s := by
  cases h with
  | close gap => exact gap.ends (.cons (by decide))
  | more => exact .cons (by decide)

theorem WritesFields.ends {fields : List (String × Datum)} (h : WritesFields fields s t) :
    Ends s := by
  cases h with
  | close gap => exact gap.ends (.cons (by decide))
  | more => exact .cons (by decide)

theorem Writes.of_literal {d : Datum} {l : Literal} (read : literal? s = some (l, []))
    (stands : l.toDatum? = some d) (ends : Ends t) : Writes d (s ++ t) t := by
  obtain ⟨c, rest, rfl, _⟩ := literal?_head read
  exact .number (literal?_append read ends) stands

theorem quoted_toList (x : String) : (quoted x).toList = quotedChars x := by
  simp [quoted, quotedChars]

/-- The text of a tree without parts follows the grammar. -/
theorem leafText_writes {n : Nat} {d : Datum} (fits : d.Fits writable n) (ends : Ends t)
    (noItems : ∀ x xs, d ≠ .list (x :: xs)) (noFields : ∀ f fields, d ≠ .record (f :: fields)) :
    Writes d ((leafText d).toList ++ t) t := by
  cases fits with
  | null => exact .null
  | @bool _ b => cases b <;> [exact .no; exact .yes]
  | int range =>
    obtain ⟨l, read, stands⟩ := literal?_int range.1 range.2
    exact .of_literal read stands ends
  | real kept =>
    obtain ⟨l, read, stands⟩ := kept.literal
    exact .of_literal read stands ends
  | @text _ x =>
    rw [leafText, quoted_toList]
    exact .text
  | @list _ items =>
    cases items with
    | nil => exact .emptyList (.refl _)
    | cons x xs => exact absurd rfl (noItems x xs)
  | @record _ fields =>
    cases fields with
    | nil => exact .emptyRecord (.refl _)
    | cons f fields => exact absurd rfl (noFields f fields)

section

variable (write : Datum → List Char) {before colon after : List Char}
  (blankBefore : before.all isSpace = true) (blankColon : colon.all isSpace = true)
  (blankAfter : after.all isSpace = true)
include blankBefore blankAfter

theorem items_write {xs : List Datum}
    (each : ∀ x ∈ xs, ∀ t, Ends t → Writes x (write x ++ t) t) :
    WritesItems xs (xs.flatMap (fun x => ',' :: (before ++ write x)) ++ (after ++ ']' :: t)) t := by
  induction xs with
  | nil => exact .close ⟨after, blankAfter, rfl⟩
  | cons x xs ih =>
    obtain ⟨first, others⟩ := List.forall_mem_cons.mp each
    have more := ih others
    simp only [List.flatMap_cons, List.append_assoc, List.cons_append]
    exact .more ⟨before, blankBefore, rfl⟩ (first _ more.ends) more

/-- An array is written by its elements, whatever blanks stand between them. -/
theorem list_writes {x : Datum} {xs : List Datum}
    (each : ∀ d ∈ x :: xs, ∀ t, Ends t → Writes d (write d ++ t) t) :
    Writes (.list (x :: xs)) ('[' :: (before ++ (write x ++
      (xs.flatMap (fun x => ',' :: (before ++ write x)) ++ (after ++ ']' :: t))))) t := by
  obtain ⟨first, others⟩ := List.forall_mem_cons.mp each
  have more := items_write (t := t) write blankBefore blankAfter others
  exact .list ⟨before, blankBefore, rfl⟩ (first _ more.ends) more

include blankColon

theorem fields_write {fields : List (String × Datum)}
    (each : ∀ f ∈ fields, ∀ t, Ends t → Writes f.2 (write f.2 ++ t) t) :
    WritesFields fields (fields.flatMap (fun f =>
      ',' :: (before ++ (quotedChars f.1 ++ ':' :: (colon ++ write f.2)))) ++
        (after ++ '\x7d' :: t)) t := by
  induction fields with
  | nil => exact .close ⟨after, blankAfter, rfl⟩
  | cons f fields ih =>
    obtain ⟨first, others⟩ := List.forall_mem_cons.mp each
    have more := ih others
    simp only [List.flatMap_cons, List.append_assoc, List.cons_append]
    exact .more ⟨before, blankBefore, rfl⟩ ⟨colon, blankColon, rfl⟩ (first _ more.ends) more

/-- An object is written by its members, whatever blanks stand between them. -/
theorem record_writes {f : String × Datum} {fields : List (String × Datum)}
    (each : ∀ g ∈ f :: fields, ∀ t, Ends t → Writes g.2 (write g.2 ++ t) t) :
    Writes (.record (f :: fields)) ('\x7b' :: (before ++ (quotedChars f.1 ++ ':' :: (colon ++
      (write f.2 ++ (fields.flatMap (fun f =>
        ',' :: (before ++ (quotedChars f.1 ++ ':' :: (colon ++ write f.2)))) ++
          (after ++ '\x7d' :: t))))))) t := by
  obtain ⟨first, others⟩ := List.forall_mem_cons.mp each
  have more := fields_write (t := t) write blankBefore blankColon blankAfter others
  exact .record ⟨before, blankBefore, rfl⟩ ⟨colon, blankColon, rfl⟩ (first _ more.ends) more

end

theorem compactItems_toList (xs : List Datum) :
    (compactItems xs).toList = xs.flatMap fun x => ',' :: ([] ++ (compact x).toList) := by
  induction xs with
  | nil => rfl
  | cons x xs ih => simp [compactItems, ih]

theorem compactFields_toList (fields : List (String × Datum)) : (compactFields fields).toList =
    fields.flatMap fun f =>
      ',' :: ([] ++ (quotedChars f.1 ++ ':' :: ([] ++ (compact f.2).toList))) := by
  induction fields with
  | nil => rfl
  | cons f fields ih => simp [compactFields, ih, quoted_toList]

theorem indentedItems_toList (level : Nat) (xs : List Datum) :
    (indentedItems level xs).toList =
      xs.flatMap fun x => ',' :: ((newLine level).toList ++ (indented level x).toList) := by
  induction xs with
  | nil => rfl
  | cons x xs ih => simp [indentedItems, ih]

theorem indentedFields_toList (level : Nat) (fields : List (String × Datum)) :
    (indentedFields level fields).toList = fields.flatMap fun f => ',' :: ((newLine level).toList ++
      (quotedChars f.1 ++ ':' :: ([' '] ++ (indented level f.2).toList))) := by
  induction fields with
  | nil => rfl
  | cons f fields ih => simp [indentedFields, ih, quoted_toList]

theorem newLine_blank (level : Nat) : (newLine level).toList.all isSpace = true := by
  simp [newLine, isSpace]

variable {n : Nat} {d : Datum}

/-- The text on one line follows the grammar. -/
theorem compact_writes (fits : d.Fits writable n) (ends : Ends t) :
    Writes d ((compact d).toList ++ t) t := by
  have blank : ([] : List Char).all isSpace = true := rfl
  induction fits generalizing t with
  | @list n items fit ih =>
    cases items with
    | nil => exact leafText_writes (.list fit) ends nofun nofun
    | cons x xs =>
      have writes := list_writes (t := t) (fun d => (compact d).toList) blank blank
        fun d member t ends => ih d member ends
      simpa [compact, compactItems_toList] using writes
  | @record n fields fit ih =>
    cases fields with
    | nil => exact leafText_writes (.record fit) ends nofun nofun
    | cons f fields =>
      have writes := record_writes (t := t) (fun d => (compact d).toList) blank blank blank
        fun g member t ends => ih g member ends
      simpa [compact, compactFields_toList, quoted_toList] using writes
  | _ => exact leafText_writes (n := 0) (by constructor <;> assumption) ends nofun nofun

/-- The text over several lines follows the grammar. -/
theorem indented_writes (fits : d.Fits writable n) (level : Nat) (ends : Ends t) :
    Writes d ((indented level d).toList ++ t) t := by
  have blank : [' '].all isSpace = true := by decide
  induction fits generalizing t level with
  | @list n items fit ih =>
    cases items with
    | nil => exact leafText_writes (.list fit) ends nofun nofun
    | cons x xs =>
      have writes := list_writes (t := t) (fun d => (indented (level + 1) d).toList)
        (newLine_blank (level + 1)) (newLine_blank level)
        fun d member t ends => ih d member (level + 1) ends
      simpa [indented, indentedItems_toList] using writes
  | @record n fields fit ih =>
    cases fields with
    | nil => exact leafText_writes (.record fit) ends nofun nofun
    | cons f fields =>
      have writes := record_writes (t := t) (fun d => (indented (level + 1) d).toList)
        (newLine_blank (level + 1)) blank (newLine_blank level)
        fun g member t ends => ih g member (level + 1) ends
      simpa [indented, indentedFields_toList, quoted_toList] using writes
  | _ => exact leafText_writes (n := 0) (by constructor <;> assumption) ends nofun nofun

theorem parse?_of_writes {text : String} {numbers : Numbers} (fits : d.Fits numbers n)
    (shallow : n < maxDepth) (writes : Writes d text.toList []) : parse? text = some d := by
  have shallow : 0 + n < maxDepth := by omega
  obtain ⟨read, _⟩ := (reads (2 * text.toList.length + 2)).value fits shallow (.refl _) writes
    (by omega)
  simp only [parse?, read, Option.bind_eq_bind, Option.bind_some, skipSpace, List.dropWhile_nil,
    if_true]

/-- A tree is read back from its text on one line. -/
theorem parse?_compact (fits : d.Fits writable n) (shallow : n < maxDepth) :
    parse? (compact d) = some d :=
  parse?_of_writes fits shallow (by simpa using compact_writes fits .nil)

/-- A tree is read back from its text over several lines. -/
theorem parse?_pretty (fits : d.Fits writable n) (shallow : n < maxDepth) :
    parse? (pretty d) = some d :=
  parse?_of_writes fits shallow (by simpa [pretty] using indented_writes fits 0 .nil)

end Dialogue.Json
