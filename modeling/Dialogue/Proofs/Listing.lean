import Dialogue.Language.Templates
import Dialogue.Proofs.Casing
import Dialogue.Proofs.Residual

/-!
How alternatives are put to the user. They are all named: by the phrase for their topic, if it names
every one of them, and else in a list, in their order. What one answer after the other leaves of a
question is put under the phrase of that question, so the same holds of every residual.
-/
namespace Dialogue

namespace Text

variable {s t : List Char} {c : Char}

/-- Below 128, capitals are made of small letters alone. -/
theorem toUpper_below (below : c.toNat < 0x80) :
    c.toUpper.toNat < 0x80 ∧ c.toUpper.toLower = c.toLower := by
  have each : ∀ n < 0x80, (Char.ofNat n).toUpper.toNat < 0x80 ∧
      (Char.ofNat n).toUpper.toLower = (Char.ofNat n).toLower := by decide +kernel
  simpa using each c.toNat below

/-- A part below 128 stands in the lower case of a text, whatever is around it. -/
theorem lowerChars_infix (ascii : Ascii s) (inside : s <:+: t) :
    lowerChars s <:+: lowerChars t := by
  obtain ⟨front, behind, rfl⟩ := inside
  obtain ⟨image, lower, -, -⟩ := lowerAfter_append [] front (s ++ behind)
  rw [lowerChars_ascii ascii, lowerChars, List.append_assoc, lower, lowerAfter_ascii_append ascii]
  exact List.infix_append' ..

/-- A capital at the front does not show in lower case. -/
theorem lowerChars_capital (ascii : Ascii (c :: s)) :
    lowerChars (c.toUpper :: s) = lowerChars (c :: s) := by
  obtain ⟨below, others⟩ := List.forall_mem_cons.mp ascii
  obtain ⟨still, same⟩ := toUpper_below below
  have capital : Ascii (c.toUpper :: s) := List.forall_mem_cons.mpr ⟨still, others⟩
  rw [lowerChars_ascii ascii, lowerChars_ascii capital, List.map_cons, List.map_cons, same]

theorem toList_capitalise {text : String} (begins : text.toList = c :: s)
    (below : c.toNat < 0x80) : (capitalise text).toList = c.toUpper :: s := by
  simp [capitalise, begins, capitaliseChars, upperChar, below]

end Text

namespace Templates

variable {items alternatives : List String} {text phrase : String}

/-- The text lists two items or more in their order, with commas between them and "or" before the
last. -/
inductive Enumerates : List String → String → Prop
  | pair (a b : String) : Enumerates [a, b] (a ++ " or " ++ b)
  | cons (a : String) {items : List String} {text : String} (h : Enumerates items text) :
      Enumerates (a :: items) (a ++ ", " ++ text)

theorem orList_cons (several : 2 ≤ items.length) (a : String) :
    orList (a :: items) = a ++ ", " ++ orList items := by
  have nonempty : items ≠ [] := List.ne_nil_of_length_pos (by omega)
  have front : items.dropLast ≠ [] := List.ne_nil_of_length_pos (by simp; omega)
  have last := List.getLast?_eq_some_getLast nonempty
  obtain ⟨b, more, split⟩ := List.exists_cons_of_ne_nil front
  simp only [orList, List.dropLast_cons_of_ne_nil nonempty, List.getLast?_cons_of_ne_nil nonempty,
    last, split, String.intercalate_cons_cons, String.append_assoc]

/-- Two items or more are listed, none of them left out. -/
theorem enumerates_orList (several : 2 ≤ items.length) : Enumerates items (orList items) := by
  induction items with
  | nil => simp at several
  | cons a items ih =>
    match items, several with
    | [b], _ =>
      have text : orList [a, b] = a ++ " or " ++ b := by simp [orList]
      exact text ▸ .pair a b
    | b :: c :: more, _ =>
      rw [orList_cons (by simp) a]
      exact .cons a (ih (by simp))

theorem Enumerates.infix (h : Enumerates items text) :
    ∀ a ∈ items, a.toList <:+: text.toList := by
  induction h with
  | pair a b =>
    simp only [List.forall_mem_cons, String.toList_append]
    exact ⟨(List.prefix_append _ _).isInfix.trans (List.prefix_append _ _).isInfix,
      (List.suffix_append _ _).isInfix, by simp⟩
  | cons a h ih =>
    simp only [List.forall_mem_cons, String.toList_append]
    exact ⟨(List.prefix_append _ _).isInfix.trans (List.prefix_append _ _).isInfix,
      fun b member => (ih b member).trans (List.suffix_append _ _).isInfix⟩

theorem Enumerates.ascii (h : Enumerates items text) (ascii : ∀ a ∈ items, Text.Ascii a.toList) :
    Text.Ascii text.toList := by
  have or : Text.Ascii " or ".toList := by decide
  have comma : Text.Ascii ", ".toList := by decide
  induction h with
  | pair a b =>
    obtain ⟨first, second, -⟩ := by simpa only [List.forall_mem_cons] using ascii
    rw [String.toList_append, String.toList_append]
    exact (first.append or).append second
  | cons a h ih =>
    obtain ⟨first, others⟩ := List.forall_mem_cons.mp ascii
    rw [String.toList_append, String.toList_append]
    exact (first.append comma).append (ih others)

theorem Enumerates.nonempty (h : Enumerates items text) : text.toList ≠ [] := by
  cases h <;> simp

theorem namesAll_iff : namesAll phrase alternatives = true ↔
    ∀ a ∈ alternatives, Text.lowerChars a.toList <:+: Text.lowerChars phrase.toList := by
  simp [namesAll, Text.occursIn_iff]

/-- The text for alternatives under the phrase of their topic, if there is one. -/
structure Puts (phrase? : Option String) (alternatives : List String) (text : String) : Prop where
  /-- Every alternative is named, in any case. -/
  names : ∀ a ∈ alternatives, Text.lowerChars a.toList <:+: Text.lowerChars text.toList
  /-- The phrase stands alone if it names them all. -/
  alone : ∀ p, phrase? = some p →
    (∀ a ∈ alternatives, Text.lowerChars a.toList <:+: Text.lowerChars p.toList) → text = p
  /-- The alternatives are listed behind a phrase that does not name them all. -/
  behind : ∀ p, phrase? = some p →
    (∃ a ∈ alternatives, ¬Text.lowerChars a.toList <:+: Text.lowerChars p.toList) →
    ∃ listing, Enumerates alternatives listing ∧
      text = withoutQuestionMarks p ++ ": " ++ listing ++ "?"
  /-- Without a phrase, the list begins with a capital. -/
  bare : phrase? = none → ∃ (listing : String) (first : Char) (rest : List Char),
    Enumerates alternatives listing ∧ listing.toList = first :: rest ∧
      text.toList = first.toUpper :: rest ++ ['?']

/-- Two alternatives or more are put to the user with every one of them named. -/
theorem puts_renderAlternatives (several : 2 ≤ alternatives.length)
    (ascii : ∀ a ∈ alternatives, Text.Ascii a.toList) (phrase? : Option String) :
    Puts phrase? alternatives (renderAlternatives phrase? alternatives) := by
  have lists := enumerates_orList several
  have inside := lists.infix
  cases phrase? with
  | some p =>
    by_cases all : namesAll p alternatives = true
    · have text : renderAlternatives (some p) alternatives = p := by simp [renderAlternatives, all]
      have named := namesAll_iff.mp all
      rw [text]
      refine ⟨named, ?_, ?_, nofun⟩
      · rintro _ ⟨⟩ -
        rfl
      · rintro _ ⟨⟩ ⟨a, member, missing⟩
        exact absurd (named a member) missing
    · have text : renderAlternatives (some p) alternatives =
          withoutQuestionMarks p ++ ": " ++ orList alternatives ++ "?" := by
        simp [renderAlternatives, all]
      rw [text]
      refine ⟨fun a member => ?_, ?_, ?_, nofun⟩
      · refine Text.lowerChars_infix (ascii a member) ((inside a member).trans ?_)
        exact ⟨(withoutQuestionMarks p).toList ++ ": ".toList, "?".toList, by simp⟩
      · rintro _ ⟨⟩ named
        exact absurd (namesAll_iff.mpr named) all
      · rintro _ ⟨⟩ -
        exact ⟨_, lists, rfl⟩
  | none =>
    obtain ⟨first, rest, begins⟩ := List.exists_cons_of_ne_nil lists.nonempty
    have below : Text.Ascii (first :: (rest ++ ['?'])) := by
      have question : Text.Ascii ['?'] := by decide
      rw [← List.cons_append, ← begins]
      exact (lists.ascii ascii).append question
    have text : (renderAlternatives none alternatives).toList =
        first.toUpper :: rest ++ ['?'] := by
      rw [renderAlternatives, String.toList_append,
        Text.toList_capitalise begins (below first List.mem_cons_self)]
      rfl
    refine ⟨fun a member => ?_, nofun, nofun, fun _ => ⟨_, first, rest, lists, begins, text⟩⟩
    rw [text, List.cons_append, Text.lowerChars_capital below, ← List.cons_append, ← begins]
    exact Text.lowerChars_infix (ascii a member)
      ((inside a member).trans (List.prefix_append _ _).isInfix)

end Templates

/-- Whatever answers leave of a question is alternatives about its topic, taken from its options in
their order. -/
theorem Question.Narrowing.alternatives {q₀ : Question} {residuals : List Question}
    (built : q₀.Built) (chain : q₀.Narrowing residuals) :
    ((residuals.headD q₀).Built ∧ (residuals.headD q₀).topic = q₀.topic ∧
      (residuals.headD q₀).listed.Sublist q₀.listed) ∧
    ∀ r ∈ residuals, ∃ left, r = .alt q₀.topic left ∧ 2 ≤ left.length ∧ left.Sublist q₀.listed := by
  induction chain with
  | start => exact ⟨⟨built, rfl, .refl _⟩, by simp⟩
  | @narrowed residuals a r _ narrows ih =>
    obtain ⟨⟨builtLast, topic, fewer⟩, shapes⟩ := ih
    obtain ⟨leaves, -⟩ := builtLast.combines_eq_some.mp narrows
    have shape : r = .alt q₀.topic ((residuals.headD q₀).covered a) := topic ▸ leaves.shape
    have options : ((residuals.headD q₀).covered a).Sublist q₀.listed :=
      List.filter_sublist.trans fewer
    refine ⟨⟨.alt (combines_iff.mp narrows).2.2.2.2, by rw [shape]; rfl, ?_⟩,
      List.forall_mem_cons.mpr ⟨⟨_, shape, leaves.several, options⟩, shapes⟩⟩
    rw [List.headD_cons, leaves.listed]
    exact options

/-- Alternatives below 128, and what answers leave of a question over such options, are always put
with all of them named, and listed unless the phrase for the topic names them. -/
theorem alternatives_all_put (t : Templates) (speaker : Speaker) (q₀ : Question)
    (built : q₀.Built) (ascii : ∀ o ∈ q₀.listed, Text.Ascii o.toList) (residuals : List Question)
    (chain : q₀.Narrowing residuals) :
    (∀ r ∈ residuals, ∃ left, r = .alt q₀.topic left ∧ 2 ≤ left.length ∧
      left.Sublist q₀.listed) ∧
    ∀ alternatives, .alt q₀.topic alternatives ∈ q₀ :: residuals →
      Templates.Puts (t.phrases.get? q₀.topic) alternatives
        (t.render (.ask speaker (.alt q₀.topic alternatives))) := by
  obtain ⟨-, shapes⟩ := chain.alternatives built
  refine ⟨shapes, fun alternatives member => ?_⟩
  have listed : 2 ≤ alternatives.length ∧ alternatives.Sublist q₀.listed := by
    rcases List.mem_cons.mp member with start | residual
    · obtain ⟨several, -⟩ := (start ▸ built).alternatives
      exact ⟨several, by rw [← start]; exact .refl _⟩
    · obtain ⟨left, shape, options⟩ := shapes _ residual
      cases shape
      exact options
  exact Templates.puts_renderAlternatives listed.1
    (fun a member => ascii a (listed.2.subset member)) _

def colours : Question := .alt "colour" ["light blue", "dark blue", "Red"]

def blues : Question := .alt "colour" ["light blue", "dark blue"]

/-- Alternatives behind a phrase, under no phrase, and under one that names them. -/
theorem colours_put : colours.Built ∧ colours.combines (.short (.text "BLUE")) = some blues ∧
    colours.Narrowing [blues] ∧
    Templates.Puts (some "Which colour??") ["light blue", "dark blue"]
      "Which colour: light blue or dark blue?" ∧
    Templates.Puts none ["light blue", "dark blue", "Red"] "Light blue, dark blue or Red?" ∧
    Templates.Puts (some "RED, or light blue, or Dark Blue?") ["light blue", "dark blue", "Red"]
      "RED, or light blue, or Dark Blue?" := by
  have built : colours.Built :=
    @Question.Built.alt colours "colour" ["light blue", " dark blue", "Red"] (by decide +kernel)
  have ascii : ∀ o ∈ colours.listed, Text.Ascii o.toList := by
    decide +kernel
  have narrows : colours.combines (.short (.text "BLUE")) = some blues := by decide +kernel
  have chain := Question.Narrowing.start.narrowed narrows
  have put (t : Templates) := (alternatives_all_put t .system colours built ascii _ chain).2
  have whole (t : Templates) := put t _ List.mem_cons_self
  have left := put (Templates.withPhrase {} "colour" "Which colour??") _
    (List.mem_cons_of_mem _ List.mem_cons_self)
  exact ⟨built, narrows, chain, left, whole {},
    whole (.withPhrase {} "colour" "RED, or light blue, or Dark Blue?")⟩

end Dialogue
