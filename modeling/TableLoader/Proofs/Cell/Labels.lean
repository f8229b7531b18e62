import TableLoader.Proofs.Cell.Checking
import TableLoader.Proofs.Text.LetterCase
import TableLoader.Proofs.Text.Occurrence

/-! # Quoted labels in a declared type

A type is found from the words that stand anywhere in its text, labels between quotes included, but no word
reaches across a quote. So a type with labels is of the first class of which its own word or one of its labels
is by itself. -/
namespace TableLoader

/-- The place of a category in the order in which they are tried. -/
def Category.rank : Category → Nat
  | .numeric => 0
  | .boolean => 1
  | .datetime => 2
  | .text => 3

def IntWidth.rank : Option IntWidth → Nat
  | some .tiny => 0
  | some .small => 1
  | none => 2

theorem Category.rank_le_text (c : Category) : c.rank ≤ Category.text.rank := by
  cases c <;> decide

theorem IntWidth.rank_le_none (w : Option IntWidth) : IntWidth.rank w ≤ IntWidth.rank none := by
  rcases w with _ | _ | _ <;> decide

/-- One of several classes, and none of them comes before it. -/
def FirstOf {α : Type} (rank : α → Nat) (first : α) (classes : List α) : Prop :=
  first ∈ classes ∧ ∀ c ∈ classes, rank first ≤ rank c

theorem FirstOf.eq_head_iff {α : Type} {rank : α → Nat} (hinj : Function.Injective rank) {first head : α}
    {rest : List α} (h : FirstOf rank first (head :: rest)) :
    first = head ↔ ∀ c ∈ rest, rank head ≤ rank c := by
  obtain ⟨hmem, hleast⟩ := h
  constructor
  · rintro rfl c hc
    exact hleast c (List.mem_cons_of_mem _ hc)
  · intro hlast
    rcases List.mem_cons.mp hmem with rfl | hrest
    · rfl
    · exact hinj (Nat.le_antisymm (hleast head List.mem_cons_self) (hlast first hrest))

section Tests

variable {α : Type} {whole : α} {parts : List α}

/-- Where a whole passes each test just when one of its parts does, the first test that it passes is the first
that any part passes. -/
theorem findIdx_of_any (hne : parts ≠ []) {tests : List (α → Bool)}
    (h : ∀ test ∈ tests, test whole = parts.any test) :
    (∃ part ∈ parts, tests.findIdx (· whole) = tests.findIdx (· part)) ∧
      ∀ part ∈ parts, tests.findIdx (· whole) ≤ tests.findIdx (· part) := by
  induction tests with
  | nil =>
    obtain ⟨part, hpart⟩ := List.exists_mem_of_ne_nil parts hne
    exact ⟨⟨part, hpart, rfl⟩, fun _ _ => Nat.le_refl _⟩
  | cons test tests ih =>
    obtain ⟨htest, htests⟩ := List.forall_mem_cons.mp h
    simp only [List.findIdx_cons]
    cases hany : parts.any test with
    | true =>
      obtain ⟨part, hpart, hpass⟩ := List.any_eq_true.mp hany
      rw [htest, hany]
      exact ⟨⟨part, hpart, by rw [hpass]; rfl⟩, fun _ _ => Nat.zero_le _⟩
    | false =>
      have hfail : ∀ part ∈ parts, test part = false := by simpa using hany
      obtain ⟨⟨part, hpart, heq⟩, hleast⟩ := ih htests
      rw [htest, hany]
      refine ⟨⟨part, hpart, ?_⟩, ?_⟩
      · rw [hfail part hpart, heq]
      · intro other hother
        rw [hfail other hother]
        exact Nat.succ_le_succ (hleast other hother)

theorem firstOf_findIdx {β : Type} {rank : β → Nat} (hinj : Function.Injective rank) {of : α → β}
    {tests : List (α → Bool)} (hof : ∀ x, rank (of x) = tests.findIdx (· x)) (hne : parts ≠ [])
    (h : ∀ test ∈ tests, test whole = parts.any test) : FirstOf rank (of whole) (parts.map of) := by
  obtain ⟨⟨part, hpart, heq⟩, hleast⟩ := findIdx_of_any hne h
  rw [← hof, ← hof] at heq
  refine ⟨List.mem_map.mpr ⟨part, hpart, (hinj heq).symm⟩, ?_⟩
  rintro _ hc
  obtain ⟨other, hother, rfl⟩ := List.mem_map.mp hc
  rw [hof, hof]
  exact hleast other hother

end Tests

namespace SqlType

open Text (holds toLower isBlank)

/-- A word with labels between single quotes in parentheses. -/
structure Labelled where
  word : List Char
  labels : List (List Char)
  gap : List Char
  word_letters : ∀ c ∈ word, c.isAlpha = true
  labels_ne : labels ≠ []
  labels_quote : ∀ label ∈ labels, '\'' ∉ label
  gap_blank : ∀ c ∈ gap, isBlank c = true

def enclosed (label : List Char) : List Char := '\'' :: (label ++ ['\''])

namespace Labelled

variable (t : Labelled)

def text : List Char :=
  t.word ++ '(' :: ((',' :: t.gap).intercalate (t.labels.map enclosed) ++ [')'])

def declared : String := String.ofList t.text

def parts : List (List Char) := t.word :: t.labels

end Labelled

def keywords : List String := numericWords ++ booleanWords ++ datetimeWords

theorem keywords_lower :
    ∀ word ∈ keywords, word.toList ≠ [] ∧ ∀ c ∈ word.toList, c.isLower = true := by
  simp [keywords, numericWords, booleanWords, datetimeWords]

section Parts

variable {word : List Char}

theorem notMem_of_isLower (hl : ∀ c ∈ word, c.isLower = true) {x : Char} (hx : x.isLower = false) :
    x ∉ word := by
  intro hm
  exact Bool.false_ne_true (hx.symm.trans (hl x hm))

theorem holds_enclosed (hne : word ≠ []) (hl : ∀ c ∈ word, c.isLower = true) (label rest : List Char) :
    holds word (toLower (enclosed label ++ rest)) =
      (holds word (toLower label) || holds word (toLower rest)) := by
  have hq : '\'' ∉ word := notMem_of_isLower hl (by decide)
  have hquote : Text.lower '\'' = ['\''] := by decide
  simp only [enclosed, List.cons_append, List.append_assoc, Text.toLower_cons, Text.toLower_append, hquote,
    List.nil_append]
  have hopen := Text.holds_append_of_disjoint hne (List.forall_mem_singleton.mpr hq)
  rw [← List.singleton_append, hopen, Text.holds_append_cons hq]

theorem holds_separator (hne : word ≠ []) (hl : ∀ c ∈ word, c.isLower = true) {gap : List Char}
    (hg : ∀ c ∈ gap, isBlank c = true) (rest : List Char) :
    holds word (toLower ((',' :: gap) ++ rest)) = holds word (toLower rest) := by
  have hcomma : Text.lower ',' = [','] := by decide
  rw [Text.toLower_append, Text.toLower_cons, hcomma, Text.toLower_of_blanks hg]
  apply Text.holds_append_of_disjoint hne
  rw [List.singleton_append, List.forall_mem_cons]
  exact ⟨notMem_of_isLower hl (by decide), fun c hc => notMem_of_isLower hl (Text.isLower_of_isBlank (hg c hc))⟩

/-- No keyword reaches across a quote, so one stands in a list of labels only inside a label. -/
theorem holds_intercalate (hne : word ≠ []) (hl : ∀ c ∈ word, c.isLower = true) {gap : List Char}
    (hg : ∀ c ∈ gap, isBlank c = true) {labels : List (List Char)} (hlabels : labels ≠ [])
    (rest : List Char) : holds word (toLower ((',' :: gap).intercalate (labels.map enclosed) ++ rest)) =
      (labels.any (fun label => holds word (toLower label)) || holds word (toLower rest)) := by
  induction labels with
  | nil => exact absurd rfl hlabels
  | cons label labels ih =>
    cases labels with
    | nil =>
      rw [List.map_singleton, List.intercalate_singleton, holds_enclosed hne hl, List.any_cons,
        List.any_nil, Bool.or_false]
    | cons next labels =>
      rw [List.map_cons, List.intercalate_cons_of_ne_nil (by simp), List.append_assoc, List.append_assoc,
        holds_enclosed hne hl, holds_separator hne hl hg, ih (List.cons_ne_nil _ _),
        List.any_cons (a := label), Bool.or_assoc]

end Parts

theorem Labelled.holds_text (t : Labelled) {word : String} (hw : word ∈ keywords) :
    holds word.toList (toLower t.text) = t.parts.any fun part => holds word.toList (toLower part) := by
  obtain ⟨hne, hl⟩ := keywords_lower word hw
  have hopen : Text.lower '(' = ['('] := by decide
  have hparen : ')' ∉ word.toList := notMem_of_isLower hl (by decide)
  have hclose : holds word.toList (toLower [')']) = false := by
    have hend := Text.holds_append_of_disjoint hne (List.forall_mem_singleton.mpr hparen) []
    rw [show toLower [')'] = [')'] ++ [] by decide, hend]
    simpa [holds] using hne
  rw [text, Text.toLower_append, Text.toLower_cons, hopen, List.singleton_append,
    Text.holds_append_cons (notMem_of_isLower hl (by decide)),
    holds_intercalate hne hl t.gap_blank t.labels_ne, hclose, Bool.or_false, parts, List.any_cons]

theorem rank_categoryOf (cs : List Char) : (categoryOf cs).rank =
    [holdsAny numericWords, holdsAny booleanWords, holdsAny datetimeWords].findIdx (· cs) := by
  simp only [categoryOf, List.findIdx_cons, List.findIdx_nil]
  cases holdsAny numericWords cs <;> cases holdsAny booleanWords cs <;>
    cases holdsAny datetimeWords cs <;> rfl

theorem rank_intWidthOf (cs : List Char) : IntWidth.rank (intWidthOf cs) =
    [holds "tinyint".toList, holds "smallint".toList].findIdx (· cs) := by
  have hwords : ∀ word ∈ ["tinyint".toList, "smallint".toList], "int".toList <:+: word := by decide
  have hinside : ∀ word ∈ ["tinyint".toList, "smallint".toList],
      holds "int".toList cs = false → holds word cs = false := by
    intro word hword hint
    rw [← Bool.not_eq_true, Text.holds_iff_infix] at hint ⊢
    exact fun hw => hint ((hwords word hword).trans hw)
  simp only [intWidthOf, List.findIdx_cons, List.findIdx_nil]
  cases hint : holds "int".toList cs with
  | true => cases holds "tinyint".toList cs <;> cases holds "smallint".toList cs <;> rfl
  | false =>
    rw [hinside _ (by simp) hint, hinside "smallint".toList (by simp) hint]
    rfl

theorem rank_injective : Function.Injective Category.rank := by
  intro a b
  cases a <;> cases b <;> decide

theorem intWidth_rank_injective : Function.Injective IntWidth.rank := by
  intro a b
  rcases a with _ | _ | _ <;> rcases b with _ | _ | _ <;> decide

section Classes

variable {parts : List (List Char)}

theorem holdsAny_of_parts {text : List Char} {words : List String} (hw : ∀ word ∈ words, word ∈ keywords)
    (h : ∀ word ∈ keywords, holds word.toList (toLower text) =
      parts.any fun part => holds word.toList (toLower part)) :
    holdsAny words (toLower text) = parts.any fun part => holdsAny words (toLower part) := by
  rw [Bool.eq_iff_iff]
  simp only [holdsAny, List.any_eq_true]
  constructor
  · rintro ⟨word, hword, hh⟩
    rw [h word (hw word hword), List.any_eq_true] at hh
    obtain ⟨part, hpart, hh⟩ := hh
    exact ⟨part, hpart, word, hword, hh⟩
  · rintro ⟨part, hpart, word, hword, hh⟩
    refine ⟨word, hword, ?_⟩
    rw [h word (hw word hword), List.any_eq_true]
    exact ⟨part, hpart, hh⟩

theorem firstOf_category (text : List Char) (hne : parts ≠ [])
    (h : ∀ word ∈ keywords, holds word.toList (toLower text) =
      parts.any fun part => holds word.toList (toLower part)) :
    FirstOf Category.rank (parse (String.ofList text)).category
      (parts.map fun part => (parse (String.ofList part)).category) := by
  have hfirst : FirstOf Category.rank (categoryOf (toLower text)) ((parts.map toLower).map categoryOf) := by
    apply firstOf_findIdx rank_injective rank_categoryOf
    · simpa using hne
    · simp only [List.forall_mem_cons, List.not_mem_nil, false_implies, implies_true, and_true,
        List.any_map]
      refine ⟨holdsAny_of_parts ?_ h, holdsAny_of_parts ?_ h, holdsAny_of_parts ?_ h⟩
      all_goals intro word hword; simp [keywords, hword]
  simpa [parse, Function.comp_def] using hfirst

theorem firstOf_intWidth (text : List Char) (hne : parts ≠ [])
    (h : ∀ word ∈ keywords, holds word.toList (toLower text) =
      parts.any fun part => holds word.toList (toLower part)) :
    FirstOf IntWidth.rank (parse (String.ofList text)).intWidth
      (parts.map fun part => (parse (String.ofList part)).intWidth) := by
  have hfirst : FirstOf IntWidth.rank (intWidthOf (toLower text)) ((parts.map toLower).map intWidthOf) := by
    apply firstOf_findIdx intWidth_rank_injective rank_intWidthOf
    · simpa using hne
    · simp only [List.forall_mem_cons, List.not_mem_nil, false_implies, implies_true, and_true,
        List.any_map]
      exact ⟨h "tinyint" (by simp [keywords, numericWords]),
        h "smallint" (by simp [keywords, numericWords])⟩
  simpa [parse, Function.comp_def] using hfirst

end Classes

namespace Labelled

variable (t : Labelled)

theorem firstOf_category : FirstOf Category.rank (parse t.declared).category
    (t.parts.map fun part => (parse (String.ofList part)).category) :=
  SqlType.firstOf_category t.text (by simp [parts]) fun _ => t.holds_text

theorem firstOf_intWidth : FirstOf IntWidth.rank (parse t.declared).intWidth
    (t.parts.map fun part => (parse (String.ofList part)).intWidth) :=
  SqlType.firstOf_intWidth t.text (by simp [parts]) fun _ => t.holds_text

/-- No label holds a keyword in any letter case. -/
def Plain : Prop :=
  ∀ label ∈ t.labels, ∀ word ∈ keywords, holds word.toList (toLower label) = false

end Labelled

theorem holdsAny_eq_false_iff {words : List String} {cs : List Char} :
    holdsAny words cs = false ↔ ∀ word ∈ words, holds word.toList cs = false := by
  simp [holdsAny]

theorem holdsAny_append (a b : List String) (cs : List Char) :
    holdsAny (a ++ b) cs = (holdsAny a cs || holdsAny b cs) :=
  List.any_append

theorem categoryOf_eq_text_iff {cs : List Char} :
    categoryOf cs = .text ↔ ∀ word ∈ keywords, holds word.toList cs = false := by
  rw [← holdsAny_eq_false_iff, keywords, holdsAny_append, holdsAny_append, categoryOf]
  cases holdsAny numericWords cs <;> cases holdsAny booleanWords cs <;>
    cases holdsAny datetimeWords cs <;> decide

theorem intWidthOf_eq_none {cs : List Char} (h : ∀ word ∈ keywords, holds word.toList cs = false) :
    intWidthOf cs = none := by
  rw [intWidthOf, h "int" (by simp [keywords, numericWords])]
  rfl

namespace Labelled

variable {t : Labelled}

theorem Plain.category_eq (h : t.Plain) :
    (parse t.declared).category = (parse (String.ofList t.word)).category := by
  apply (t.firstOf_category.eq_head_iff rank_injective).mpr
  intro c hc
  obtain ⟨label, hlabel, rfl⟩ := List.mem_map.mp hc
  have htext : (parse (String.ofList label)).category = .text := by
    simpa [parse] using categoryOf_eq_text_iff.mpr (h label hlabel)
  rw [htext]
  exact Category.rank_le_text _

theorem Plain.intWidth_eq (h : t.Plain) :
    (parse t.declared).intWidth = (parse (String.ofList t.word)).intWidth := by
  apply (t.firstOf_intWidth.eq_head_iff intWidth_rank_injective).mpr
  intro w hw
  obtain ⟨label, hlabel, rfl⟩ := List.mem_map.mp hw
  have hnone : (parse (String.ofList label)).intWidth = none := by
    simpa [parse] using intWidthOf_eq_none (h label hlabel)
  rw [hnone]
  exact IntWidth.rank_le_none _

/-- Where the word alone is that of a text type, the labels decide. -/
theorem category_eq_text_iff (hword : (parse (String.ofList t.word)).category = .text) :
    (parse t.declared).category = .text ↔ t.Plain := by
  constructor
  · intro h label hlabel
    have hle := t.firstOf_category.2 _ (List.mem_map_of_mem (List.mem_cons_of_mem _ hlabel))
    rw [h] at hle
    have htext := rank_injective (Nat.le_antisymm (Category.rank_le_text _) hle)
    rw [parse, String.toList_ofList] at htext
    exact categoryOf_eq_text_iff.mp htext
  · intro h
    rw [h.category_eq, hword]

theorem category_enum (h : Text.equalsIgnoringCase t.word "enum".toList = true) :
    (parse (String.ofList t.word)).category = .text := by
  rw [parse, String.toList_ofList, Text.toLower_congr h]
  show categoryOf (toLower "enum".toList) = .text
  decide +kernel

/-- The class of a type with labels, and what it makes of a column whose labels hold no keyword. -/
theorem parse_declared (t : Labelled) :
    FirstOf Category.rank (parse t.declared).category
        (t.parts.map fun part => (parse (String.ofList part)).category) ∧
      FirstOf IntWidth.rank (parse t.declared).intWidth
        (t.parts.map fun part => (parse (String.ofList part)).intWidth) ∧
      (∀ u : Labelled, u.word = t.word → t.Plain → u.Plain →
        (parse u.declared).category = (parse t.declared).category ∧
          (parse u.declared).intWidth = (parse t.declared).intWidth) ∧
      (Text.equalsIgnoringCase t.word "enum".toList = true →
        ((parse t.declared).category = .text ↔ t.Plain) ∧
          (t.Plain → ∀ cell : Cell, cell.isNullLike = false →
            Literal.format (parse t.declared) cell = Literal.quote cell.trimmed)) := by
  refine ⟨t.firstOf_category, t.firstOf_intWidth, ?_, ?_⟩
  · intro u hword ht hu
    rw [hu.category_eq, ht.category_eq, hu.intWidth_eq, ht.intWidth_eq, hword]
    exact ⟨rfl, rfl⟩
  · intro henum
    have hiff := category_eq_text_iff (category_enum henum)
    refine ⟨hiff, ?_⟩
    intro ht cell hcell
    rw [Literal.format_eq, hcell, Literal.ofText, hiff.mpr ht]
    rfl

def enumeration (labels : List String) (hne : labels ≠ []) (hq : ∀ label ∈ labels, '\'' ∉ label.toList) :
    Labelled where
  word := "Enum".toList
  labels := labels.map String.toList
  gap := [' ']
  word_letters := by simp
  labels_ne := by simpa using hne
  labels_quote := by simpa using hq
  gap_blank := Text.isBlank_of_mem_space

def states : Labelled := enumeration ["open", "(done)"] (by decide) (by simp)

def sizes : Labelled := enumeration ["small", "tiny, or less"] (by decide) (by simp)

def shapes : Labelled := enumeration ["line", "point"] (by decide) (by simp)

def widths : Labelled := enumeration ["tinyint"] (by decide) (by simp)

theorem parse_declared_states :
    states.declared = "Enum('open', '(done)')" ∧ sizes.word = states.word ∧ states.Plain ∧ sizes.Plain ∧
      (parse sizes.declared).category = (parse states.declared).category ∧
      (parse states.declared).category = .text ∧
      Literal.format (parse states.declared) (.text " open") = "'open'".toList := by
  have hstates : states.Plain := by unfold Plain; decide +kernel
  have hsizes : sizes.Plain := by unfold Plain; decide +kernel
  obtain ⟨-, -, hsame, henum⟩ := parse_declared states
  obtain ⟨htext, hformat⟩ := henum (by decide +kernel)
  obtain ⟨hcategory, -⟩ := hsame sizes rfl hstates hsizes
  refine ⟨by decide +kernel, rfl, hstates, hsizes, hcategory, htext.mpr hstates, ?_⟩
  rw [hformat hstates (.text " open") (by decide +kernel)]
  decide +kernel

/-- A point is no number, yet its name holds `int`. -/
theorem parse_declared_shapes :
    shapes.declared = "Enum('line', 'point')" ∧ (parse shapes.declared).category = .numeric ∧
      Literal.format (parse shapes.declared) (.text "line") = Literal.null ∧
      (parse states.declared).category = .text ∧
      ¬ (∀ t u : Labelled, u.word = t.word →
        (parse u.declared).category = (parse t.declared).category) ∧
      ¬ ∀ t u : Labelled, u.word = t.word →
        (parse u.declared).intWidth = (parse t.declared).intWidth := by
  refine ⟨by decide +kernel, by decide +kernel, by decide +kernel, by decide +kernel, ?_, ?_⟩
  · intro h
    exact absurd (h states shapes rfl) (by decide +kernel)
  · intro h
    exact absurd (h states widths rfl) (by decide +kernel)

end Labelled

end SqlType

end TableLoader
