import TableLoader.Proofs.Cell.Phrases
import TableLoader.Proofs.Dump.PlainNames

/-! # Columns with types of several words

The type of a field is the second word of its clause. Where a column declares a phrase, the field keeps the first
word of the phrase, with the length only if the phrase has one word. -/
namespace TableLoader.Dump

structure PhraseColumn where
  name : List Char
  phrase : SqlType.Phrase
  notNull : Bool
  name_plain : IsPlainName name
  unreserved : startsConstraint (name ++ ' ' :: phrase.text) = false

namespace PhraseColumn

variable (c : PhraseColumn)

def options : List Char := if c.notNull then ' ' :: "NOT NULL".toList else []

def clause : List Char := c.name ++ ' ' :: (c.phrase.text ++ c.options)

def field : Field :=
  ⟨String.ofList c.name, String.ofList c.phrase.head, !forbidsNull c.clause⟩

theorem options_cases : c.options = [] ∨ c.options = ' ' :: "NOT NULL".toList := by
  unfold options
  cases c.notNull with
  | false => exact Or.inl rfl
  | true => exact Or.inr rfl

theorem exists_first : ∃ first more, c.name = first :: more ∧ Text.isBlank first = false := by
  obtain ⟨first, more, hname⟩ := List.exists_cons_of_ne_nil c.name_plain.ne_nil
  refine ⟨first, more, hname, ?_⟩
  rcases c.name_plain.plain first (hname ▸ List.mem_cons_self) with hf | rfl
  · exact Text.isBlank_of_isAlphanum hf
  · decide

theorem exists_last : ∃ last, c.clause.getLast? = some last ∧ Text.isBlank last = false ∧ last ≠ ',' := by
  obtain ⟨last, hlast, hplain⟩ := c.phrase.exists_last_text
  have hne : c.phrase.text ≠ [] := by
    intro h
    rw [h] at hlast
    exact absurd hlast (by simp)
  rw [clause, List.getLast?_append_of_ne_nil _ (List.cons_ne_nil _ _)]
  rcases c.options_cases with ho | ho
  · rw [ho, List.append_nil, List.getLast?_cons_of_ne_nil hne]
    exact ⟨last, hlast, hplain⟩
  · refine ⟨'L', ?_, by decide, by decide⟩
    rw [ho, ← List.cons_append, List.getLast?_append_of_ne_nil _ (List.cons_ne_nil _ _)]
    rfl

theorem tight_clause : Text.Tight c.clause := by
  obtain ⟨first, more, hname, hfirst⟩ := c.exists_first
  obtain ⟨last, hlast, hblank, -⟩ := c.exists_last
  exact Text.tight_of_ends (by rw [clause, hname]; rfl) hlast hfirst hblank

theorem backtick_notMem : '\x60' ∉ c.clause := by
  have hname : '\x60' ∉ c.name := c.name_plain.notMem (by decide)
  have hoptions : '\x60' ∉ c.options := by
    rcases c.options_cases with ho | ho <;> rw [ho] <;> decide
  simp [clause, hname, hoptions, c.phrase.backtick_notMem_text]

theorem bare_clause : bare c.clause = c.clause := by
  obtain ⟨last, hlast, -, hcomma⟩ := c.exists_last
  have hl : c.clause.getLast? ≠ some ',' := by
    rw [hlast]
    exact fun he => hcomma (Option.some.inj he)
  exact bare_eq_self c.tight_clause hl c.backtick_notMem

theorem isConstraint_clause : isConstraint c.clause = false := by
  have hspace : ' ' ∉ c.name := c.name_plain.notMem (by decide)
  rw [isConstraint_eq_startsConstraint, c.tight_clause.trim, clause]
  rcases c.options_cases with ho | ho
  · rw [ho, List.append_nil]
    exact c.unreserved
  · rw [ho, startsConstraint_append_space hspace]
    exact c.unreserved

theorem exists_words : ∃ others, Text.words c.clause = c.name :: c.phrase.head :: others := by
  have hname : ∀ x ∈ c.name, Text.isBlank x = false := by
    intro x hx
    rcases c.name_plain.plain x hx with hx | rfl
    · exact Text.isBlank_of_isAlphanum hx
    · decide
  obtain ⟨rest, htext, hrest⟩ := c.phrase.exists_head_append
  obtain ⟨hne, hplain⟩ := c.phrase.head_plain
  have hafter : ∀ x ∈ (rest ++ c.options).head?, Text.isBlank x = true := by
    intro x hx
    have hx : x = ' ' := by
      cases rest with
      | nil =>
        rcases c.options_cases with ho | ho <;> rw [List.nil_append, ho] at hx
        · exact absurd hx (by simp)
        · exact (Option.some.inj hx).symm
      | cons d rest => exact hrest x hx
    rw [hx]
    rfl
  obtain ⟨others, hwords⟩ := Text.exists_words_append hne hplain hafter
  refine ⟨others, ?_⟩
  rw [clause, Text.words_append_blank c.name_plain.ne_nil hname (by decide), htext, List.append_assoc, hwords]

theorem fieldOf?_clause : fieldOf? c.clause = some c.field := by
  obtain ⟨others, hwords⟩ := c.exists_words
  have hnull : Text.holds "NOT NULL".toList (Text.toUpper c.clause) = forbidsNull c.clause := by
    rw [forbidsNull, unticked, filter_backtick c.backtick_notMem]
  rw [fieldOf?_of_words c.isConstraint_clause (by rw [c.bare_clause, hwords]), c.bare_clause, hnull]
  rfl

def declared : SqlType := .parse (String.ofList c.phrase.text)

/-- A column declared with a phrase is a field whose type is the first word of it. That type has the category and the
width of the phrase just if no other word has an earlier one, and its bound just if there is none or no other word;
where it has all three, a cell passes as it would under the whole phrase. -/
theorem sqlType_field_eq_iff : fieldOf? c.clause = some c.field ∧
    (c.field.sqlType.category = c.declared.category ↔ ∀ w ∈ c.phrase.others,
      (SqlType.parse (String.ofList c.phrase.first)).category.rank ≤
        (SqlType.parse (String.ofList w)).category.rank) ∧
    (c.field.sqlType.intWidth = c.declared.intWidth ↔ ∀ w ∈ c.phrase.others,
      IntWidth.rank (SqlType.parse (String.ofList c.phrase.first)).intWidth ≤
        IntWidth.rank (SqlType.parse (String.ofList w)).intWidth) ∧
    (c.field.sqlType.maxLength = c.declared.maxLength ↔ c.phrase.others = [] ∨
      ∀ n ∈ c.phrase.length, twoTo 64 ≤ natOfDigits n ∨
        ∀ w ∈ c.phrase.words, Text.holds "char".toList (Text.toLower w) = false) ∧
    (c.field.sqlType.category = c.declared.category → c.field.sqlType.intWidth = c.declared.intWidth →
      c.field.sqlType.maxLength = c.declared.maxLength → ∀ cell : Cell,
        (checkCell cell c.field c.field.sqlType = none ↔ checkCell cell c.field c.declared = none)) := by
  refine ⟨c.fieldOf?_clause, c.phrase.category_head_eq_iff, c.phrase.intWidth_head_eq_iff,
    c.phrase.maxLength_head_eq_iff, ?_⟩
  intro hcategory hwidth hlength cell
  exact SqlType.checkCell_eq_none_congr hcategory hwidth hlength cell c.field

def ofPair (first second : String) (length : Option (List Char))
    (hw : ∀ w ∈ [first.toList, second.toList],
      w ≠ [] ∧ ∀ c ∈ w, Text.isBlank c = false ∧ c ∉ ['\x60', '(', ','])
    (hd : ∀ n ∈ length, n ≠ [] ∧ ∀ c ∈ n, c.isDigit = true) : PhraseColumn where
  name := ['x']
  phrase := ⟨first.toList, [second.toList], length, hw, hd⟩
  notNull := false
  name_plain := by decide
  unreserved := by
    have hx : Text.toUpper ['x'] = ['X'] := by decide
    rw [← Bool.not_eq_true, startsConstraint_append_iff (by rw [hx]; decide) (by rintro _ ⟨⟩; decide), hx]
    simp [Announces, wholeStarts, spacedStarts]

def doublePrecision : PhraseColumn :=
  ofPair "double" "precision" none (by simp [Text.isBlank]) (by simp)

def characterVarying : PhraseColumn :=
  ofPair "character" "varying" (some "10".toList) (by simp [Text.isBlank]) (by simp)

def unsignedTiny : PhraseColumn :=
  ofPair "unsigned" "tinyint" (some "3".toList) (by simp [Text.isBlank]) (by simp)

theorem sqlType_field_double :
    fieldOf? "x double precision".toList = some ⟨"x", "double", true⟩ ∧
      ∀ cell : Cell, checkCell cell doublePrecision.field doublePrecision.field.sqlType = none ↔
        checkCell cell doublePrecision.field doublePrecision.declared = none := by
  obtain ⟨hfield, hcategory, hwidth, hlength, hcheck⟩ := sqlType_field_eq_iff doublePrecision
  refine ⟨?_, hcheck (hcategory.mpr ?_) (hwidth.mpr ?_) (hlength.mpr (Or.inr ?_))⟩
  · have hread : doublePrecision.field = ⟨"x", "double", true⟩ := by decide +kernel
    rw [← hread, ← hfield]
    rfl
  · exact List.forall_mem_singleton.mpr (by decide +kernel)
  · exact List.forall_mem_singleton.mpr (by decide +kernel)
  · simp [doublePrecision, ofPair]

/-- A bound, a category and a width that are lost with the second word. -/
theorem sqlType_field_varying :
    fieldOf? "x character varying(10)".toList = some ⟨"x", "character", true⟩ ∧
      (SqlType.parse "character").maxLength = none ∧
      (SqlType.parse "character varying(10)").maxLength = some 10 ∧
      fieldOf? "x unsigned tinyint(3)".toList = some ⟨"x", "unsigned", true⟩ ∧
      (SqlType.parse "unsigned").category = .text ∧ (SqlType.parse "unsigned").intWidth = none ∧
      (SqlType.parse "unsigned tinyint(3)").category = .numeric ∧
      (SqlType.parse "unsigned tinyint(3)").intWidth = some .tiny ∧
      (¬ ∀ (c : PhraseColumn) (f : Field), fieldOf? c.clause = some f →
        f.sqlType.maxLength = c.declared.maxLength) ∧
      ¬ ∀ (c : PhraseColumn) (f : Field), fieldOf? c.clause = some f →
        f.sqlType.category = c.declared.category ∨ f.sqlType.intWidth = c.declared.intWidth := by
  refine ⟨by decide +kernel, by decide +kernel, by decide +kernel, by decide +kernel, by decide +kernel,
    by decide +kernel, by decide +kernel, by decide +kernel, ?_, ?_⟩
  · intro h
    have hlength := h characterVarying characterVarying.field (fieldOf?_clause _)
    exact absurd hlength (by decide +kernel)
  · intro h
    rcases h unsignedTiny unsignedTiny.field (fieldOf?_clause _) with hcategory | hwidth
    · exact absurd hcategory (by decide +kernel)
    · exact absurd hwidth (by decide +kernel)

end PhraseColumn

end TableLoader.Dump
