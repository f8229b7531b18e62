import Mathlib
import TableLoader.Literal
import TableLoader.Violation

/-! # Checked cells and their literals

The check of a cell finds every way in which a numeral degrades to `NULL`, but it knows nothing of truth
values and dates: a text that is neither slips through, and nothing else does. -/
namespace TableLoader

/-- A cell passes where it is empty under a nullable column, or a number in range and not too long. -/
theorem checkCell_eq_none_iff {cell : Cell} {field : Field} {t : SqlType} :
    checkCell cell field t = none ↔
      (cell.isNullLike || t.isZeroDate cell.trimmed) = true ∧ field.nullable = true ∨
        (cell.isNullLike || t.isZeroDate cell.trimmed) = false ∧
          (t.isNumeric = true → checkNumber t cell.trimmed = none) ∧
            checkLength t cell.trimmed = none := by
  unfold checkCell
  by_cases h : (cell.isNullLike || t.isZeroDate cell.trimmed) = true
  · cases hn : field.nullable <;> simp [h]
  · cases hn : t.isNumeric <;> simp [h]

theorem isSome_of_checkNumber_eq_none {t : SqlType} {cs : List Char}
    (h : checkNumber t cs = none) : (Binary64.ofText? cs).isSome = true := by
  unfold checkNumber at h
  split at h
  · simp at h
  · next x hx => simp [hx]

theorem checkRow_eq_nil_iff {n : Nat} {row : Row} {fields : List Field} :
    checkRow n row fields = [] ↔
      ∀ (i : ℕ) (cell : Cell) (field : Field), row[i]? = some cell → fields[i]? = some field →
        checkCell cell field field.sqlType = none := by
  simp only [checkRow, List.filterMap_eq_nil_iff, Option.map_eq_none_iff]
  constructor
  · intro h i cell field hc hf
    exact h (cell, field) (List.mem_of_getElem? (List.getElem?_zip_eq_some.mpr ⟨hc, hf⟩))
  · rintro h ⟨cell, field⟩ hm
    obtain ⟨i, hi⟩ := List.mem_iff_getElem?.mp hm
    obtain ⟨hc, hf⟩ := List.getElem?_zip_eq_some.mp hi
    exact h i cell field hc hf

theorem checkRowsFrom_eq_nil_iff {fields : List Field} {n : Nat} {rows : List Row} :
    checkRowsFrom fields n rows = [] ↔
      ∀ row ∈ rows, ∀ (i : ℕ) (cell : Cell) (field : Field),
        row[i]? = some cell → fields[i]? = some field →
        checkCell cell field field.sqlType = none := by
  induction rows generalizing n with
  | nil => simp [checkRowsFrom]
  | cons row rows ih =>
    rw [checkRowsFrom, List.append_eq_nil_iff, ih, checkRow_eq_nil_iff, List.forall_mem_cons]

namespace Literal

theorem boolean_trimmed (b : Bool) : boolean (Cell.bool b).trimmed = ofBool b := by
  cases b <;> decide +kernel

theorem format_eq (t : SqlType) (cell : Cell) :
    format t cell = if cell.isNullLike then null else ofText t cell.trimmed := by
  unfold format
  split
  · next b =>
    have hn : (Cell.bool b).isNullLike = false := by cases b <;> decide +kernel
    rw [hn]
    split
    · next ht =>
      have hc : t.category = .boolean := by simpa [SqlType.isBoolean] using ht
      simpa [ofText, hc] using (boolean_trimmed b).symm
    · simp
  · rfl

def unformattable (t : SqlType) (cs : List Char) : Bool :=
  match t.category with
  | .boolean => !(trueWords ++ falseWords).any (·.toList == Text.toLower cs)
  | .datetime => !Calendar.isRecognized cs
  | _ => false

theorem quote_ne_null (cs : List Char) : quote cs ≠ null := by
  intro h
  have := congrArg List.head? h
  simp [quote, null] at this

theorem ofBool_ne_null (b : Bool) : ofBool b ≠ null := by cases b <;> decide

theorem numeric_eq_null_iff {cs : List Char} :
    numeric cs = null ↔ (Binary64.ofText? cs).isSome = false := by
  unfold numeric
  split
  · next h =>
    have hn : (Binary64.ofText? null).isSome = false := by decide +kernel
    constructor
    · rintro rfl
      exact hn
    · simp [h]
  · next h => simpa using h

theorem boolean_eq_null_iff {cs : List Char} :
    boolean cs = null ↔ (trueWords ++ falseWords).any (·.toList == Text.toLower cs) = false := by
  rw [List.any_append, Bool.or_eq_false_iff]
  simp only [boolean]
  split
  · next h => simp [h, ofBool_ne_null]
  · next h =>
    have h : trueWords.any (·.toList == Text.toLower cs) = false := by simpa using h
    split
    · next h' => simp [h', ofBool_ne_null]
    · next h' =>
      have h' : falseWords.any (·.toList == Text.toLower cs) = false := by simpa using h'
      exact iff_of_true rfl ⟨h, h'⟩

theorem ofText_eq_null_iff {t : SqlType} {cs : List Char} :
    ofText t cs = null ↔ t.isNumeric = true ∧ (Binary64.ofText? cs).isSome = false ∨
      t.isZeroDate cs = true ∨ unformattable t cs = true := by
  cases hc : t.category with
  | numeric =>
    simp [ofText, unformattable, SqlType.isNumeric, SqlType.isZeroDate, SqlType.isDatetime, hc,
      numeric_eq_null_iff]
  | boolean =>
    have h : boolean cs = null ↔ _ := boolean_eq_null_iff
    simpa [ofText, unformattable, SqlType.isNumeric, SqlType.isZeroDate, SqlType.isDatetime, hc]
      using h
  | datetime =>
    simp only [ofText, unformattable, SqlType.isNumeric, hc, datetime]
    by_cases hz : t.isZeroDate cs = true
    · simp [hz]
    · cases hr : Calendar.isRecognized cs <;> simp [hz, quote_ne_null]
  | text =>
    simp [ofText, unformattable, SqlType.isNumeric, SqlType.isZeroDate, SqlType.isDatetime, hc,
      quote_ne_null]

/-- Under a column that forbids `NULL`, what passes the check is written as `NULL` exactly where it is neither
a truth value nor a date and should be one. -/
theorem format_eq_null_iff {cell : Cell} {field : Field} {t : SqlType}
    (hf : field.nullable = false) (h : checkCell cell field t = none) :
    format t cell = null ↔ unformattable t cell.trimmed = true := by
  rcases checkCell_eq_none_iff.mp h with ⟨-, hn⟩ | ⟨he, hnum, -⟩
  · simp [hf] at hn
  · obtain ⟨hnull, hzero⟩ := Bool.or_eq_false_iff.mp he
    rw [format_eq, hnull, if_neg Bool.false_ne_true, ofText_eq_null_iff]
    constructor
    · rintro (⟨ht, hs⟩ | hz | hu)
      · simp [isSome_of_checkNumber_eq_none (hnum ht)] at hs
      · simp [hzero] at hz
      · exact hu
    · exact fun hu => Or.inr (Or.inr hu)

end Literal

end TableLoader
