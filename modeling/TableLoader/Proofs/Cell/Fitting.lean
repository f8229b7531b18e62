import TableLoader.Proofs.Cell.Checking
import TableLoader.Proofs.Insert.Reading
import TableLoader.Proofs.Number.Numerals

/-! # Literals that fit their columns

What passes the check of a numeric or a text column is written as a literal that the column can hold, and what
the check finds to be no value or no number is written as `NULL`. -/
namespace TableLoader

theorem checkNumber_cases (t : SqlType) (cs : List Char) :
    (Binary64.ofText? cs = none ∧
      checkNumber t cs = some (.notNumeric (String.ofList cs))) ∨
    ∃ x, Binary64.ofText? cs = some x ∧
      ((checkNumber t cs = none ∧ ∀ w, t.intWidth = some w → w.contains x = true) ∨
        ∃ w, checkNumber t cs = some (.outOfRange (String.ofList cs) w)) := by
  unfold checkNumber
  cases Binary64.ofText? cs with
  | none => exact Or.inl ⟨rfl, rfl⟩
  | some x =>
    refine Or.inr ⟨x, rfl, ?_⟩
    cases t.intWidth with
    | none => simp
    | some w => cases hw : w.contains x <;> simp [hw]

theorem checkLength_eq_none_iff {t : SqlType} {cs : List Char} :
    checkLength t cs = none ↔ ∀ max, t.maxLength = some max → cs.length ≤ max := by
  unfold checkLength
  cases t.maxLength with
  | none => simp
  | some max =>
    by_cases h : max < cs.length
    · simp [h]
    · simp [Nat.not_lt.mp h]

theorem checkCell_eq_some {cell : Cell} {field : Field} {t : SqlType} {violation : Violation}
    (h : checkCell cell field t = some violation) :
    (cell.isNullLike || t.isZeroDate cell.trimmed) = true ∨
      (t.isNumeric = true ∧ checkNumber t cell.trimmed = some violation) ∨
        checkLength t cell.trimmed = some violation := by
  simp only [checkCell] at h
  split at h
  · next he => exact Or.inl he
  · right
    split at h
    · next hn =>
      rcases Option.or_eq_some_iff.mp h with h | ⟨-, h⟩
      · exact Or.inl ⟨hn, h⟩
      · exact Or.inr h
    · exact Or.inr h

theorem checkLength_eq_some_iff {t : SqlType} {cs : List Char} {violation : Violation} :
    checkLength t cs = some violation ↔ ∃ max, t.maxLength = some max ∧ max < cs.length ∧
      violation = .tooLong cs.length max t.declared := by
  unfold checkLength
  cases t.maxLength with
  | none => simp
  | some max => by_cases h : max < cs.length <;> simp [h, eq_comm]

theorem checkLength_eq_some {t : SqlType} {cs : List Char} {violation : Violation}
    (h : checkLength t cs = some violation) :
    ∃ length max declaredType, violation = .tooLong length max declaredType := by
  obtain ⟨max, -, -, hv⟩ := checkLength_eq_some_iff.mp h
  exact ⟨_, _, _, hv⟩

theorem IntWidth.contains_iff {w : IntWidth} {x : Binary64} :
    w.contains x = true ↔ (w.range.1 : ℚ) ≤ x.value ∧ x.value ≤ w.range.2 := by
  have hunit : (0 : ℚ) < 2 ^ 1074 := pow_pos two_pos 1074
  have hcast : ((twoTo 1074 : ℕ) : ℚ) = 2 ^ 1074 := by rw [twoTo_eq, Nat.cast_pow, Nat.cast_ofNat]
  rw [contains, Binary64.between, Bool.and_eq_true, decide_eq_true_eq, decide_eq_true_eq,
    Binary64.value, le_div_iff₀ hunit, div_le_iff₀ hunit, ← hcast]
  exact_mod_cast Iff.rfl

namespace Literal

/-- A numeral whose rounding is finite and, under a narrow type, in its range. -/
def FitsNumeric (t : SqlType) (cs : List Char) : Prop :=
  ∃ (n : Numeral) (x : Binary64), n.text = cs ∧ Binary64.IsRounding n.value x ∧
    ∀ w, t.intWidth = some w → (w.range.1 : ℚ) ≤ x.value ∧ x.value ≤ w.range.2

/-- A quoted string that, read back, is no longer than the type allows. -/
def FitsText (t : SqlType) (cs : List Char) : Prop :=
  ∃ inner, Insert.readLiteral cs = some (.string inner, []) ∧
    ∀ max, t.maxLength = some max → (Insert.unescape inner).length ≤ max

theorem readLiteral_quote (cs : List Char) :
    Insert.readLiteral (quote cs) = some (.string (cs.flatMap quoteChar), []) := by
  rw [quote, Insert.readLiteral, Insert.takeString_flatMap cs (by simp)]
  rfl

theorem fitsText_quote {t : SqlType} {cs : List Char} (h : checkLength t cs = none) :
    FitsText t (quote cs) := by
  refine ⟨_, readLiteral_quote cs, fun max hm => ?_⟩
  rw [Insert.unescape_flatMap]
  exact (List.length_filter_le _ _).trans (checkLength_eq_none_iff.mp h max hm)

theorem fitsNumeric_numeric {t : SqlType} {cs : List Char} (h : checkNumber t cs = none) :
    FitsNumeric t (numeric cs) := by
  rcases checkNumber_cases t cs with ⟨-, hc⟩ | ⟨x, hx, ⟨-, hw⟩ | ⟨w, hc⟩⟩
  · simp [hc] at h
  · obtain ⟨n, hn, hr⟩ := Binary64.exists_isRounding hx
    have hs : numeric cs = cs := by rw [numeric, hx, Option.isSome_some, if_pos rfl]
    rw [hs]
    exact ⟨n, x, hn, hr, fun w hwidth => IntWidth.contains_iff.mp (hw w hwidth)⟩
  · simp [hc] at h

/-- Under a type without dates, what passes is empty where that is allowed, or is written by its text and
passes the checks of numbers and lengths. -/
theorem format_of_checkCell_eq_none {cell : Cell} {field : Field} {t : SqlType}
    (ht : t.isDatetime = false) (h : checkCell cell field t = none) :
    (format t cell = null ∧ cell.isNullLike = true ∧ field.nullable = true) ∨
      (format t cell = ofText t cell.trimmed ∧
        (t.isNumeric = true → checkNumber t cell.trimmed = none) ∧
          checkLength t cell.trimmed = none) := by
  have hz : t.isZeroDate cell.trimmed = false := by rw [SqlType.isZeroDate, ht, Bool.false_and]
  rw [format_eq]
  rcases checkCell_eq_none_iff.mp h with ⟨he, hf⟩ | ⟨he, hnum, hlen⟩
  · rw [hz, Bool.or_false] at he
    rw [he, if_pos rfl]
    exact Or.inl ⟨rfl, rfl, hf⟩
  · rw [hz, Bool.or_false] at he
    rw [he, if_neg Bool.false_ne_true]
    exact Or.inr ⟨rfl, hnum, hlen⟩

theorem format_eq_null_of_checkCell {cell : Cell} {field : Field} {t : SqlType}
    {violation : Violation} (h : checkCell cell field t = some violation)
    (hv : violation = .nullNotAllowed ∨ ∃ value, violation = .notNumeric value) :
    format t cell = null := by
  rw [format_eq]
  split
  · rfl
  · next hn =>
    have hn : cell.isNullLike = false := by simpa using hn
    rw [ofText_eq_null_iff]
    rcases checkCell_eq_some h with he | ⟨ht, hc⟩ | hc
    · rw [hn, Bool.false_or] at he
      exact Or.inr (Or.inl he)
    · rcases checkNumber_cases t cell.trimmed with ⟨hx, -⟩ | ⟨x, -, ⟨hc', -⟩ | ⟨w, hc'⟩⟩
      · left
        rw [hx]
        exact ⟨ht, rfl⟩
      · simp [hc'] at hc
      · rw [hc'] at hc
        obtain rfl := Option.some.inj hc
        simp at hv
    · obtain ⟨length, max, declaredType, rfl⟩ := checkLength_eq_some hc
      simp at hv

/-- What passes the check of a numeric or a text column fits the column, and what is flagged as missing or as
no number is written as `NULL`. -/
theorem fits_of_checkCell (cell : Cell) (field : Field) :
    (checkCell cell field field.sqlType = none → field.sqlType.category = .numeric →
      (format field.sqlType cell = null ∧ cell.isNullLike = true ∧ field.nullable = true) ∨
        FitsNumeric field.sqlType (format field.sqlType cell)) ∧
    (checkCell cell field field.sqlType = none → field.sqlType.category = .text →
      (format field.sqlType cell = null ∧ cell.isNullLike = true ∧ field.nullable = true) ∨
        FitsText field.sqlType (format field.sqlType cell)) ∧
    ∀ violation, checkCell cell field field.sqlType = some violation →
      (violation = .nullNotAllowed ∨ ∃ value, violation = .notNumeric value) →
        format field.sqlType cell = null := by
  refine ⟨fun h ht => ?_, fun h ht => ?_, fun violation h hv => format_eq_null_of_checkCell h hv⟩
  · have hd : field.sqlType.isDatetime = false := by simp [SqlType.isDatetime, ht]
    have hn : field.sqlType.isNumeric = true := by simp [SqlType.isNumeric, ht]
    refine (format_of_checkCell_eq_none hd h).imp_right ?_
    rintro ⟨hf, hnum, -⟩
    rw [hf, ofText, ht]
    exact fitsNumeric_numeric (hnum hn)
  · have hd : field.sqlType.isDatetime = false := by simp [SqlType.isDatetime, ht]
    refine (format_of_checkCell_eq_none hd h).imp_right ?_
    rintro ⟨hf, -, hlen⟩
    rw [hf, ofText, ht]
    exact fitsText_quote hlen

/-- A padded numeral at the bound of its range, a string whose escapes do not count, and a text that is no
number. -/
theorem fits_edges :
    (checkCell (.text " 1.27e2\t") ⟨"n", "TINYINT", false⟩ (.parse "TINYINT") = none ∧
      (SqlType.parse "TINYINT").category = .numeric ∧
      FitsNumeric (.parse "TINYINT") (format (.parse "TINYINT") (.text " 1.27e2\t"))) ∧
    (checkCell (.text "'\\\n'") ⟨"s", "VARCHAR(4)", true⟩ (.parse "VARCHAR(4)") = none ∧
      (SqlType.parse "VARCHAR(4)").category = .text ∧
      FitsText (.parse "VARCHAR(4)") (format (.parse "VARCHAR(4)") (.text "'\\\n'"))) ∧
    checkCell (.bool true) ⟨"n", "INT", true⟩ (.parse "INT") = some (.notNumeric "true") ∧
      format (.parse "INT") (.bool true) = null := by
  have hn : checkCell (.text " 1.27e2\t") ⟨"n", "TINYINT", false⟩ (.parse "TINYINT") = none := by
    decide +kernel
  have hs : checkCell (.text "'\\\n'") ⟨"s", "VARCHAR(4)", true⟩ (.parse "VARCHAR(4)") = none := by
    decide +kernel
  have hv : checkCell (.bool true) ⟨"n", "INT", true⟩ (.parse "INT") =
      some (.notNumeric "true") := by
    decide +kernel
  have hnum : (SqlType.parse "TINYINT").category = .numeric := by decide +kernel
  have htext : (SqlType.parse "VARCHAR(4)").category = .text := by decide +kernel
  have hn' : format (.parse "TINYINT") (.text " 1.27e2\t") ≠ null := by decide +kernel
  have hs' : format (.parse "VARCHAR(4)") (.text "'\\\n'") ≠ null := by decide +kernel
  refine ⟨⟨hn, hnum, ?_⟩, ⟨hs, htext, ?_⟩, hv, ?_⟩
  · exact ((fits_of_checkCell _ ⟨"n", "TINYINT", false⟩).1 hn hnum).resolve_left fun h => hn' h.1
  · exact ((fits_of_checkCell _ ⟨"s", "VARCHAR(4)", true⟩).2.1 hs htext).resolve_left
      fun h => hs' h.1
  · exact (fits_of_checkCell _ ⟨"n", "INT", true⟩).2.2 _ hv (Or.inr ⟨_, rfl⟩)

end Literal

end TableLoader
