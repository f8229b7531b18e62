import TableLoader.Proofs.Cell.Fitting
import TableLoader.Proofs.Cell.Numbers
import TableLoader.Proofs.Number.Finite
import TableLoader.Proofs.Text.Occurrence

/-! # Numeric columns

Which cells of a numeric column have a literal, which of them lie in the range of a narrow type, and what becomes
of the cells that are numbers already. Writer and check read a text apart from each other and draw the same line:
the numerals that round to a finite double. -/
namespace TableLoader

namespace Literal

theorem numeric_of_isFiniteNumeral {cs : List Char} (h : IsFiniteNumeral cs) : numeric cs = cs :=
  if_pos (isFiniteNumeral_iff.mp h)

theorem format_of_isNumeric {cell : Cell} {t : SqlType} (hn : cell.isNullLike = false)
    (ht : t.category = .numeric) : format t cell = numeric cell.trimmed := by
  rw [format_eq, hn, if_neg Bool.false_ne_true, ofText, ht]

end Literal

theorem checkNumber_eq_notNumeric_iff {t : SqlType} {cs : List Char} {value : String} :
    checkNumber t cs = some (.notNumeric value) ↔
      value = String.ofList cs ∧ ¬ IsFiniteNumeral cs := by
  rw [isFiniteNumeral_iff]
  rcases checkNumber_cases t cs with ⟨hx, hc⟩ | ⟨x, hx, ⟨hc, -⟩ | ⟨w, hc⟩⟩
  · simp [hx, hc, eq_comm]
  · simp [hx, hc]
  · simp [hx, hc]

section Check

variable {cell : Cell} {t : SqlType} (field : Field)

/-- A cell of a numeric column that holds anything is checked as a number, and only then for its length. -/
theorem checkCell_of_isNumeric (hn : cell.isNullLike = false) (ht : t.category = .numeric) :
    checkCell cell field t = (checkNumber t cell.trimmed).or (checkLength t cell.trimmed) := by
  have hz : t.isZeroDate cell.trimmed = false := by simp [SqlType.isZeroDate, SqlType.isDatetime, ht]
  have hnum : t.isNumeric = true := by simp [SqlType.isNumeric, ht]
  simp only [checkCell, hn, hz, hnum, Bool.or_self, Bool.false_eq_true, if_false, if_true]

theorem checkCell_eq_notNumeric_iff (hn : cell.isNullLike = false) (ht : t.category = .numeric)
    {value : String} : checkCell cell field t = some (.notNumeric value) ↔
      value = String.ofList cell.trimmed ∧ ¬ IsFiniteNumeral cell.trimmed := by
  rw [checkCell_of_isNumeric field hn ht, ← checkNumber_eq_notNumeric_iff (t := t),
    Option.or_eq_some_iff, or_iff_left_iff_imp]
  rintro ⟨-, hl⟩
  obtain ⟨length, max, declaredType, h⟩ := checkLength_eq_some hl
  exact absurd h (by simp)

end Check

/-- In a numeric column the numerals that round to a finite double stand for themselves, all other texts become
`NULL`, and those are just the ones that the check finds to be no number. -/
theorem Literal.format_numeric_exact {cell : Cell} {t : SqlType} (field : Field)
    (hn : cell.isNullLike = false) (ht : t.category = .numeric) :
    (IsFiniteNumeral cell.trimmed → format t cell = cell.trimmed) ∧
    (¬ IsFiniteNumeral cell.trimmed → format t cell = null) ∧
    ∀ value, checkCell cell field t = some (.notNumeric value) ↔
      value = String.ofList cell.trimmed ∧ format t cell = null := by
  have hf := format_of_isNumeric hn ht
  have hnull : format t cell = null ↔ ¬ IsFiniteNumeral cell.trimmed := by
    rw [hf, numeric_eq_null_iff, isFiniteNumeral_iff, Bool.not_eq_true]
  refine ⟨fun h => ?_, hnull.mpr, fun value => ?_⟩
  · rw [hf, numeric_of_isFiniteNumeral h]
  · rw [hnull]
    exact checkCell_eq_notNumeric_iff field hn ht

/-- The greatest double written short, padded, and a text one step above it, which rounds to infinity. -/
theorem Literal.format_numeric_edge :
    (Cell.isNullLike (.text " 1.7976931348623158E+308\n") = false ∧
      Cell.isNullLike (.text "1.7976931348623159E+308") = false ∧
      (SqlType.parse "DOUBLE").category = .numeric) ∧
    format (.parse "DOUBLE") (.text " 1.7976931348623158E+308\n") =
      "1.7976931348623158E+308".toList ∧
    checkCell (.text "1.7976931348623159E+308") ⟨"d", "DOUBLE", true⟩ (.parse "DOUBLE") =
      some (.notNumeric "1.7976931348623159E+308") := by
  have hlow : Cell.isNullLike (.text " 1.7976931348623158E+308\n") = false := by decide +kernel
  have hhigh : Cell.isNullLike (.text "1.7976931348623159E+308") = false := by decide +kernel
  have ht : (SqlType.parse "DOUBLE").category = .numeric := by decide +kernel
  refine ⟨⟨hlow, hhigh, ht⟩, ?_, ?_⟩
  · have h := (format_numeric_exact ⟨"d", "DOUBLE", true⟩ hlow ht).1
    exact (h (isFiniteNumeral_iff.mpr (by decide +kernel))).trans (by decide +kernel)
  · have h := (format_numeric_exact ⟨"d", "DOUBLE", true⟩ hhigh ht).2
    exact (h.2 _).mpr ⟨by decide +kernel,
      h.1 (mt isFiniteNumeral_iff.mp (by decide +kernel))⟩

namespace IntWidth

def bits : IntWidth → ℕ
  | tiny => 8
  | small => 16

def Holds (w : IntWidth) (v : ℤ) : Prop := -2 ^ (w.bits - 1) ≤ v ∧ v < 2 ^ (w.bits - 1)

instance (w : IntWidth) (v : ℤ) : Decidable (w.Holds v) := inferInstanceAs (Decidable (_ ∧ _))

theorem holds_iff {w : IntWidth} {v : ℤ} : w.Holds v ↔ w.range.1 ≤ v ∧ v ≤ w.range.2 := by
  cases w with
  | tiny =>
    show -2 ^ 7 ≤ v ∧ v < 2 ^ 7 ↔ -128 ≤ v ∧ v ≤ 127
    omega
  | small =>
    show -2 ^ 15 ≤ v ∧ v < 2 ^ 15 ↔ -32768 ≤ v ∧ v ≤ 32767
    omega

theorem Holds.inRange {w : IntWidth} {v : ℤ} (h : w.Holds v) : |v| < 2 ^ 1024 - 2 ^ 970 := by
  have hsmall : |v| < 2 ^ 16 := by
    rw [abs_lt]
    rw [holds_iff] at h
    cases w with
    | tiny =>
      simp only [range] at h
      omega
    | small =>
      simp only [range] at h
      omega
  calc |v| < 2 ^ 16 := hsmall
    _ ≤ 2 ^ 1024 - 2 ^ 970 := by decide +kernel

/-- The comparison of a double is exact on whole numbers, though they are rounded first. -/
theorem contains_iff_holds {w : IntWidth} {v : ℤ} {x : Binary64} (h : Binary64.IsRounding v x) :
    w.contains x = true ↔ w.Holds v := by
  rw [contains_iff, holds_iff]
  cases w with
  | tiny => exact h.between_iff (by decide) (by decide)
  | small => exact h.between_iff (by decide) (by decide)

end IntWidth

namespace SqlType

theorem category_of_intWidth {declared : String} {w : IntWidth} (h : (parse declared).intWidth = some w) :
    (parse declared).category = .numeric := by
  have hint : Text.holds "int".toList (Text.toLower declared.toList) = true := by
    have hw : intWidthOf (Text.toLower declared.toList) = some w := h
    unfold intWidthOf at hw
    split at hw
    · next hint => exact hint
    · cases hw
  have hany : holdsAny numericWords (Text.toLower declared.toList) = true :=
    List.any_eq_true.mpr ⟨"int", by simp [numericWords], hint⟩
  exact if_pos hany

end SqlType

theorem Numeral.isNullLike_eq_false {n : Numeral} {cell : Cell} (h : n.text = cell.trimmed) :
    cell.isNullLike = false := by
  obtain ⟨c, hc, hd⟩ := n.exists_digit
  rw [h] at hc
  exact Cell.isNullLike_eq_false hc hd

theorem Numeral.abs_value_lt_iff {n : Numeral} {v : ℤ} (hv : n.value = v) :
    |n.value| < 2 ^ 1024 - 2 ^ 970 ↔ |v| < 2 ^ 1024 - 2 ^ 970 := by
  have hcast : ((2 ^ 1024 - 2 ^ 970 : ℤ) : ℚ) = 2 ^ 1024 - 2 ^ 970 := by
    rw [Int.cast_sub, Int.cast_pow, Int.cast_pow, Int.cast_ofNat]
  rw [hv, ← Int.cast_abs, ← hcast, Int.cast_lt]

section Range

variable {cell : Cell} {field : Field} {w : IntWidth} {n : Numeral} {v : ℤ}

theorem checkCell_eq_checkNumber (hn : cell.isNullLike = false)
    (hw : field.sqlType.intWidth = some w) (hm : field.sqlType.maxLength = none) :
    checkCell cell field field.sqlType = checkNumber field.sqlType cell.trimmed := by
  have ht : field.sqlType.category = .numeric := SqlType.category_of_intWidth hw
  have hlength : checkLength field.sqlType cell.trimmed = none := by
    rw [checkLength, hm, Option.bind_none]
  rw [checkCell_of_isNumeric field hn ht, hlength, Option.or_none]

/-- A whole number in the finite range is compared as if it were not rounded. -/
theorem checkNumber_of_whole {t : SqlType} (hv : n.value = v) (hw : t.intWidth = some w)
    (h : |v| < 2 ^ 1024 - 2 ^ 970) : checkNumber t n.text =
      if w.Holds v then none else some (.outOfRange (String.ofList n.text) w) := by
  obtain ⟨x, hx, hr⟩ := Numeral.exists_ofText? ((Numeral.abs_value_lt_iff hv).mpr h)
  rw [hv] at hr
  simp only [checkNumber, hx, hw, Option.bind_some]
  exact if_congr (IntWidth.contains_iff_holds hr) rfl rfl

/-- The range check of a narrow type is exact on all texts that denote whole numbers. -/
theorem checkCell_whole_exact (hn : n.text = cell.trimmed) (hv : n.value = v)
    (hw : field.sqlType.intWidth = some w) (hm : field.sqlType.maxLength = none) :
    (checkCell cell field field.sqlType = none ↔ w.Holds v) ∧
    ((∃ value, checkCell cell field field.sqlType = some (.notNumeric value)) ↔
      2 ^ 1024 - 2 ^ 970 ≤ |v|) ∧
    (¬ w.Holds v → |v| < 2 ^ 1024 - 2 ^ 970 →
      checkCell cell field field.sqlType = some (.outOfRange (String.ofList cell.trimmed) w)) := by
  rw [checkCell_eq_checkNumber (Numeral.isNullLike_eq_false hn) hw hm, ← hn]
  by_cases h : |v| < 2 ^ 1024 - 2 ^ 970
  · rw [checkNumber_of_whole hv hw h]
    refine ⟨?_, ?_, fun hout _ => if_neg hout⟩
    · by_cases hh : w.Holds v <;> simp [hh]
    · refine iff_of_false ?_ (not_le.mpr h)
      by_cases hh : w.Holds v <;> simp [hh]
  · have hnone : Binary64.ofText? n.text = none :=
      n.ofText?_eq_none_iff.mpr (not_lt.mp (mt (Numeral.abs_value_lt_iff hv).mp h))
    have hcheck : checkNumber field.sqlType n.text = some (.notNumeric (String.ofList n.text)) := by
      simp only [checkNumber, hnone]
    rw [hcheck]
    refine ⟨?_, ?_, fun _ hlt => absurd hlt h⟩
    · exact iff_of_false (Option.some_ne_none _) fun hh => h hh.inRange
    · exact iff_of_true ⟨_, rfl⟩ (not_lt.mp h)

end Range

def shiftedNumeral : Numeral where
  sign := .plus
  whole := ⟨"001270".toList, List.all_eq_true.mp (by decide)⟩
  fraction := some ⟨"0".toList, List.all_eq_true.mp (by decide)⟩
  exponent := some (placeExponent (-1))
  some_digit := Or.inl (by decide)

def hugeNumeral : Numeral where
  sign := .minus
  whole := ⟨"1".toList, List.all_eq_true.mp (by decide)⟩
  fraction := none
  exponent := some ⟨'E', .absent, ⟨"309".toList, List.all_eq_true.mp (by decide)⟩, Or.inr rfl, by decide⟩
  some_digit := Or.inl (by decide)

theorem checkCell_whole_edges :
    (shiftedNumeral.text = (Cell.text " +001270.0e-1").trimmed ∧ shiftedNumeral.value = (127 : ℤ) ∧
      hugeNumeral.text = (Cell.text "-1E309").trimmed ∧ hugeNumeral.value = (-10 ^ 309 : ℤ) ∧
      (SqlType.parse "TINYINT").intWidth = some .tiny ∧ (SqlType.parse "TINYINT").maxLength = none) ∧
    checkCell (.text " +001270.0e-1") ⟨"n", "TINYINT", true⟩ (.parse "TINYINT") = none ∧
    ∃ value, checkCell (.text "-1E309") ⟨"n", "TINYINT", true⟩ (.parse "TINYINT") =
      some (.notNumeric value) := by
  have htext : shiftedNumeral.text = (Cell.text " +001270.0e-1").trimmed := by decide +kernel
  have hvalue : shiftedNumeral.value = (127 : ℤ) := by
    have hd : shiftedNumeral.decimal = ⟨false, 12700, -2⟩ := by decide +kernel
    rw [← Numeral.value_decimal, hd, Decimal.value]
    norm_num
  have htext' : hugeNumeral.text = (Cell.text "-1E309").trimmed := by decide +kernel
  have hvalue' : hugeNumeral.value = (-10 ^ 309 : ℤ) := by
    have hd : hugeNumeral.decimal = ⟨true, 1, (309 : ℕ)⟩ := by decide +kernel
    rw [← Numeral.value_decimal, hd, Decimal.value, if_pos rfl, Nat.cast_one, mul_one, neg_one_mul,
      zpow_natCast, Int.cast_neg, Int.cast_pow, Int.cast_ofNat]
  have hw : (SqlType.parse "TINYINT").intWidth = some .tiny := by decide +kernel
  have hm : (SqlType.parse "TINYINT").maxLength = none := by decide +kernel
  have hexact := fun cell => @checkCell_whole_exact cell ⟨"n", "TINYINT", true⟩ .tiny
  refine ⟨⟨htext, hvalue, htext', hvalue', hw, hm⟩, ?_, ?_⟩
  · exact (hexact _ htext hvalue hw hm).1.mpr (by decide)
  · exact (hexact _ htext' hvalue' hw hm).2.1.mpr (by decide +kernel)

namespace Number

/-- The double that a number has: itself, or for a whole number the nearest one, with no sign on zero. -/
def HasDouble : Number → Binary64 → Prop
  | natural n, x => Binary64.IsRounding n.val x ∧ x.negative = false
  | negative n, x => Binary64.IsRounding (-(n.val + 1)) x
  | double y, x => x = y

theorem isRounding_written {n : Number} {x : Binary64} (h : Binary64.ofText? n.text = some x) :
    Binary64.IsRounding n.written x := by
  obtain ⟨m, hm, hv⟩ := n.exists_numeral
  obtain ⟨k, hk, hr⟩ := Binary64.exists_isRounding h
  rwa [Numeral.value_congr (hk.trans hm.symm), hv] at hr

theorem negative_eq {n : Number} {x : Binary64} (h : Binary64.ofText? n.text = some x) :
    x.negative = n.literal.negative := by
  rw [Binary64.ofText?, n.ofText?_text, Option.bind_some] at h
  exact Decimal.negative_of_toBinary64? h

theorem exists_hasDouble (n : Number) : ∃ x, Binary64.ofText? n.text = some x ∧ n.HasDouble x := by
  obtain ⟨x, hx⟩ := n.exists_ofText?
  refine ⟨x, hx, ?_⟩
  cases n with
  | natural n => exact ⟨isRounding_written hx, negative_eq hx⟩
  | negative n => exact isRounding_written hx
  | double y =>
    have hy : Binary64.ofText? (double y).text = some y := y.ofText?_text
    exact Option.some.inj (hx.symm.trans hy)

/-- A number is never lost under a numeric type: it is written by its own text, which the check takes for a number
and which is read as the double that the number has. -/
theorem format_number_kept (n : Number) {t : SqlType} (field : Field) (ht : t.category = .numeric) :
    Literal.format t (.number n) = n.text ∧ n.text ≠ Literal.null ∧
    (∀ value, checkCell (.number n) field t ≠ some (.notNumeric value)) ∧
    ∃ x, Binary64.ofText? (Literal.format t (.number n)) = some x ∧ n.HasDouble x := by
  have hformat := Literal.format_number ht n
  obtain ⟨x, hx, hdouble⟩ := n.exists_hasDouble
  have hfinite : IsFiniteNumeral n.text := isFiniteNumeral_iff.mpr (by rw [hx, Option.isSome_some])
  obtain ⟨m, hm, -⟩ := n.exists_numeral
  have hnull : (Cell.number n).isNullLike = false :=
    Numeral.isNullLike_eq_false (hm.trans (Literal.trimmed_number n).symm)
  refine ⟨hformat, ?_, fun value h => ?_, x, by rw [hformat, hx], hdouble⟩
  · rw [← Literal.numeric_of_isFiniteNumeral hfinite, Ne, Literal.numeric_eq_null_iff, hx]
    simp
  · have hnot := ((checkCell_eq_notNumeric_iff field hnull ht).mp h).2
    rw [Literal.trimmed_number] at hnot
    exact hnot hfinite

/-- A zero with a sign, the least double, and a whole number that no double is. -/
theorem format_number_kept_edges :
    (SqlType.parse "DECIMAL(9,2)").category = .numeric ∧
    Literal.format (.parse "DECIMAL(9,2)") (.number (.double ⟨true, 0, 0⟩)) = "-0.0".toList ∧
    Literal.format (.parse "DECIMAL(9,2)") (.number (.double ⟨false, 0, 1⟩)) = "5e-324".toList ∧
    ∃ x, Binary64.ofText? "18446744073709551615".toList = some x ∧
      HasDouble (.natural ⟨2 ^ 64 - 1, by decide⟩) x := by
  have ht : (SqlType.parse "DECIMAL(9,2)").category = .numeric := by decide +kernel
  have hkept := fun n => format_number_kept n ⟨"d", "DECIMAL(9,2)", true⟩ ht
  refine ⟨ht, ?_, ?_, ?_⟩
  · exact (hkept (.double ⟨true, 0, 0⟩)).1.trans (by decide +kernel)
  · exact (hkept (.double ⟨false, 0, 1⟩)).1.trans (by decide +kernel)
  · obtain ⟨hformat, -, -, x, hx, hdouble⟩ := hkept (.natural ⟨2 ^ 64 - 1, by decide⟩)
    have htext : text (.natural ⟨2 ^ 64 - 1, by decide⟩) = "18446744073709551615".toList := by
      decide +kernel
    rw [hformat, htext] at hx
    exact ⟨x, hx, hdouble⟩

end Number

end TableLoader
