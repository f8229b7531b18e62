import TableLoader.Proofs.Calendar.Layouts
import TableLoader.Proofs.Cell.Numbers

/-! # Date columns

A cell of a date column is written as its own text between quotes if that text is the text of a written date, and
else as `NULL`: the characters of dates are all kept by quoting, and no zero date and no empty cell is a date. -/
namespace TableLoader

namespace Literal

theorem quote_of_kept {cs : List Char} (h : ∀ c ∈ cs, quoteChar c = [c]) :
    quote cs = '\'' :: (cs ++ ['\'']) := by
  have hkept : cs.flatMap quoteChar = cs := by
    induction cs with
    | nil => rfl
    | cons c cs ih =>
      obtain ⟨hc, hcs⟩ := List.forall_mem_cons.mp h
      rw [List.flatMap_cons, hc, ih hcs, List.singleton_append]
  rw [quote, hkept]

theorem quoteChar_of_isDigit {c : Char} (h : c.isDigit = true) : quoteChar c = [c] := by
  unfold quoteChar
  split
  all_goals first | rfl | exact absurd h (by decide)

end Literal

namespace Calendar

def marks : List Char := ['-', '/', ' ', ':', 'T', '.', 'Z', 'z', '+', '\u2212']

def IsDateChar (c : Char) : Prop := c.isDigit = true ∨ c ∈ marks

theorem IsDateChar.kept {c : Char} (h : IsDateChar c) : Literal.quoteChar c = [c] := by
  rcases h with h | h
  · exact Literal.quoteChar_of_isDigit h
  · have hmarks : marks.all (fun c => Literal.quoteChar c == [c]) = true := by decide
    exact eq_of_beq (List.all_eq_true.mp hmarks c h)

theorem isDateChar_joined {mark : Char} (hm : mark ∈ marks) {a b c : List Char}
    (ha : ∀ x ∈ a, x.isDigit = true) (hb : ∀ x ∈ b, x.isDigit = true) (hc : ∀ x ∈ c, x.isDigit = true) :
    ∀ x ∈ joined mark a b c, IsDateChar x := by
  intro x hx
  simp only [joined, List.mem_append, List.mem_cons] at hx
  rcases hx with hx | rfl | hx | rfl | hx
  · exact Or.inl (ha x hx)
  · exact Or.inr hm
  · exact Or.inl (hb x hx)
  · exact Or.inr hm
  · exact Or.inl (hc x hx)

theorem isDateChar_fraction (fraction : Option Fraction) : ∀ x ∈ fractionText fraction, IsDateChar x := by
  cases fraction with
  | none => simp [fractionText]
  | some ds =>
    exact List.forall_mem_cons.mpr
      ⟨Or.inr (by decide), fun x hx => Or.inl (ds.val.property x hx)⟩

theorem Zone.isDateChar (zone : Zone) : ∀ x ∈ zone.text, IsDateChar x := by
  cases zone with
  | universal mark h =>
    refine List.forall_mem_singleton.mpr (Or.inr ?_)
    rcases h with rfl | rfl <;> decide
  | offset sign h hour minute =>
    have hsign : sign ∈ marks := by rcases h with rfl | rfl | rfl <;> decide
    intro x hx
    simp only [text, List.mem_cons, List.mem_append] at hx
    rcases hx with rfl | hx | rfl | hx
    · exact Or.inr hsign
    · exact Or.inl (isDigit_fixedWidth _ _ x hx)
    · exact Or.inr (by decide)
    · exact Or.inl (isDigit_fixedWidth _ _ x hx)

theorem WrittenDate.isDateChar (w : WrittenDate) : ∀ x ∈ w.text, IsDateChar x := by
  have hdate : ∀ (d : Date) (mark : Char), mark ∈ marks → ∀ x ∈ d.yearFirst mark, IsDateChar x :=
    fun d mark hm => isDateChar_joined hm (isDigit_fixedWidth _ _) (isDigit_fixedWidth _ _)
      (isDigit_fixedWidth _ _)
  have htime : ∀ t : ClockTime, ∀ x ∈ t.text, IsDateChar x :=
    fun t => isDateChar_joined (by decide) (isDigit_fixedWidth _ _) (isDigit_fixedWidth _ _)
      (isDigit_fixedWidth _ _)
  cases w with
  | dashed d => exact hdate d '-' (by decide)
  | slashed d => exact hdate d '/' (by decide)
  | monthFirst d =>
    exact isDateChar_joined (by decide) (isDigit_fixedWidth _ _) (isDigit_fixedWidth _ _)
      (isDigit_fixedWidth _ _)
  | dayFirst d =>
    exact isDateChar_joined (by decide) (isDigit_fixedWidth _ _) (isDigit_fixedWidth _ _)
      (isDigit_fixedWidth _ _)
  | dateTime d t =>
    exact List.forall_mem_append.mpr ⟨hdate d '-' (by decide),
      List.forall_mem_cons.mpr ⟨Or.inr (by decide), htime t⟩⟩
  | timestamp d t fraction zone =>
    refine List.forall_mem_append.mpr ⟨hdate d '-' (by decide),
      List.forall_mem_cons.mpr ⟨Or.inr (by decide), ?_⟩⟩
    exact List.forall_mem_append.mpr ⟨htime t,
      List.forall_mem_append.mpr ⟨isDateChar_fraction fraction, zone.isDateChar⟩⟩

theorem fixedWidth_ne_nil (width n : ℕ) : fixedWidth width n ≠ [] := by
  rw [fixedWidth, List.leftpad]
  exact List.append_ne_nil_of_right_ne_nil _ (natText_ne_nil n)

def WrittenDate.date : WrittenDate → Date
  | dashed d | slashed d | monthFirst d | dayFirst d | dateTime d _ | timestamp d _ _ _ => d

theorem WrittenDate.yearText_subset (w : WrittenDate) : w.date.yearText ⊆ w.text := by
  intro c hc
  cases w <;>
    simp_all [date, text, Date.yearFirst, Date.monthFirst, Date.dayFirst, joined]

theorem WrittenDate.exists_digit (w : WrittenDate) : ∃ c ∈ w.text, c.isDigit = true := by
  obtain ⟨c, hc⟩ := List.exists_mem_of_ne_nil _ (fixedWidth_ne_nil 4 w.date.year.toInt.toNat)
  exact ⟨c, w.yearText_subset hc, isDigit_fixedWidth _ _ c hc⟩

theorem isZeroDate_eq_false {cs : List Char} (h : isRecognized cs = true) (t : SqlType) :
    t.isZeroDate cs = false := by
  have hzero : SqlType.zeroDates.all (fun date => !isRecognized date.toList) = true := by decide +kernel
  rw [SqlType.isZeroDate, Bool.and_eq_false_iff]
  right
  rw [← Bool.not_eq_true, List.any_eq_true]
  rintro ⟨date, hdate, heq⟩
  have hnot := List.all_eq_true.mp hzero date hdate
  rw [eq_of_beq heq, h] at hnot
  exact absurd hnot (by decide)

theorem format_of_isRecognized {t : SqlType} {cell : Cell} (ht : t.category = .datetime)
    (h : isRecognized cell.trimmed = true) :
    Literal.format t cell = '\'' :: (cell.trimmed ++ ['\'']) := by
  obtain ⟨w, hw⟩ := isRecognized_iff.mp h
  obtain ⟨c, hc, hd⟩ := w.exists_digit
  rw [hw] at hc
  have hkept : ∀ x ∈ cell.trimmed, Literal.quoteChar x = [x] := by
    rw [← hw]
    exact fun x hx => (w.isDateChar x hx).kept
  rw [Literal.format_eq, Cell.isNullLike_eq_false hc hd, if_neg Bool.false_ne_true, Literal.ofText, ht]
  show Literal.datetime t cell.trimmed = _
  rw [Literal.datetime, isZeroDate_eq_false h, if_neg Bool.false_ne_true, if_pos h,
    Literal.quote_of_kept hkept]

theorem format_of_not_isRecognized {t : SqlType} {cell : Cell} (ht : t.category = .datetime)
    (h : ¬ isRecognized cell.trimmed = true) : Literal.format t cell = Literal.null := by
  have hnull : Literal.ofText t cell.trimmed = Literal.null := by
    rw [Literal.ofText, ht]
    show Literal.datetime t cell.trimmed = _
    rw [Literal.datetime, if_neg h, ite_self]
  rw [Literal.format_eq, hnull, ite_self]

/-- The recognised texts are those of written dates, and in a date column just these are written, as they stand
between quotes. -/
theorem recognized_exact :
    (∀ cs : List Char, isRecognized cs = true ↔ ∃ w : WrittenDate, w.text = cs) ∧
    ∀ (t : SqlType) (cell : Cell), t.category = .datetime →
      ((∃ w : WrittenDate, w.text = cell.trimmed) ∧
          Literal.format t cell = '\'' :: (cell.trimmed ++ ['\''])) ∨
        ((¬ ∃ w : WrittenDate, w.text = cell.trimmed) ∧ Literal.format t cell = Literal.null) := by
  refine ⟨fun cs => isRecognized_iff, fun t cell ht => ?_⟩
  rw [← isRecognized_iff]
  by_cases h : isRecognized cell.trimmed = true
  · exact Or.inl ⟨h, format_of_isRecognized ht h⟩
  · exact Or.inr ⟨h, format_of_not_isRecognized ht h⟩

/-- A leap second on a leap day, with a fraction and a minus sign beyond ASCII. -/
theorem recognized_exact_leap :
    (SqlType.parse "TIMESTAMP").category = .datetime ∧
    Literal.format (.parse "TIMESTAMP") (.text " 2024-02-29T23:59:60.0250\u221205:30\n") =
      "'2024-02-29T23:59:60.0250\u221205:30'".toList := by
  have ht : (SqlType.parse "TIMESTAMP").category = .datetime := by decide +kernel
  obtain ⟨hwritten, hformat⟩ := recognized_exact
  have hw := (hwritten "2024-02-29T23:59:60.0250\u221205:30".toList).mp (by decide +kernel)
  have htrim : (Cell.text " 2024-02-29T23:59:60.0250\u221205:30\n").trimmed =
      "2024-02-29T23:59:60.0250\u221205:30".toList := by decide +kernel
  have hcell := hformat _ (.text " 2024-02-29T23:59:60.0250\u221205:30\n") ht
  rw [htrim] at hcell
  exact ⟨ht, ((hcell.resolve_right fun h => h.1 hw).2).trans (by decide)⟩

end Calendar

end TableLoader
