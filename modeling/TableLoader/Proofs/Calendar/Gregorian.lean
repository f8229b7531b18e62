import TableLoader.Proofs.Calendar.Shapes

/-! # Existing dates

The dates that are accepted are those of the proleptic Gregorian calendar, as the standard library has it, and the
times those of a clock with a leap second. Both are read off their numbers, each in its width. -/
open Std.Time (PlainDate Month.Ordinal Year.Offset)

namespace TableLoader.Calendar

theorem isLeap_eq (year : ℕ) : Year.Offset.isLeap (year : ℤ) = isLeapYear year := by
  have hmod : ∀ k : ℕ, (year : ℤ).tmod k = (year % k : ℕ) := fun k => (Int.ofNat_tmod year k).symm
  have h4 := hmod 4
  have h100 := hmod 100
  have h400 := hmod 400
  simp only [Nat.cast_ofNat] at h4 h100 h400
  rw [Bool.eq_iff_iff]
  simp only [Year.Offset.isLeap, Year.Offset.toInt, h4, h100, h400, isLeapYear, decide_eq_true_eq,
    Bool.and_eq_true, Bool.or_eq_true, beq_iff_eq, bne_iff_ne]
  omega

theorem days_eq (year : ℕ) (month : Month.Ordinal) :
    (Month.Ordinal.days (isLeapYear year) month).val = daysInMonth year month.val.toNat := by
  obtain ⟨m, hlow, hhigh⟩ := month
  have hcases : m = 1 ∨ m = 2 ∨ m = 3 ∨ m = 4 ∨ m = 5 ∨ m = 6 ∨ m = 7 ∨ m = 8 ∨ m = 9 ∨ m = 10 ∨
      m = 11 ∨ m = 12 := by omega
  simp only [daysInMonth]
  rcases hcases with rfl | rfl | rfl | rfl | rfl | rfl | rfl | rfl | rfl | rfl | rfl | rfl <;>
    cases isLeapYear year <;> rfl

theorem month_of_days {year month : ℕ} (h : daysInMonth year month ≠ 0) : 1 ≤ month ∧ month ≤ 12 := by
  unfold daysInMonth at h
  split at h
  all_goals omega

theorem daysInMonth_le (year month : ℕ) : daysInMonth year month ≤ 31 := by
  unfold daysInMonth
  split
  · split <;> decide
  all_goals decide

/-- The dates that the calendar accepts are those of the proleptic Gregorian calendar. -/
theorem isDate_iff {year month day : ℕ} : isDate year month day = true ↔
    ∃ date : PlainDate, date.year.toInt = year ∧ date.month.val = month ∧ date.day.val = day := by
  rw [isDate, Bool.and_eq_true, decide_eq_true_eq, decide_eq_true_eq]
  constructor
  · rintro ⟨hlow, hhigh⟩
    obtain ⟨hm, hm'⟩ := month_of_days (by omega : daysInMonth year month ≠ 0)
    have hd := daysInMonth_le year month
    have hdays := days_eq year ⟨month, by omega, by omega⟩
    rw [← isLeap_eq] at hdays
    refine ⟨⟨(year : ℤ), ⟨month, by omega, by omega⟩, ⟨day, by omega, by omega⟩, ?_⟩, rfl, rfl, rfl⟩
    show (day : ℤ) ≤ (Month.Ordinal.days (Year.Offset.isLeap (year : ℤ)) ⟨month, _⟩).val
    rw [hdays]
    exact_mod_cast hhigh
  · rintro ⟨⟨y, m, d, hvalid⟩, hy, hm, hd⟩
    obtain rfl : y = (year : ℤ) := hy
    have hle : d.val ≤ (Month.Ordinal.days (Year.Offset.isLeap (year : ℤ)) m).val := hvalid
    simp only at hm hd
    rw [isLeap_eq, days_eq, hm, hd, Int.toNat_natCast, Nat.cast_le] at hle
    have hone : 1 ≤ d.val := d.property.1
    exact ⟨by omega, hle⟩

structure Date extends PlainDate where
  year_nonneg : 0 ≤ year.toInt
  year_le : year.toInt ≤ 9999

namespace Date

variable (d : Date)

def yearText : List Char := fixedWidth 4 d.year.toInt.toNat

def monthText : List Char := fixedWidth 2 d.month.val.toNat

def dayText : List Char := fixedWidth 2 d.day.val.toNat

def yearFirst (mark : Char) : List Char := joined mark d.yearText d.monthText d.dayText

def monthFirst : List Char := joined '/' d.monthText d.dayText d.yearText

def dayFirst : List Char := joined '/' d.dayText d.monthText d.yearText

theorem exists_iff {P : List Char → List Char → List Char → Prop} :
    (∃ d : Date, P d.yearText d.monthText d.dayText) ↔
      ∃ year < 10 ^ 4, ∃ month < 10 ^ 2, ∃ day < 10 ^ 2, isDate year month day = true ∧
        P (fixedWidth 4 year) (fixedWidth 2 month) (fixedWidth 2 day) := by
  constructor
  · rintro ⟨d, h⟩
    have hyear := d.year_nonneg
    have hyear' := d.year_le
    have hmonth := d.month.property
    have hday := d.day.property
    refine ⟨d.year.toInt.toNat, by omega, d.month.val.toNat, by omega, d.day.val.toNat, by omega,
      isDate_iff.mpr ⟨d.toPlainDate, ?_, ?_, ?_⟩, h⟩ <;> omega
  · rintro ⟨year, hy, month, -, day, -, hdate, h⟩
    obtain ⟨date, hyear, hmonth, hday⟩ := isDate_iff.mp hdate
    refine ⟨⟨date, by omega, by omega⟩, ?_⟩
    show P (fixedWidth 4 date.year.toInt.toNat) (fixedWidth 2 date.month.val.toNat)
      (fixedWidth 2 date.day.val.toNat)
    rw [hyear, hmonth, hday]
    exact h

theorem length_yearFirst (mark : Char) : (d.yearFirst mark).length = 10 := by
  have hyear := d.year_nonneg
  have hyear' := d.year_le
  have hmonth := d.month.property
  have hday := d.day.property
  exact length_joined (by decide) (by decide) (by decide) (by omega) (by omega) (by omega) mark

end Date

structure ClockTime where
  hour : Fin 24
  minute : Fin 60
  second : Fin 61

def ClockTime.text (t : ClockTime) : List Char :=
  joined ':' (fixedWidth 2 t.hour) (fixedWidth 2 t.minute) (fixedWidth 2 t.second)

theorem ClockTime.exists_iff {P : List Char → List Char → List Char → Prop} :
    (∃ t : ClockTime, P (fixedWidth 2 t.hour) (fixedWidth 2 t.minute) (fixedWidth 2 t.second)) ↔
      ∃ hour < 10 ^ 2, ∃ minute < 10 ^ 2, ∃ second < 10 ^ 2, isTime hour minute second = true ∧
        P (fixedWidth 2 hour) (fixedWidth 2 minute) (fixedWidth 2 second) := by
  simp only [isTime, Bool.and_eq_true, decide_eq_true_eq]
  constructor
  · rintro ⟨⟨hour, minute, second⟩, h⟩
    exact ⟨hour, by omega, minute, by omega, second, by omega, by omega, h⟩
  · rintro ⟨hour, -, minute, -, second, -, ⟨⟨hh, hm⟩, hs⟩, h⟩
    exact ⟨⟨⟨hour, by omega⟩, ⟨minute, by omega⟩, ⟨second, by omega⟩⟩, h⟩

theorem ClockTime.length_text (t : ClockTime) : t.text.length = 8 :=
  length_joined (by decide) (by decide) (by decide) (by omega) (by omega) (by omega) ':'

end TableLoader.Calendar
