import TableLoader.Proofs.Calendar.Gregorian

/-! # Written dates

The dates and times that have a layout, as values, each with its text. A text is recognised exactly if it is the text
of such a value, so that every layout keeps its widths, its marks and the limits of its numbers. -/
namespace TableLoader.Calendar

inductive Zone where
  | universal (mark : Char) (h : mark = 'Z' ∨ mark = 'z')
  | offset (sign : Char) (h : sign = '+' ∨ sign = '-' ∨ sign = '\u2212') (hour : Fin 24) (minute : Fin 60)

def Zone.text : Zone → List Char
  | universal mark _ => [mark]
  | offset sign _ hour minute => sign :: (fixedWidth 2 hour ++ ':' :: fixedWidth 2 minute)

abbrev Fraction := { ds : DigitString // ds.val ≠ [] }

def fractionText : Option Fraction → List Char
  | none => []
  | some ds => '.' :: ds.val.val

inductive WrittenDate where
  | dashed (d : Date)
  | slashed (d : Date)
  | monthFirst (d : Date)
  | dayFirst (d : Date)
  | dateTime (d : Date) (t : ClockTime)
  | timestamp (d : Date) (t : ClockTime) (fraction : Option Fraction) (zone : Zone)

def WrittenDate.text : WrittenDate → List Char
  | dashed d => d.yearFirst '-'
  | slashed d => d.yearFirst '/'
  | monthFirst d => d.monthFirst
  | dayFirst d => d.dayFirst
  | dateTime d t => d.yearFirst '-' ++ ' ' :: t.text
  | timestamp d t fraction zone =>
    d.yearFirst '-' ++ 'T' :: (t.text ++ (fractionText fraction ++ zone.text))

section Layouts

variable {cs : List Char}

/-- Dates with the year in front, and anything behind that fits the rest of the shape. -/
theorem isDateOfShape_yearFirst {shape : String} {mark : Char} {tail : List Char} (hm : mark ≠ '9')
    (hs : shape.toList =
      joined mark (.replicate 4 '9') (.replicate 2 '9') (.replicate 2 '9') ++ tail) :
    isDateOfShape shape 0 5 8 cs = true ↔
      ∃ d : Date, ∃ rest, cs = d.yearFirst mark ++ rest ∧ fits tail rest = true := by
  have hread := fits_joined_numbers (u := 4) (v := 2) (w := 2) (by decide) (by decide) (by decide)
    mark hm tail cs (P := fun year month day => isDate year month day = true)
  have hdate := Date.exists_iff
    (P := fun year month day => ∃ rest, cs = joined mark year month day ++ rest ∧ fits tail rest = true)
  rw [isDateOfShape, Bool.and_eq_true, hs]
  refine hread.trans (Iff.trans ?_ hdate.symm)
  constructor
  · rintro ⟨year, hy, month, hm, day, hd, rest, heq, hrest, h⟩
    exact ⟨year, hy, month, hm, day, hd, h, rest, heq, hrest⟩
  · rintro ⟨year, hy, month, hm, day, hd, h, rest, heq, hrest⟩
    exact ⟨year, hy, month, hm, day, hd, rest, heq, hrest, h⟩

theorem isDateOfShape_alone {shape : String} (mark : Char) (hm : mark ≠ '9')
    (hs : shape.toList = joined mark (.replicate 4 '9') (.replicate 2 '9') (.replicate 2 '9')) :
    isDateOfShape shape 0 5 8 cs = true ↔ ∃ d : Date, d.yearFirst mark = cs := by
  rw [isDateOfShape_yearFirst hm (hs.trans (List.append_nil _).symm)]
  constructor
  · rintro ⟨d, rest, rfl, hrest⟩
    exact ⟨d, by rw [fits_nil.mp hrest, List.append_nil]⟩
  · rintro ⟨d, rfl⟩
    exact ⟨d, [], (List.append_nil _).symm, rfl⟩

/-- Dates with the year at the end, the month and the day in an order of choice. -/
theorem fits_yearLast {P : ℕ → ℕ → ℕ → Prop} :
    fits "99/99/9999".toList cs = true ∧ P (numberAt 6 4 cs) (numberAt 0 2 cs) (numberAt 3 2 cs) ↔
      ∃ year < 10 ^ 4, ∃ a < 10 ^ 2, ∃ b < 10 ^ 2, P year a b ∧
        joined '/' (fixedWidth 2 a) (fixedWidth 2 b) (fixedWidth 4 year) = cs := by
  have hread := fits_joined_numbers (u := 2) (v := 2) (w := 4) (by decide) (by decide) (by decide)
    '/' (by decide) [] cs (P := fun a b year => P year a b)
  refine hread.trans ⟨?_, ?_⟩
  · rintro ⟨a, ha, b, hb, year, hy, rest, rfl, hrest, h⟩
    exact ⟨year, hy, a, ha, b, hb, h, by rw [fits_nil.mp hrest, List.append_nil]⟩
  · rintro ⟨year, hy, a, ha, b, hb, h, rfl⟩
    exact ⟨a, ha, b, hb, year, hy, [], (List.append_nil _).symm, rfl, h⟩

theorem isDateOfShape_monthFirst :
    isDateOfShape "99/99/9999" 6 0 3 cs = true ↔ ∃ d : Date, d.monthFirst = cs := by
  have hdate := Date.exists_iff (P := fun year month day => joined '/' month day year = cs)
  rw [isDateOfShape, Bool.and_eq_true]
  exact (fits_yearLast (P := fun year month day => isDate year month day = true)).trans hdate.symm

theorem isDateOfShape_dayFirst :
    isDateOfShape "99/99/9999" 6 3 0 cs = true ↔ ∃ d : Date, d.dayFirst = cs := by
  have hdate := Date.exists_iff (P := fun year month day => joined '/' day month year = cs)
  rw [isDateOfShape, Bool.and_eq_true]
  refine (fits_yearLast (P := fun year day month => isDate year month day = true)).trans
    (Iff.trans ?_ hdate.symm)
  constructor
  · rintro ⟨year, hy, day, hd, month, hm, h⟩
    exact ⟨year, hy, month, hm, day, hd, h⟩
  · rintro ⟨year, hy, month, hm, day, hd, h⟩
    exact ⟨year, hy, day, hd, month, hm, h⟩

theorem isTimeAfterDate_append {front : List Char} (hl : front.length = 10) {hour minute second : ℕ}
    (hh : hour < 10 ^ 2) (hm : minute < 10 ^ 2) (hs : second < 10 ^ 2) (mark : Char) (rest : List Char) :
    isTimeAfterDate (front ++ mark ::
        (joined ':' (fixedWidth 2 hour) (fixedWidth 2 minute) (fixedWidth 2 second) ++ rest)) =
      isTime hour minute second := by
  obtain ⟨hhour, hminute, hsecond⟩ :=
    numberAt_joined (by decide) (by decide) (by decide) hh hm hs ':' rest
  have hafter : ∀ (k : ℕ) (body : List Char),
      numberAt (10 + (k + 1)) 2 (front ++ mark :: body) = numberAt k 2 body :=
    fun k body => numberAt_after hl (k + 1) 2 (mark :: body)
  rw [isTimeAfterDate, hafter 0, hafter 3, hafter 6, hhour, hminute, hsecond]

theorem clock_iff (mark : Char) (hm : mark ≠ '9') (d : Date) {clock : List Char} (rest : List Char) :
    fits (mark :: joined ':' (.replicate 2 '9') (.replicate 2 '9') (.replicate 2 '9')) clock = true ∧
        isTimeAfterDate (d.yearFirst '-' ++ (clock ++ rest)) = true ↔
      ∃ t : ClockTime, clock = mark :: t.text := by
  have h2 : 0 < 2 := by decide
  have hfits := fits_joined h2 h2 h2 ':' (by decide) []
  rw [List.append_nil] at hfits
  have htime := ClockTime.exists_iff
    (P := fun hour minute second => clock = mark :: joined ':' hour minute second)
  refine Iff.trans ?_ htime.symm
  rw [fits_mark hm]
  constructor
  · rintro ⟨⟨body, rfl, hbody⟩, h⟩
    obtain ⟨hour, hh, minute, hm, second, hs, rest', rfl, hrest⟩ := (hfits _).mp hbody
    rw [fits_nil.mp hrest, List.append_nil] at h ⊢
    rw [List.cons_append, isTimeAfterDate_append (d.length_yearFirst '-') hh hm hs] at h
    exact ⟨hour, hh, minute, hm, second, hs, h, rfl⟩
  · rintro ⟨hour, hh, minute, hm, second, hs, h, rfl⟩
    rw [List.cons_append, isTimeAfterDate_append (d.length_yearFirst '-') hh hm hs]
    have hbody := (hfits _).mpr ⟨hour, hh, minute, hm, second, hs, [], (List.append_nil _).symm, rfl⟩
    exact ⟨⟨_, rfl, hbody⟩, h⟩

theorem isDateTime_iff :
    isDateOfShape "9999-99-99 99:99:99" 0 5 8 cs = true ∧ isTimeAfterDate cs = true ↔
      ∃ (d : Date) (t : ClockTime), d.yearFirst '-' ++ ' ' :: t.text = cs := by
  have hshape : "9999-99-99 99:99:99".toList =
      joined '-' (.replicate 4 '9') (.replicate 2 '9') (.replicate 2 '9') ++
        ' ' :: joined ':' (.replicate 2 '9') (.replicate 2 '9') (.replicate 2 '9') := by decide
  rw [isDateOfShape_yearFirst (by decide) hshape]
  constructor
  · rintro ⟨⟨d, rest, rfl, hrest⟩, h⟩
    rw [← List.append_nil rest] at h
    obtain ⟨t, rfl⟩ := (clock_iff ' ' (by decide) d []).mp ⟨hrest, h⟩
    exact ⟨d, t, rfl⟩
  · rintro ⟨d, t, rfl⟩
    obtain ⟨hrest, h⟩ := (clock_iff ' ' (by decide) d []).mpr ⟨t, rfl⟩
    rw [List.append_nil] at h
    exact ⟨⟨d, _, rfl, hrest⟩, h⟩

theorem fits_offset {rest : List Char} : fits "99:99".toList rest = true ↔
    ∃ hour < 10 ^ 2, ∃ minute < 10 ^ 2, rest = fixedWidth 2 hour ++ ':' :: fixedWidth 2 minute := by
  have hshape : "99:99".toList =
      List.replicate 2 '9' ++ (':' :: (List.replicate 2 '9' ++ [])) := by decide
  rw [hshape, fits_number (by decide)]
  simp only [fits_mark (show ':' ≠ '9' by decide), fits_number (show 0 < 2 by decide), fits_nil]
  constructor
  · rintro ⟨hour, hh, _, rfl, _, rfl, minute, hm, _, rfl, rfl⟩
    exact ⟨hour, hh, minute, hm, by rw [List.append_nil]⟩
  · rintro ⟨hour, hh, minute, hm, rfl⟩
    exact ⟨hour, hh, _, rfl, _, rfl, minute, hm, [], (List.append_nil _).symm, rfl⟩

theorem numberAt_offset {hour minute : ℕ} (hh : hour < 10 ^ 2) (hm : minute < 10 ^ 2) :
    numberAt 0 2 (fixedWidth 2 hour ++ ':' :: fixedWidth 2 minute) = hour ∧
      numberAt 3 2 (fixedWidth 2 hour ++ ':' :: fixedWidth 2 minute) = minute := by
  have h2 : 0 < 2 := by decide
  refine ⟨numberAt_fixedWidth h2 hh _, ?_⟩
  have hminute := numberAt_fixedWidth h2 hm []
  rw [List.append_nil] at hminute
  exact (numberAt_after (length_fixedWidth h2 hh) 1 2 _).trans hminute

theorem isOffset_iff : isOffset cs = true ↔ ∃ zone : Zone, zone.text = cs := by
  constructor
  · intro h
    unfold isOffset at h
    split at h
    · exact ⟨.universal 'Z' (Or.inl rfl), rfl⟩
    · exact ⟨.universal 'z' (Or.inr rfl), rfl⟩
    · next sign rest _ _ =>
      simp only [Bool.and_eq_true, Bool.or_eq_true, beq_iff_eq, decide_eq_true_eq] at h
      obtain ⟨⟨⟨hsign, hfits⟩, hhour⟩, hminute⟩ := h
      obtain ⟨hour, hh, minute, hm, rfl⟩ := fits_offset.mp hfits
      obtain ⟨hnh, hnm⟩ := numberAt_offset hh hm
      rw [hnh] at hhour
      rw [hnm] at hminute
      exact ⟨.offset sign (or_assoc.mp hsign) ⟨hour, by omega⟩ ⟨minute, by omega⟩, rfl⟩
    · simp at h
  · rintro ⟨zone, rfl⟩
    cases zone with
    | universal mark h => rcases h with rfl | rfl <;> rfl
    | offset sign h hour minute =>
      have hh : (hour : ℕ) < 10 ^ 2 := by omega
      have hm : (minute : ℕ) < 10 ^ 2 := by omega
      have hfits := fits_offset.mpr ⟨hour, hh, minute, hm, rfl⟩
      obtain ⟨hnh, hnm⟩ := numberAt_offset hh hm
      have hlong : fixedWidth 2 hour ++ ':' :: fixedWidth 2 minute ≠ [] := by simp
      rw [Zone.text, isOffset]
      · simp only [hfits, hnh, hnm, Bool.and_eq_true, Bool.or_eq_true, beq_iff_eq, decide_eq_true_eq]
        exact ⟨⟨⟨or_assoc.mpr h, trivial⟩, by omega⟩, by omega⟩
      · exact fun _ => hlong
      · exact fun _ => hlong

/-- A zone begins with no digit and no point. -/
theorem Zone.head?_text (zone : Zone) : ∀ c ∈ zone.text.head?, c.isDigit = false ∧ c ≠ '.' := by
  cases zone with
  | universal mark h =>
    rintro _ ⟨⟩
    rcases h with rfl | rfl <;> decide
  | offset sign h hour minute =>
    rintro _ ⟨⟩
    rcases h with rfl | rfl | rfl <;> decide

theorem afterFraction?_iff : (afterFraction? cs).any isOffset = true ↔
    ∃ (fraction : Option Fraction) (zone : Zone), fractionText fraction ++ zone.text = cs := by
  constructor
  · intro h
    unfold afterFraction? at h
    split at h
    · next cs =>
      obtain ⟨ds, hds, hrest⟩ := exists_digits cs
      simp only [hds] at h
      split at h
      · simp at h
      · next hne =>
        obtain ⟨zone, hzone⟩ := isOffset_iff.mp h
        refine ⟨some ⟨ds, hne⟩, zone, ?_⟩
        rw [hzone, fractionText, List.cons_append, ← hrest]
    · obtain ⟨zone, hzone⟩ := isOffset_iff.mp h
      exact ⟨none, zone, hzone⟩
  · rintro ⟨fraction, zone, rfl⟩
    have hzone : isOffset zone.text = true := isOffset_iff.mpr ⟨zone, rfl⟩
    have hhead := zone.head?_text
    cases fraction with
    | none =>
      rw [fractionText, List.nil_append, afterFraction?, Option.any_some, hzone]
      intro rest h
      exact (hhead '.' (by rw [h]; rfl)).2 rfl
    | some ds =>
      have htake := takeDigits_append ds.val.property fun c hc => (hhead c hc).1
      rw [fractionText, List.cons_append, afterFraction?]
      simp only [htake, if_neg ds.property, Option.any_some, hzone]

theorem isTimestamp_iff : isTimestamp cs = true ↔
    ∃ (d : Date) (t : ClockTime) (fraction : Option Fraction) (zone : Zone),
      d.yearFirst '-' ++ 'T' :: (t.text ++ (fractionText fraction ++ zone.text)) = cs := by
  have hshape : "9999-99-99T99:99:99".toList =
      joined '-' (.replicate 4 '9') (.replicate 2 '9') (.replicate 2 '9') ++
        'T' :: joined ':' (.replicate 2 '9') (.replicate 2 '9') (.replicate 2 '9') := by decide
  rw [isTimestamp, Bool.and_eq_true, Bool.and_eq_true, afterFraction?_iff,
    isDateOfShape_yearFirst (by decide) hshape]
  constructor
  · rintro ⟨⟨⟨d, rest, htake, hrest⟩, htime⟩, fraction, zone, hdrop⟩
    have hcs : cs = d.yearFirst '-' ++ (rest ++ cs.drop 19) := by
      rw [← List.append_assoc, ← htake, List.take_append_drop]
    rw [hcs] at htime
    obtain ⟨t, rfl⟩ := (clock_iff 'T' (by decide) d _).mp ⟨hrest, htime⟩
    refine ⟨d, t, fraction, zone, ?_⟩
    rw [hdrop]
    exact hcs.symm
  · rintro ⟨d, t, fraction, zone, rfl⟩
    have hsplit : d.yearFirst '-' ++ 'T' :: (t.text ++ (fractionText fraction ++ zone.text)) =
        d.yearFirst '-' ++ 'T' :: t.text ++ (fractionText fraction ++ zone.text) := by simp
    have hlength : (d.yearFirst '-' ++ 'T' :: t.text).length = 19 := by
      rw [List.length_append, List.length_cons, d.length_yearFirst, t.length_text]
    obtain ⟨hrest, htime⟩ := (clock_iff 'T' (by decide) d _).mpr ⟨t, rfl⟩
    refine ⟨⟨⟨d, 'T' :: t.text, ?_, hrest⟩, htime⟩, fraction, zone, ?_⟩
    · rw [hsplit, List.take_left' hlength]
    · rw [hsplit, List.drop_left' hlength]

/-- The texts that are recognised are those of written dates. -/
theorem isRecognized_iff : isRecognized cs = true ↔ ∃ w : WrittenDate, w.text = cs := by
  rw [isRecognized, Bool.or_eq_true, Bool.or_eq_true, Bool.or_eq_true, Bool.or_eq_true,
    Bool.or_eq_true, Bool.and_eq_true, isTimestamp_iff, isDateTime_iff, isDateOfShape_monthFirst,
    isDateOfShape_dayFirst, isDateOfShape_alone '-' (by decide) (by decide),
    isDateOfShape_alone '/' (by decide) (by decide)]
  constructor
  · rintro (((((⟨d, h⟩ | ⟨d, t, h⟩) | ⟨d, h⟩) | ⟨d, h⟩) | ⟨d, h⟩) | ⟨d, t, fraction, zone, h⟩)
    · exact ⟨.dashed d, h⟩
    · exact ⟨.dateTime d t, h⟩
    · exact ⟨.monthFirst d, h⟩
    · exact ⟨.dayFirst d, h⟩
    · exact ⟨.slashed d, h⟩
    · exact ⟨.timestamp d t fraction zone, h⟩
  · rintro ⟨w, h⟩
    cases w with
    | dashed d => exact Or.inl (Or.inl (Or.inl (Or.inl (Or.inl ⟨d, h⟩))))
    | dateTime d t => exact Or.inl (Or.inl (Or.inl (Or.inl (Or.inr ⟨d, t, h⟩))))
    | monthFirst d => exact Or.inl (Or.inl (Or.inl (Or.inr ⟨d, h⟩)))
    | dayFirst d => exact Or.inl (Or.inl (Or.inr ⟨d, h⟩))
    | slashed d => exact Or.inl (Or.inr ⟨d, h⟩)
    | timestamp d t fraction zone => exact Or.inr ⟨d, t, fraction, zone, h⟩

end Layouts

end TableLoader.Calendar
