import TableLoader.Proofs.Cell.Fitting
import TableLoader.Proofs.Text.Lines
import TableLoader.Proofs.Text.Occurrence

/-! # Bounds on lengths

A type that holds `char` bounds the length of its values by the number in its leftmost parentheses that hold digits
alone, whatever other parentheses stand before them or around them. Digits of another script count as such a group,
but give no bound, and so does a number of more than 64 bits; a group further right is not looked for. In a text
column just the values with more characters than the bound are reported, with their number of characters. -/
namespace TableLoader.SqlType

/-- Digits of any script, alone in parentheses, at a position of a text. -/
structure GroupAt (cs : List Char) (i : ℕ) (digits : List Char) : Prop where
  ne_nil : digits ≠ []
  decimal : ∀ c ∈ digits, Text.isDecimalDigit c = true
  stands : '(' :: (digits ++ [')']) <+: cs.drop i

def FirstGroup (cs digits : List Char) : Prop :=
  ∃ i, GroupAt cs i digits ∧ ∀ j others, GroupAt cs j others → i ≤ j

/-- The bound that a type sets on the length of its values, read off its text in lower case. -/
structure Bounds (lowered : List Char) (n : ℕ) : Prop where
  character : "char".toList <:+: lowered
  group : ∃ digits, FirstGroup lowered digits ∧ (∀ c ∈ digits, c.isDigit = true) ∧ natOfDigits digits = n
  fits : n ≤ 2 ^ 64 - 1

section Groups

variable {cs digits : List Char} {c : Char} {i : ℕ}

theorem not_groupAt_nil : ¬ GroupAt [] i digits := by
  intro h
  have hs := h.stands
  rw [List.drop_nil] at hs
  exact List.cons_ne_nil _ _ (List.prefix_nil.mp hs)

theorem groupAt_cons_succ : GroupAt (c :: cs) (i + 1) digits ↔ GroupAt cs i digits :=
  ⟨fun h => ⟨h.ne_nil, h.decimal, h.stands⟩, fun h => ⟨h.ne_nil, h.decimal, h.stands⟩⟩

/-- A group takes all the digits behind its parenthesis, so at most one stands at a position. -/
theorem groupAt_cons_zero : GroupAt (c :: cs) 0 digits ↔
    digits = cs.takeWhile Text.isDecimalDigit ∧ c = '(' ∧ digits ≠ [] ∧
      (cs.drop digits.length).head? = some ')' := by
  constructor
  · rintro ⟨hne, hdecimal, hs⟩
    obtain ⟨hc, rest, rfl⟩ := List.cons_prefix_cons.mp hs
    rw [List.append_assoc, List.singleton_append]
    have hstop : ∀ c ∈ (')' :: rest).head?, Text.isDecimalDigit c = false := by
      rintro _ ⟨⟩
      decide
    exact ⟨(Text.takeWhile_append_stop hdecimal hstop).1.symm, hc.symm, hne, by rw [List.drop_left]; rfl⟩
  · rintro ⟨hd, rfl, hne, hstop⟩
    refine ⟨hne, fun c hc => List.mem_takeWhile_imp (hd ▸ hc), List.cons_prefix_cons.mpr ⟨rfl, ?_⟩⟩
    obtain ⟨rest, hrest⟩ := List.head?_eq_some_iff.mp hstop
    have hcs : digits ++ cs.drop digits.length = cs := by
      conv_rhs => rw [← List.take_append_drop digits.length cs]
      congr 1
      rw [hd]
      exact (List.prefix_iff_eq_take.mp (List.takeWhile_prefix _))
    exact ⟨rest, by rw [← hcs, hrest, List.append_assoc]; rfl⟩

theorem FirstGroup.cons (h : ∀ others, ¬ GroupAt (c :: cs) 0 others) :
    FirstGroup (c :: cs) digits ↔ FirstGroup cs digits := by
  constructor
  · rintro ⟨i, hi, hmin⟩
    cases i with
    | zero => exact absurd hi (h digits)
    | succ i =>
      refine ⟨i, groupAt_cons_succ.mp hi, fun j others hj => ?_⟩
      exact Nat.le_of_succ_le_succ (hmin (j + 1) others (groupAt_cons_succ.mpr hj))
  · rintro ⟨i, hi, hmin⟩
    refine ⟨i + 1, groupAt_cons_succ.mpr hi, fun j others hj => ?_⟩
    cases j with
    | zero => exact absurd hj (h others)
    | succ j => exact Nat.succ_le_succ (hmin j others (groupAt_cons_succ.mp hj))

/-- The search goes from left to right and stops at the first group. -/
theorem firstDigitGroup?_eq_some_iff : firstDigitGroup? cs = some digits ↔ FirstGroup cs digits := by
  induction cs with
  | nil =>
    constructor
    · intro h
      exact absurd h (Option.some_ne_none digits).symm
    · rintro ⟨i, hi, -⟩
      exact absurd hi not_groupAt_nil
  | cons c cs ih =>
    rw [firstDigitGroup?]
    -- A group at the first position is the leftmost one. Otherwise the groups are those of the rest.
    by_cases hg : GroupAt (c :: cs) 0 (cs.takeWhile Text.isDecimalDigit)
    · rw [if_pos (groupAt_cons_zero.mp hg).2, Option.some_inj]
      constructor
      · rintro rfl
        exact ⟨0, hg, fun j _ _ => Nat.zero_le j⟩
      · rintro ⟨i, hi, hmin⟩
        obtain rfl := Nat.le_zero.mp (hmin 0 _ hg)
        exact (groupAt_cons_zero.mp hi).1.symm
    · have hnone : ∀ others, ¬ GroupAt (c :: cs) 0 others := by
        intro others ho
        exact hg ((groupAt_cons_zero.mp ho).1 ▸ ho)
      rw [if_neg fun hd => hg (groupAt_cons_zero.mpr ⟨rfl, hd⟩), ih, FirstGroup.cons hnone]

theorem exists_firstGroup (h : GroupAt cs i digits) : ∃ first, FirstGroup cs first := by
  classical
  have hex : ∃ j others, GroupAt cs j others := ⟨i, digits, h⟩
  obtain ⟨first, hfirst⟩ := Nat.find_spec hex
  exact ⟨first, Nat.find hex, hfirst, fun j others hj => Nat.find_min' hex ⟨others, hj⟩⟩

theorem firstDigitGroup?_eq_none_iff :
    firstDigitGroup? cs = none ↔ ∀ i digits, ¬ GroupAt cs i digits := by
  rw [Option.eq_none_iff_forall_ne_some]
  constructor
  · intro h i digits hi
    obtain ⟨first, hfirst⟩ := exists_firstGroup hi
    exact h first (firstDigitGroup?_eq_some_iff.mpr hfirst)
  · intro h digits hd
    obtain ⟨i, hi, -⟩ := firstDigitGroup?_eq_some_iff.mp hd
    exact h i digits hi

end Groups

section Parsed

variable {declared : String} {digits : List Char} {n : ℕ}

theorem boundOfDigits?_eq_some_iff : boundOfDigits? digits = some n ↔
    (∀ c ∈ digits, c.isDigit = true) ∧ natOfDigits digits = n ∧ n ≤ 2 ^ 64 - 1 := by
  have hmax : twoTo 64 = 2 ^ 64 := twoTo_eq 64
  rw [boundOfDigits?, hmax]
  split
  · next h =>
    rw [Option.some_inj]
    constructor
    · rintro rfl
      exact ⟨List.all_eq_true.mp h.1, rfl, Nat.le_sub_one_of_lt h.2⟩
    · rintro ⟨-, hn, -⟩
      exact hn
  · next h =>
    constructor
    · intro hn
      exact absurd hn (Option.some_ne_none n).symm
    · rintro ⟨hdigits, rfl, hn⟩
      exact absurd ⟨List.all_eq_true.mpr hdigits, by omega⟩ h

theorem boundOfDigits?_eq_none_iff : boundOfDigits? digits = none ↔
    (∃ c ∈ digits, c.isDigit = false) ∨ 2 ^ 64 ≤ natOfDigits digits := by
  rw [Option.eq_none_iff_forall_ne_some]
  constructor
  · intro h
    by_contra hn
    rw [not_or, Nat.not_le] at hn
    have hdigits : ∀ c ∈ digits, c.isDigit = true := by
      intro c hc
      by_contra hf
      exact hn.1 ⟨c, hc, Bool.eq_false_of_not_eq_true hf⟩
    exact h _ (boundOfDigits?_eq_some_iff.mpr ⟨hdigits, rfl, Nat.le_sub_one_of_lt hn.2⟩)
  · intro h n hn
    obtain ⟨hdigits, rfl, hle⟩ := boundOfDigits?_eq_some_iff.mp hn
    rcases h with ⟨c, hc, hf⟩ | hge
    · exact absurd (hdigits c hc) (by rw [hf]; exact Bool.false_ne_true)
    · omega

theorem maxLength_eq_some_iff :
    (parse declared).maxLength = some n ↔ Bounds (Text.toLower declared.toList) n := by
  have hparse : (parse declared).maxLength = maxLengthOf (Text.toLower declared.toList) := rfl
  rw [hparse, maxLengthOf]
  split
  · next hc =>
    rw [Option.bind_eq_some_iff]
    constructor
    · rintro ⟨digits, hg, hb⟩
      obtain ⟨hdigits, hn, hle⟩ := boundOfDigits?_eq_some_iff.mp hb
      exact ⟨Text.holds_iff_infix.mp hc, ⟨digits, firstDigitGroup?_eq_some_iff.mp hg, hdigits, hn⟩, hle⟩
    · rintro ⟨-, ⟨digits, hg, hdigits, hn⟩, hle⟩
      exact ⟨digits, firstDigitGroup?_eq_some_iff.mpr hg, boundOfDigits?_eq_some_iff.mpr ⟨hdigits, hn, hle⟩⟩
  · next hc =>
    constructor
    · intro hn
      exact absurd hn (Option.some_ne_none n).symm
    · intro h
      exact absurd (Text.holds_iff_infix.mpr h.character) hc

theorem maxLength_eq_none_iff : (parse declared).maxLength = none ↔
    ¬ "char".toList <:+: Text.toLower declared.toList ∨
    (∀ i digits, ¬ GroupAt (Text.toLower declared.toList) i digits) ∨
    ∃ digits, FirstGroup (Text.toLower declared.toList) digits ∧
      ((∃ c ∈ digits, c.isDigit = false) ∨ 2 ^ 64 ≤ natOfDigits digits) := by
  have hparse : (parse declared).maxLength = maxLengthOf (Text.toLower declared.toList) := rfl
  rw [hparse, maxLengthOf, ← firstDigitGroup?_eq_none_iff]
  split
  · next hc =>
    rw [or_iff_right (not_not.mpr (Text.holds_iff_infix.mp hc)), Option.bind_eq_none_iff]
    cases hg : firstDigitGroup? (Text.toLower declared.toList) with
    | none => simp
    | some first =>
      have hfirst := firstDigitGroup?_eq_some_iff.mp hg
      constructor
      · intro h
        exact Or.inr ⟨first, hfirst, boundOfDigits?_eq_none_iff.mp (h first rfl)⟩
      · rintro (hnone | ⟨digits, hd, h⟩) n hn
        · exact absurd hnone (Option.some_ne_none first)
        · rw [← firstDigitGroup?_eq_some_iff, hg] at hd
          obtain rfl := Option.some_inj.mp hd
          obtain rfl := Option.some_inj.mp hn
          exact boundOfDigits?_eq_none_iff.mpr h
  · next hc =>
    exact iff_of_true rfl (Or.inl fun hi => hc (Text.holds_iff_infix.mpr hi))

end Parsed

section Checked

variable {cell : Cell} {field : Field} {t : SqlType} {length max : ℕ} {declaredType : String}

theorem checkLength_of_checkCell
    (h : checkCell cell field t = some (.tooLong length max declaredType)) :
    checkLength t cell.trimmed = some (.tooLong length max declaredType) := by
  simp only [checkCell] at h
  split at h
  · cases hf : field.nullable <;> simp [hf] at h
  · rcases Option.or_eq_some_iff.mp h with hnum | ⟨-, hlen⟩
    · exfalso
      split at hnum
      · rcases checkNumber_cases t cell.trimmed with ⟨-, hc⟩ | ⟨x, -, ⟨hc, -⟩ | ⟨w, hc⟩⟩ <;> simp [hc] at hnum
      · simp at hnum
    · exact hlen

theorem checkCell_of_text (hn : cell.isNullLike = false) (ht : t.category = .text) :
    checkCell cell field t = checkLength t cell.trimmed := by
  have hz : t.isZeroDate cell.trimmed = false := by simp [isZeroDate, isDatetime, ht]
  have hnum : t.isNumeric = false := by simp [isNumeric, ht]
  simp [checkCell, hn, hz, hnum]

end Checked

/-- The bound of a type is the number in its first group, and a type without a bound never finds a value too long. In
a text column the values that hold anything are too long just if they have more characters than the bound. -/
theorem maxLength_exact (declared : String) :
    (∀ n, (parse declared).maxLength = some n ↔ Bounds (Text.toLower declared.toList) n) ∧
    ((parse declared).maxLength = none ↔
      ¬ "char".toList <:+: Text.toLower declared.toList ∨
      (∀ i digits, ¬ GroupAt (Text.toLower declared.toList) i digits) ∨
      ∃ digits, FirstGroup (Text.toLower declared.toList) digits ∧
        ((∃ c ∈ digits, c.isDigit = false) ∨ 2 ^ 64 ≤ natOfDigits digits)) ∧
    ((parse declared).maxLength = none → ∀ cell field length max declaredType,
      checkCell cell field (parse declared) ≠ some (.tooLong length max declaredType)) ∧
    ∀ n, (parse declared).maxLength = some n → (parse declared).category = .text →
      ∀ cell field, cell.isNullLike = false → ∀ length max declaredType,
        checkCell cell field (parse declared) = some (.tooLong length max declaredType) ↔
          n < cell.trimmed.length ∧ length = cell.trimmed.length ∧ max = n ∧ declaredType = declared := by
  refine ⟨fun n => maxLength_eq_some_iff, maxLength_eq_none_iff, ?_, ?_⟩
  · intro hnone cell field length max declaredType h
    obtain ⟨bound, hbound, -⟩ := checkLength_eq_some_iff.mp (checkLength_of_checkCell h)
    rw [hnone] at hbound
    exact Option.some_ne_none bound hbound.symm
  · intro n hn ht cell field hnull length max declaredType
    rw [checkCell_of_text hnull ht, checkLength_eq_some_iff]
    constructor
    · rintro ⟨bound, hbound, hlt, hv⟩
      obtain rfl := Option.some_inj.mp (hn.symm.trans hbound)
      obtain ⟨rfl, rfl, rfl⟩ := Violation.tooLong.inj hv
      exact ⟨hlt, rfl, rfl, rfl⟩
    · rintro ⟨hlt, rfl, rfl, rfl⟩
      exact ⟨max, hn, hlt, rfl⟩

/-- Groups of two numbers are no groups, outer parentheses do not count, leading zeros do not matter, and digits of
another script hide the group behind them. -/
theorem maxLength_exact_groups :
    ((parse "VARCHAR (10,2) ((007))").maxLength = some 7 ∧
      Bounds (Text.toLower "VARCHAR (10,2) ((007))".toList) 7) ∧
    ((parse "VARCHAR (10,2) ((007))").category = .text ∧
      (Cell.text " 12345678\t").isNullLike = false ∧
      checkCell (.text " 12345678\t") ⟨"s", "VARCHAR (10,2) ((007))", true⟩ (parse "VARCHAR (10,2) ((007))") =
        some (.tooLong 8 7 "VARCHAR (10,2) ((007))")) ∧
    (parse "char(\u0663)(5)").maxLength = none ∧
      ∀ cell field length max declaredType,
        checkCell cell field (parse "char(\u0663)(5)") ≠ some (.tooLong length max declaredType) := by
  have hmax : (parse "VARCHAR (10,2) ((007))").maxLength = some 7 := by decide +kernel
  have htext : (parse "VARCHAR (10,2) ((007))").category = .text := by decide +kernel
  have hnull : (Cell.text " 12345678\t").isNullLike = false := by decide +kernel
  have hlength : (Cell.text " 12345678\t").trimmed.length = 8 := by decide +kernel
  have hnone : (parse "char(\u0663)(5)").maxLength = none := by decide +kernel
  obtain ⟨hbound, -, -, hchecked⟩ := maxLength_exact "VARCHAR (10,2) ((007))"
  refine ⟨⟨hmax, (hbound 7).mp hmax⟩, ⟨htext, hnull, ?_⟩, hnone, (maxLength_exact _).2.2.1 hnone⟩
  apply (hchecked 7 hmax htext _ _ hnull 8 7 _).mpr
  rw [hlength]
  exact ⟨by decide, rfl, rfl, rfl⟩

end TableLoader.SqlType
