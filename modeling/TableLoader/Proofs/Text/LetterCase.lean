import Mathlib
import TableLoader.Text.Blank
import TableLoader.Text.LetterCase

/-! # Texts equal up to case

Texts that differ only in the case of ASCII letters have the same lower-case form, and one that so equals a word
of capitals has that word as its upper-case form. -/
namespace TableLoader.Text

theorem toNat_of_isAlphanum {c : Char} (h : c.isAlphanum = true) :
    48 ≤ c.toNat ∧ c.toNat ≤ 122 := by
  have h0 : '0'.val.toNat = 48 := rfl
  have h9 : '9'.val.toNat = 57 := rfl
  have hA : 'A'.val.toNat = 65 := rfl
  have hZ : 'Z'.val.toNat = 90 := rfl
  have ha : 'a'.val.toNat = 97 := rfl
  have hz : 'z'.val.toNat = 122 := rfl
  have hc : c.toNat = c.val.toNat := rfl
  simp only [Char.isAlphanum, Char.isAlpha, Char.isUpper, Char.isLower, Char.isDigit,
    Bool.or_eq_true, Bool.and_eq_true, decide_eq_true_eq, UInt32.le_iff_toNat_le, ge_iff_le] at h
  omega

theorem isBlank_of_isAlphanum {c : Char} (h : c.isAlphanum = true) : isBlank c = false := by
  obtain ⟨hlow, hhigh⟩ := toNat_of_isAlphanum h
  simp only [isBlank, Bool.or_eq_false_iff, Bool.and_eq_false_iff, decide_eq_false_iff_not,
    beq_eq_false_iff_ne]
  omega

theorem isBlank_of_mem_space : ∀ c ∈ [' '], isBlank c = true := List.forall_mem_singleton.mpr rfl

theorem toNat_lt_of_isAlpha {c : Char} (h : c.isAlpha = true) : c.toNat < 128 := by
  obtain ⟨-, hle⟩ := toNat_of_isAlphanum (c := c) (by simp [Char.isAlphanum, h])
  omega

theorem isDigit_of_isAlpha {c : Char} (h : c.isAlpha = true) : c.isDigit = false := by
  grind [Char.isAlpha, Char.isUpper, Char.isLower, Char.isDigit]

theorem toLower_of_isDigit {c : Char} (h : c.isDigit = true) : c.toLower = c := by
  have hu : ¬ ('A'.val ≤ c.val ∧ c.val ≤ 'Z'.val) := by grind [Char.isDigit]
  exact dif_neg hu

theorem isLower_of_isDigit {c : Char} (h : c.isDigit = true) : c.isLower = false := by
  rw [← Bool.not_eq_true]
  intro hl
  have hd : c.isDigit = false := isDigit_of_isAlpha (by simp [Char.isAlpha, hl])
  exact Bool.false_ne_true (hd.symm.trans h)

theorem upper_of_isAlpha {c : Char} (h : c.isAlpha = true) : upper c = [c.toUpper] :=
  if_pos (toNat_lt_of_isAlpha h)

theorem lower_toLower (c : Char) : lower c.toLower = lower c := by
  by_cases h : c.isAlpha = true
  · have hl : c.toLower.isAlpha = true := by simpa using h
    rw [lower, lower, if_pos (toNat_lt_of_isAlpha hl), if_pos (toNat_lt_of_isAlpha h),
      Char.toLower_toLower_eq_toLower]
  · have hu : ¬ c.isUpper = true := fun hu => h (by simp [Char.isAlpha, hu])
    rw [Char.toLower_eq_of_not_isUpper hu]

theorem isAlpha_of_isBlank {c : Char} (h : isBlank c = true) : c.isAlpha = false := by
  rw [← Bool.not_eq_true]
  intro ha
  have hb := isBlank_of_isAlphanum (c := c) (by simp [Char.isAlphanum, ha])
  exact Bool.false_ne_true (hb.symm.trans h)

theorem isUpper_of_isBlank {c : Char} (h : isBlank c = true) : c.isUpper = false :=
  (Bool.or_eq_false_iff.mp (isAlpha_of_isBlank h)).1

theorem isLower_of_isBlank {c : Char} (h : isBlank c = true) : c.isLower = false :=
  (Bool.or_eq_false_iff.mp (isAlpha_of_isBlank h)).2

/-- Beyond ASCII no character with a mapping is blank. -/
theorem lower_of_isBlank {c : Char} (h : isBlank c = true) : lower c = [c] := by
  by_cases hc : c.toNat < 128
  · have hu : ¬ c.isUpper = true := by simp [isUpper_of_isBlank h]
    rw [lower, if_pos hc, Char.toLower_eq_of_not_isUpper hu]
  · unfold lower
    rw [if_neg hc]
    split
    · next hn => simp [isBlank, hn] at h
    · next hn => simp [isBlank, hn] at h
    · rfl

theorem upper_of_isBlank {c : Char} (h : isBlank c = true) : upper c = [c] := by
  by_cases hc : c.toNat < 128
  · have hl : ¬ c.isLower = true := by simp [isLower_of_isBlank h]
    rw [upper, if_pos hc, Char.toUpper_eq_of_not_isLower hl]
  · unfold upper
    rw [if_neg hc]
    split
    case h_18 => rfl
    all_goals
      next hn => simp [isBlank, hn] at h

/-- A blank comes from itself alone. -/
theorem eq_of_isBlank_of_mem_upper {x c : Char} (hx : isBlank x = true) (h : x ∈ upper c) : c = x := by
  by_cases hc : c.toNat < 128
  · rw [upper, if_pos hc, List.mem_singleton] at h
    have hl : ¬ c.isLower = true := by
      intro hl
      have hu : c.toUpper.isUpper = true := by
        rw [Char.isUpper_toUpper_eq_isAlpha, Char.isAlpha, hl, Bool.or_true]
      rw [← h, isUpper_of_isBlank hx] at hu
      exact Bool.false_ne_true hu
    rw [h, Char.toUpper_eq_of_not_isLower hl]
  · revert x
    unfold upper
    rw [if_neg hc]
    split
    case h_18 =>
      intro x _ h
      exact (List.mem_singleton.mp h).symm
    all_goals
      intro x hx h
      fin_cases h <;> exact absurd hx (by decide)

theorem lower_of_isDigit {c : Char} (h : c.isDigit = true) : lower c = [c] := by
  obtain ⟨-, hle⟩ := toNat_of_isAlphanum (c := c) (by simp [Char.isAlphanum, h])
  rw [lower, if_pos (by omega), toLower_of_isDigit h]

theorem toLower_eq_self {cs : List Char} (h : ∀ c ∈ cs, lower c = [c]) : toLower cs = cs := by
  rw [toLower, List.flatMap_def, List.map_congr_left h, ← List.flatMap_def, List.flatMap_singleton']

theorem toUpper_eq_self {cs : List Char} (h : ∀ c ∈ cs, upper c = [c]) : toUpper cs = cs := by
  rw [toUpper, List.flatMap_def, List.map_congr_left h, ← List.flatMap_def, List.flatMap_singleton']

theorem toLower_of_blanks {cs : List Char} (h : ∀ c ∈ cs, isBlank c = true) : toLower cs = cs :=
  toLower_eq_self fun c hc => lower_of_isBlank (h c hc)

theorem toUpper_of_blanks {cs : List Char} (h : ∀ c ∈ cs, isBlank c = true) : toUpper cs = cs :=
  toUpper_eq_self fun c hc => upper_of_isBlank (h c hc)

theorem toLower_congr {a b : List Char} (h : equalsIgnoringCase a b = true) :
    toLower a = toLower b := by
  have hm : ∀ cs : List Char, toLower (cs.map Char.toLower) = toLower cs := by
    intro cs
    simp [toLower, List.flatMap_map, lower_toLower]
  rw [← hm a, ← hm b, eq_of_beq h]

theorem equalsIgnoringCase_append {a b : List Char} (h : equalsIgnoringCase a b = true)
    (rest : List Char) : equalsIgnoringCase (a ++ rest) (b ++ rest) = true := by
  rw [equalsIgnoringCase, List.map_append, List.map_append, eq_of_beq h]
  exact beq_self_eq_true _

/-- A word that equals one of capitals up to case consists of letters and has it as its upper-case form. -/
theorem toUpper_of_equalsIgnoringCase {w name : List Char} (hn : ∀ c ∈ name, c.isUpper = true)
    (h : equalsIgnoringCase w name = true) :
    toUpper w = name ∧ ∀ c ∈ w, c.isAlpha = true := by
  induction w generalizing name with
  | nil =>
    have hm : name = [] := by simpa [equalsIgnoringCase] using h
    subst hm
    simp [toUpper]
  | cons c w ih =>
    cases name with
    | nil => simp [equalsIgnoringCase] at h
    | cons d name =>
      obtain ⟨hd, hn⟩ := List.forall_mem_cons.mp hn
      obtain ⟨hc, hw⟩ : c.toLower = d.toLower ∧ equalsIgnoringCase w name = true := by
        simpa [equalsIgnoringCase] using h
      obtain ⟨hu, ha⟩ := ih hn hw
      have hda : d.isAlpha = true := by simp [Char.isAlpha, hd]
      have hca : c.isAlpha = true := by
        rw [← Char.isAlpha_toLower_eq_isAlpha, hc, Char.isAlpha_toLower_eq_isAlpha, hda]
      have hcd : c.toUpper = d := by
        rw [← Char.toUpper_toLower_eq_toUpper, hc, Char.toUpper_toLower_eq_toUpper,
          Char.toUpper_eq_of_not_isLower (Char.not_isLower_of_isUpper hd)]
      refine ⟨?_, List.forall_mem_cons.mpr ⟨hca, ha⟩⟩
      rw [toUpper, List.flatMap_cons, upper_of_isAlpha hca, ← toUpper, hu, hcd]
      rfl

end TableLoader.Text
