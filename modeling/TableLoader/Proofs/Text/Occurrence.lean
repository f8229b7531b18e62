import Mathlib
import TableLoader.Text.LetterCase
import TableLoader.Text.Line

/-! # Occurrences of a word

A word stands in a text as one block of it. Where the text is cut at a character that the word does not hold,
the word stands in one of the two parts; where it is cut at a character that the word holds once, the word may
stand across the cut as well. -/
namespace TableLoader.Text

theorem holds_iff_infix {word cs : List Char} : holds word cs = true ↔ word <:+: cs := by
  induction cs with
  | nil => simp [holds, List.isEmpty_iff]
  | cons c cs ih =>
    rw [holds, Bool.or_eq_true, List.isPrefixOf_iff_prefix, ih, List.infix_cons_iff]

/-- A word that holds the character once, at which the text is cut, stands before the cut, behind it or just
across it. -/
theorem infix_append_cons {u v a b : List Char} {x : Char} (hu : x ∉ u) (hv : x ∉ v)
    (h : u ++ x :: v <:+: a ++ x :: b) :
    u ++ x :: v <:+: a ∨ u ++ x :: v <:+: b ∨ (u <:+ a ∧ v <+: b) := by
  rcases List.infix_append_iff.mp h with h | h | ⟨l₁, l₂, he, hl₁, hl₂⟩
  · exact Or.inl h
  · rcases List.infix_cons_iff.mp h with h | h
    -- The word begins with the mark itself, so nothing stands before it.
    · cases u with
      | nil => exact Or.inr (Or.inr ⟨List.nil_suffix, (List.cons_prefix_cons.mp h).2⟩)
      | cons c u => exact absurd (List.cons_prefix_cons.mp h).1 (fun hc => hu (by simp [hc]))
    · exact Or.inr (Or.inl h)
  · cases l₂ with
    | nil =>
      rw [he, List.append_nil]
      exact Or.inl hl₁.isInfix
    | cons c l₂ =>
      obtain ⟨rfl, hb⟩ := List.cons_prefix_cons.mp hl₂
      obtain ⟨rfl, -, rfl⟩ := (List.append_cons_inj_of_notMem hu hv).mp he
      exact Or.inr (Or.inr ⟨hl₁, hb⟩)

theorem holds_append_cons {word a b : List Char} {x : Char} (hx : x ∉ word) :
    holds word (a ++ x :: b) = (holds word a || holds word b) := by
  rw [Bool.eq_iff_iff, Bool.or_eq_true, holds_iff_infix, holds_iff_infix, holds_iff_infix]
  constructor
  · intro h
    rcases List.infix_append_iff.mp h with h | h | ⟨l₁, l₂, rfl, hl₁, hl₂⟩
    · exact Or.inl h
    · rcases List.infix_cons_iff.mp h with h | h
      · cases word with
        | nil => exact Or.inl List.nil_infix
        | cons c word =>
          exact absurd (List.cons_prefix_cons.mp h).1 (fun hc => hx (by simp [hc]))
      · exact Or.inr h
    · cases l₂ with
      | nil => exact Or.inl (by simpa using hl₁.isInfix)
      | cons c l₂ =>
        exact absurd (List.cons_prefix_cons.mp hl₂).1 (fun hc => hx (by simp [hc]))
  · rintro (h | h)
    · exact List.infix_append_of_infix_left h
    · exact List.infix_append_of_infix_right (List.infix_cons h)

/-- No word begins among characters that it does not hold. -/
theorem holds_append_of_disjoint {word front : List Char} (hne : word ≠ []) (h : ∀ c ∈ front, c ∉ word)
    (cs : List Char) : holds word (front ++ cs) = holds word cs := by
  induction front with
  | nil => rfl
  | cons c front ih =>
    obtain ⟨hc, hfront⟩ := List.forall_mem_cons.mp h
    have hnil : holds word [] = false := by simpa [holds] using hne
    have hcut := holds_append_cons hc (a := []) (b := front ++ cs)
    rw [List.nil_append] at hcut
    rw [List.cons_append, hcut, hnil, Bool.false_or, ih hfront]

theorem holds_eq_false_of_notMem {word cs : List Char} {x : Char} (hx : x ∈ word) (h : x ∉ cs) :
    holds word cs = false := by
  rw [← Bool.not_eq_true, holds_iff_infix]
  exact fun hi => h (hi.subset hx)

theorem prefix_of_prefix_append_cons {word a b : List Char} {x : Char} (hx : x ∉ word)
    (h : word <+: a ++ x :: b) : word <+: a := by
  induction a generalizing word with
  | nil =>
    cases word with
    | nil => exact List.nil_prefix
    | cons c word => exact absurd (List.cons_prefix_cons.mp h).1 (fun hc => hx (by simp [hc]))
  | cons d a ih =>
    cases word with
    | nil => exact List.nil_prefix
    | cons c word =>
      obtain ⟨hc, hw⟩ := List.cons_prefix_cons.mp h
      exact List.cons_prefix_cons.mpr ⟨hc, ih (fun hm => hx (List.mem_cons_of_mem _ hm)) hw⟩

/-- A beginning that holds the character at which the text is cut for the first time reaches to just that cut. -/
theorem prefix_append_cons_iff {u v a b : List Char} {x : Char} (hu : x ∉ u) (ha : x ∉ a) :
    u ++ x :: v <+: a ++ x :: b ↔ u = a ∧ v <+: b := by
  constructor
  · intro h
    induction u generalizing a with
    | nil =>
      cases a with
      | nil => exact ⟨rfl, (List.cons_prefix_cons.mp h).2⟩
      | cons c a => exact absurd (List.cons_prefix_cons.mp h).1 (fun hc => ha (by simp [hc]))
    | cons d u ih =>
      cases a with
      | nil => exact absurd (List.cons_prefix_cons.mp h).1 (fun hd => hu (by simp [hd]))
      | cons c a =>
        obtain ⟨rfl, hp⟩ := List.cons_prefix_cons.mp h
        obtain ⟨rfl, hv⟩ := ih (fun hm => hu (List.mem_cons_of_mem _ hm))
          (fun hm => ha (List.mem_cons_of_mem _ hm)) hp
        exact ⟨rfl, hv⟩
  · rintro ⟨rfl, h⟩
    exact (List.prefix_append_right_inj _).mpr (List.cons_prefix_cons.mpr ⟨rfl, h⟩)

/-- Two words around a mark do not stand in a text that is cut at such a mark, unless they stand on one of its
sides or meet at the cut. -/
theorem holds_append_cons_eq_false {u v a b : List Char} {x : Char} (hu : x ∉ u) (hv : x ∉ v)
    (ha : x ∉ a) (hb : holds (u ++ x :: v) b = false) (hc : ¬ (u <:+ a ∧ v <+: b)) :
    holds (u ++ x :: v) (a ++ x :: b) = false := by
  rw [← Bool.not_eq_true, holds_iff_infix] at *
  intro h
  rcases infix_append_cons hu hv h with h | h | h
  · exact ha (h.subset (by simp))
  · exact hb h
  · exact hc h

@[simp] theorem toUpper_nil : toUpper [] = [] := rfl

@[simp] theorem toUpper_append (a b : List Char) : toUpper (a ++ b) = toUpper a ++ toUpper b :=
  List.flatMap_append

theorem toUpper_cons (c : Char) (cs : List Char) : toUpper (c :: cs) = upper c ++ toUpper cs := rfl

/-- Beyond ASCII a character maps to upper-case ASCII letters and characters beyond ASCII. -/
theorem isUpper_or_of_mem_upper {c y : Char} (hc : 128 ≤ c.toNat) (h : y ∈ upper c) :
    y.isUpper = true ∨ 128 ≤ y.toNat := by
  revert y
  unfold upper
  rw [if_neg (by omega)]
  split
  case h_18 =>
    intro y hy
    rw [List.mem_singleton.mp hy]
    exact Or.inr hc
  all_goals
    simp only [List.mem_cons, List.not_mem_nil, or_false, forall_eq_or_imp, forall_eq]
    decide

/-- An ASCII character that is no upper-case letter comes from itself alone. -/
theorem eq_of_mem_upper {x c : Char} (hx : x.toNat < 128) (hu : x.isUpper = false)
    (h : x ∈ upper c) : c = x := by
  by_cases hc : c.toNat < 128
  · unfold upper at h
    rw [if_pos hc, List.mem_singleton] at h
    have hl : ¬ c.isLower = true := by
      intro hl
      have ha : c.toUpper.isUpper = true := by
        rw [Char.isUpper_toUpper_eq_isAlpha, Char.isAlpha, hl, Bool.or_true]
      rw [← h, hu] at ha
      exact Bool.false_ne_true ha
    rw [h, Char.toUpper_eq_of_not_isLower hl]
  · rcases isUpper_or_of_mem_upper (Nat.not_lt.mp hc) h with h | h
    · simp [hu] at h
    · omega

theorem upper_ne_nil (c : Char) : upper c ≠ [] := by
  unfold upper
  split
  · exact List.cons_ne_nil _ _
  · split <;> exact List.cons_ne_nil _ _

theorem notMem_toUpper {x : Char} {cs : List Char} (hx : x.toNat < 128) (hu : x.isUpper = false)
    (h : x ∉ cs) : x ∉ toUpper cs := by
  intro hm
  obtain ⟨c, hc, hm⟩ := List.mem_flatMap.mp hm
  exact h (eq_of_mem_upper hx hu hm ▸ hc)

theorem toLower_cons (c : Char) (cs : List Char) : toLower (c :: cs) = lower c ++ toLower cs := rfl

/-- An ASCII character that is no lower-case letter comes from itself alone. -/
theorem eq_of_mem_lower {x c : Char} (hx : x.toNat < 128) (hl : x.isLower = false)
    (h : x ∈ lower c) : c = x := by
  by_cases hc : c.toNat < 128
  · rw [lower, if_pos hc, List.mem_singleton] at h
    have hu : ¬ c.isUpper = true := by
      intro hu
      have ha : c.toLower.isLower = true := by
        rw [Char.isLower_toLower_eq_isAlpha, Char.isAlpha, hu, Bool.true_or]
      rw [← h, hl] at ha
      exact Bool.false_ne_true ha
    rw [h, Char.toLower_eq_of_not_isUpper hu]
  · revert x
    unfold lower
    rw [if_neg hc]
    split
    case h_3 =>
      intro x _ _ h
      exact (List.mem_singleton.mp h).symm
    all_goals
      intro x hx hl h
      fin_cases h <;> simp_all

theorem notMem_toLower {x : Char} {cs : List Char} (hx : x.toNat < 128) (hl : x.isLower = false)
    (h : x ∉ cs) : x ∉ toLower cs := by
  intro hm
  obtain ⟨c, hc, hm⟩ := List.mem_flatMap.mp hm
  exact h (eq_of_mem_lower hx hl hm ▸ hc)

@[simp] theorem toLower_append (a b : List Char) : toLower (a ++ b) = toLower a ++ toLower b :=
  List.flatMap_append

end TableLoader.Text
