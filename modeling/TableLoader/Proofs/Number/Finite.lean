import TableLoader.Proofs.Json.Numerals

/-! # Which numerals have a double

A numeral is read as a double exactly if its value lies below the bound from which magnitudes round to infinity.
Rounding crosses no double, and small whole numbers are doubles, so comparisons with whole bounds see no rounding.
The text of a double is read as that double. -/
namespace TableLoader

namespace Numeral

theorem value_congr {n m : Numeral} (h : n.text = m.text) : n.value = m.value := by
  have hd : some n.decimal = some m.decimal := by rw [← n.ofText?_text, ← m.ofText?_text, h]
  rw [← n.value_decimal, ← m.value_decimal, Option.some.inj hd]

theorem ofText?_eq_toBinary64? (n : Numeral) :
    Binary64.ofText? n.text = n.decimal.toBinary64? := by
  rw [Binary64.ofText?, n.ofText?_text, Option.bind_some]

theorem exists_ofText? {n : Numeral} (h : |n.value| < 2 ^ 1024 - 2 ^ 970) :
    ∃ x, Binary64.ofText? n.text = some x ∧ Binary64.IsRounding n.value x := by
  rw [← n.value_decimal] at h
  obtain ⟨x, hx⟩ := Decimal.exists_toBinary64? h
  refine ⟨x, n.ofText?_eq_toBinary64?.trans hx, ?_⟩
  rw [← n.value_decimal]
  exact Decimal.isRounding_of_toBinary64? hx

end Numeral

/-- The texts of numerals that round to a finite double. The bound lies half way between the greatest double and
the next power of two, and rounds up. -/
def IsFiniteNumeral (cs : List Char) : Prop :=
  ∃ n : Numeral, n.text = cs ∧ |n.value| < 2 ^ 1024 - 2 ^ 970

theorem isFiniteNumeral_iff {cs : List Char} :
    IsFiniteNumeral cs ↔ (Binary64.ofText? cs).isSome = true := by
  constructor
  · rintro ⟨n, rfl, h⟩
    obtain ⟨x, hx, -⟩ := Numeral.exists_ofText? h
    rw [hx, Option.isSome_some]
  · intro h
    obtain ⟨x, hx⟩ := Option.isSome_iff_exists.mp h
    obtain ⟨n, hn, hr⟩ := Binary64.exists_isRounding hx
    exact ⟨n, hn, hr.inRange⟩

theorem Numeral.ofText?_eq_none_iff (n : Numeral) :
    Binary64.ofText? n.text = none ↔ 2 ^ 1024 - 2 ^ 970 ≤ |n.value| := by
  rw [← Option.not_isSome_iff_eq_none, ← isFiniteNumeral_iff, ← not_lt]
  refine not_congr ⟨?_, fun h => ⟨n, rfl, h⟩⟩
  rintro ⟨m, hm, h⟩
  rwa [← Numeral.value_congr hm]

namespace Binary64

/-- No double lies between a number and its rounding. -/
theorem IsRounding.value_le {v : ℚ} {x y : Binary64} (h : IsRounding v x) (hv : v ≤ y.value) :
    x.value ≤ y.value := by
  have hy : |y.value - v| = y.value - v := abs_of_nonneg (sub_nonneg.mpr hv)
  have hx : x.value - v ≤ y.value - v := (le_abs_self _).trans ((h.nearest y).trans_eq hy)
  linarith

theorem IsRounding.le_value {v : ℚ} {x y : Binary64} (h : IsRounding v x) (hv : y.value ≤ v) :
    y.value ≤ x.value := by
  have hy : |y.value - v| = -(y.value - v) := abs_of_nonpos (sub_nonpos.mpr hv)
  have hx : y.value - v ≤ x.value - v := by
    have hle := h.nearest y
    have hneg := neg_abs_le (x.value - v)
    linarith
  linarith

theorem exists_value_eq {k : ℤ} (hk : k.natAbs < 2 ^ 53) : ∃ x : Binary64, x.value = k := by
  obtain ⟨x, -, -, hu⟩ := exists_ofNat hk (Nat.zero_le 22)
  have hunit : (2 : ℚ) ^ 1074 ≠ 0 := pow_ne_zero 1074 two_ne_zero
  rw [Nat.add_zero] at hu
  have hu : ∀ negative, units { x with negative := negative } = k.natAbs * 2 ^ 1074 := fun _ => hu
  refine ⟨{ x with negative := decide (k < 0) }, ?_⟩
  have hs : signedUnits { x with negative := decide (k < 0) } = k * 2 ^ 1074 := by
    rw [signedUnits, hu]
    by_cases h : k < 0
    · simp only [h, decide_true, if_true]
      rw [Nat.cast_mul, Int.natCast_natAbs, abs_of_neg h, neg_mul, neg_neg, Nat.cast_pow,
        Nat.cast_ofNat]
    · simp only [h, decide_false, Bool.false_eq_true, if_false]
      rw [Nat.cast_mul, Int.natCast_natAbs, abs_of_nonneg (not_lt.mp h), Nat.cast_pow,
        Nat.cast_ofNat]
  rw [value, hs, Int.cast_mul, Int.cast_pow, Int.cast_ofNat]
  exact mul_div_cancel_right₀ _ hunit

/-- Whole bounds that are doubles, and so are their outer neighbours, are not seen through a rounding. -/
theorem IsRounding.between_iff {v lo hi : ℤ} {x : Binary64} (h : IsRounding v x)
    (hlo : lo.natAbs + 1 < 2 ^ 53) (hhi : hi.natAbs + 1 < 2 ^ 53) :
    (lo : ℚ) ≤ x.value ∧ x.value ≤ hi ↔ lo ≤ v ∧ v ≤ hi := by
  have hle : ∀ k : ℤ, k.natAbs < 2 ^ 53 → v ≤ k → x.value ≤ k := by
    intro k hk hv
    obtain ⟨y, hy⟩ := exists_value_eq hk
    rw [← hy]
    apply h.value_le
    rw [hy]
    exact_mod_cast hv
  have hge : ∀ k : ℤ, k.natAbs < 2 ^ 53 → k ≤ v → k ≤ x.value := by
    intro k hk hv
    obtain ⟨y, hy⟩ := exists_value_eq hk
    rw [← hy]
    apply h.le_value
    rw [hy]
    exact_mod_cast hv
  constructor
  · rintro ⟨hl, hr⟩
    constructor
    · by_contra hv
      have hx := hle (lo - 1) (by omega) (by omega)
      push_cast at hx
      linarith
    · by_contra hv
      have hx := hge (hi + 1) (by omega) (by omega)
      push_cast at hx
      linarith
  · rintro ⟨hl, hr⟩
    exact ⟨hge lo (by omega) hl, hle hi (by omega) hr⟩

end Binary64

theorem Binary64.ofText?_text (x : Binary64) : ofText? x.text = some x := by
  rw [ofText?, ← x.text_literal, x.canonical_literal.ofText?_text, Option.bind_some,
    x.toBinary64?_decimal_literal]

end TableLoader
