import Mathlib
import TableLoader.Number.Decimal

/-! # Correct rounding

The double that is found for a ratio is the one nearest to it, and of two that are equally near the one whose
fraction is even. Magnitudes are compared in units of `2 ^ -1074`, of which every double has a
whole number: up to `2 ^ 53` units all of them, and beyond that the multiples of a power of two. -/
namespace TableLoader

theorem twoTo_eq (n : ℕ) : twoTo n = 2 ^ n := rfl

theorem tenTo_eq (n : ℕ) : tenTo n = 10 ^ n := rfl

/-- A whole number that is nearest to `a`, and even if another one is as near. -/
def NearestWhole (a : ℚ) (m : ℕ) : Prop :=
  |(m : ℚ) - a| < 1 / 2 ∨ (|(m : ℚ) - a| = 1 / 2 ∧ m % 2 = 0)

namespace NearestWhole

variable {a : ℚ} {m : ℕ}

theorem abs_sub_le_half (h : NearestWhole a m) : |(m : ℚ) - a| ≤ 1 / 2 := by
  rcases h with h | ⟨h, -⟩
  · exact h.le
  · exact h.le

/-- No tie lies above an odd number. -/
theorem lt_of_lt (h : NearestWhole a m) (hm : m < 2 ^ 53) : a < 2 ^ 53 - 1 / 2 := by
  have hmq : (m : ℚ) + 1 ≤ 2 ^ 53 := by exact_mod_cast hm
  rcases h with h | ⟨h, he⟩
  · have := abs_lt.mp h
    linarith
  · have hle := abs_le.mp h.le
    have hmn : m + 2 ≤ 2 ^ 53 := by omega
    have hmq : (m : ℚ) + 2 ≤ 2 ^ 53 := by exact_mod_cast hmn
    linarith

theorem half_le_abs (h : NearestWhole a m) {k : ℤ} (hk : k ≠ m) : 1 / 2 ≤ |(k : ℚ) - a| := by
  have hone : (1 : ℤ) ≤ |k - m| := Int.one_le_abs (sub_ne_zero.mpr hk)
  have hcast : (1 : ℚ) ≤ |(k : ℚ) - m| := by exact_mod_cast hone
  have htri : |(k : ℚ) - m| ≤ |(k : ℚ) - a| + |a - m| := abs_sub_le _ _ _
  have hm := h.abs_sub_le_half
  rw [abs_sub_comm] at hm
  linarith

theorem le (h : NearestWhole a m) (k : ℤ) : |(m : ℚ) - a| ≤ |(k : ℚ) - a| := by
  by_cases hk : k = m
  · rw [hk, Int.cast_natCast]
  · exact h.abs_sub_le_half.trans (h.half_le_abs hk)

theorem even (h : NearestWhole a m) {k : ℤ} (hk : k ≠ m)
    (he : |(k : ℚ) - a| = |(m : ℚ) - a|) : m % 2 = 0 := by
  have hhalf := h.half_le_abs hk
  rcases h with h | ⟨-, hm⟩
  · rw [he] at hhalf
    exact absurd h (not_lt.mpr hhalf)
  · exact hm

end NearestWhole

theorem nearestWhole_roundHalfEven (num : ℕ) {den : ℕ} (hd : 0 < den) :
    NearestWhole (num / den) (roundHalfEven num den) := by
  have hdq : (0 : ℚ) < den := by exact_mod_cast hd
  have hsplit : (num : ℚ) / den = (num / den : ℕ) + (num % den : ℕ) / (den : ℚ) := by
    have h : (num : ℚ) = den * (num / den : ℕ) + (num % den : ℕ) := by
      exact_mod_cast (Nat.div_add_mod num den).symm
    rw [div_eq_iff hdq.ne', add_mul, div_mul_cancel₀ _ hdq.ne', mul_comm, ← h]
  have hlt : ((num % den : ℕ) : ℚ) / den < 1 := by
    rw [div_lt_one hdq]
    exact_mod_cast Nat.mod_lt num hd
  have hnonneg : (0 : ℚ) ≤ ((num % den : ℕ) : ℚ) / den := by positivity
  simp only [roundHalfEven, NearestWhole, hsplit]
  generalize hr : ((num % den : ℕ) : ℚ) / den = r at hlt hnonneg
  -- The three cases of the rounding are those of the fractional part against one half.
  have hlow : 2 * (num % den) < den ↔ r < 1 / 2 := by
    rw [← hr, div_lt_div_iff₀ hdq two_pos, one_mul, mul_comm]
    exact_mod_cast Iff.rfl
  have hhigh : den < 2 * (num % den) ↔ 1 / 2 < r := by
    rw [← hr, div_lt_div_iff₀ two_pos hdq, one_mul, mul_comm _ (2 : ℚ)]
    exact_mod_cast Iff.rfl
  split
  · next h =>
    left
    rw [hlow] at h
    rw [sub_add_cancel_left, abs_neg, abs_of_nonneg hnonneg]
    exact h
  · next h =>
    rw [hlow] at h
    have hone : ((num / den + 1 : ℕ) : ℚ) - ((num / den : ℕ) + r) = 1 - r := by
      push_cast
      ring
    split
    · next h' =>
      left
      rw [hhigh] at h'
      rw [hone, abs_of_nonneg (by linarith)]
      linarith
    · next h' =>
      rw [hhigh] at h'
      have hhalf : r = 1 / 2 := le_antisymm (not_lt.mp h') (not_lt.mp h)
      right
      split
      · next he =>
        refine ⟨?_, he⟩
        rw [sub_add_cancel_left, abs_neg, hhalf]
        norm_num
      · next he =>
        refine ⟨?_, by omega⟩
        rw [hone, hhalf]
        norm_num

namespace Binary64

def value (x : Binary64) : ℚ := x.signedUnits / 2 ^ 1074

/-- The finite double that a number rounds to: no other one is nearer, and of two that are equally near it is
the one with an even fraction. From the given bound on, magnitudes round to infinity. -/
structure IsRounding (v : ℚ) (x : Binary64) : Prop where
  inRange : |v| < 2 ^ 1024 - 2 ^ 970
  nearest : ∀ y : Binary64, |x.value - v| ≤ |y.value - v|
  even : ∀ y : Binary64, y.value ≠ x.value → |y.value - v| = |x.value - v| → x.fraction.val % 2 = 0

/-- Beyond `2 ^ (52 + s)` units every double is a multiple of `2 ^ s` of them. -/
theorem dvd_units_or_lt (y : Binary64) (s : ℕ) : 2 ^ s ∣ y.units ∨ y.units < 2 ^ (52 + s) := by
  have hf : y.fraction.val < 2 ^ 52 := y.fraction.isLt
  rw [units]
  split
  · right
    calc y.fraction.val < 2 ^ 52 := hf
      _ ≤ 2 ^ (52 + s) := Nat.pow_le_pow_right two_pos (by omega)
  · rw [twoTo_eq, twoTo_eq]
    by_cases hs : s ≤ y.biased.val - 1
    · exact Or.inl (Dvd.dvd.mul_left (pow_dvd_pow 2 hs) _)
    · right
      have hmant : 2 ^ 52 + y.fraction.val < 2 ^ 53 := by omega
      calc (2 ^ 52 + y.fraction.val) * 2 ^ (y.biased.val - 1)
          < 2 ^ 53 * 2 ^ (y.biased.val - 1) := Nat.mul_lt_mul_of_pos_right hmant (by positivity)
        _ = 2 ^ (53 + (y.biased.val - 1)) := (pow_add ..).symm
        _ ≤ 2 ^ (52 + s) := Nat.pow_le_pow_right two_pos (by omega)

theorem natAbs_signedUnits (y : Binary64) : y.signedUnits.natAbs = y.units := by
  rw [signedUnits]
  split <;> simp

theorem dvd_signedUnits_or_lt (y : Binary64) (s : ℕ) :
    (2 ^ s : ℤ) ∣ y.signedUnits ∨ |y.signedUnits| < 2 ^ (52 + s) := by
  have h := y.dvd_units_or_lt s
  rw [← natAbs_signedUnits] at h
  rcases h with h | h
  · left
    rw [← Int.natAbs_dvd_natAbs]
    simpa [Int.natAbs_pow] using h
  · right
    rw [Int.abs_eq_natAbs]
    exact_mod_cast h

/-- What a mantissa of at most 53 bits and its shift make of a magnitude. -/
structure HasMantissa (negative : Bool) (m s : ℕ) (x : Binary64) : Prop where
  negative_eq : x.negative = negative
  units_eq : x.units = m * 2 ^ s
  parity : x.fraction.val % 2 = m % 2
  bounded : s < 2045 ∨ (s = 2045 ∧ m < 2 ^ 53)

theorem hasMantissa_of_ofMantissa {negative : Bool} {m s : ℕ} {x : Binary64} (hm : m ≤ 2 ^ 53)
    (hs : m < 2 ^ 52 → s = 0) (h : ofMantissa negative m s = some x) :
    HasMantissa negative m s x := by
  rw [ofMantissa, twoTo_eq, twoTo_eq] at h
  split at h
  · next hlt =>
    obtain rfl := Option.some.inj h
    obtain rfl := hs hlt
    have hval : (Fin.ofNat 4503599627370496 m).val = m := Nat.mod_eq_of_lt hlt
    refine ⟨rfl, ?_, by rw [hval], Or.inl (by decide)⟩
    rw [pow_zero, mul_one]
    exact hval
  · next hge =>
    split at h
    next mantissa shift hpair =>
    -- A mantissa that was rounded up to `2 ^ 53` is half as long under a shift of one more.
    have hsame : mantissa * 2 ^ shift = m * 2 ^ s ∧ mantissa % 2 = m % 2 ∧ 2 ^ 52 ≤ mantissa ∧
        mantissa < 2 ^ 53 ∧ s ≤ shift ∧ (m = 2 ^ 53 → s < shift) := by
      split at hpair
      · next he =>
        obtain ⟨rfl, rfl⟩ := Prod.mk.inj hpair
        rw [he]
        refine ⟨by rw [pow_succ]; ring, by decide, le_rfl, by decide, by omega, by omega⟩
      · next he =>
        obtain ⟨rfl, rfl⟩ := Prod.mk.inj hpair
        exact ⟨rfl, rfl, by omega, by omega, le_rfl, fun h => absurd h he⟩
    obtain ⟨hunits, hparity, hlow, hhigh, hle, hlt⟩ := hsame
    split at h
    · next hbound =>
      obtain rfl := Option.some.inj h
      have hf : (Fin.ofNat 4503599627370496 (mantissa - 2 ^ 52)).val = mantissa - 2 ^ 52 :=
        Nat.mod_eq_of_lt (by omega)
      have hb : (Fin.ofNat 2047 (shift + 1)).val = shift + 1 := Nat.mod_eq_of_lt (by omega)
      refine ⟨rfl, ?_, ?_, ?_⟩
      · rw [units, hb, hf, if_neg (Nat.succ_ne_zero shift), twoTo_eq, twoTo_eq, ← hunits,
          Nat.add_sub_cancel' hlow, Nat.add_sub_cancel]
      · rw [hf, ← hparity]
        omega
      · omega
    · simp at h

/-- How far the magnitude `a`, in units, is shifted: not at all below `2 ^ 53`, and else so that 53 bits stay
before the point. -/
structure IsShift (a : ℚ) (s : ℕ) : Prop where
  lt : a < 2 ^ (53 + s)
  le : s ≠ 0 → 2 ^ (52 + s) ≤ a

theorem isShift_log2 (num : ℕ) {den : ℕ} (hd : 0 < den) :
    IsShift (num / den) ((num / den).log2 - 52) := by
  have hdq : (0 : ℚ) < den := by exact_mod_cast hd
  constructor
  · have hlt : num / den < 2 ^ (53 + ((num / den).log2 - 52)) :=
      calc num / den < 2 ^ ((num / den).log2 + 1) := Nat.lt_log2_self
        _ ≤ _ := Nat.pow_le_pow_right two_pos (by omega)
    rw [Nat.div_lt_iff_lt_mul hd] at hlt
    rw [div_lt_iff₀ hdq]
    exact_mod_cast hlt
  · intro hs
    have hne : num / den ≠ 0 := by
      intro h0
      rw [h0] at hs
      exact hs (by decide)
    have hle : 2 ^ (52 + ((num / den).log2 - 52)) ≤ num / den :=
      calc 2 ^ (52 + ((num / den).log2 - 52)) = 2 ^ (num / den).log2 := by congr 1; omega
        _ ≤ num / den := Nat.log2_self_le hne
    rw [Nat.le_div_iff_mul_le hd] at hle
    rw [le_div_iff₀ hdq]
    exact_mod_cast hle

/-- The mantissa nearest to a shifted magnitude makes the nearest multiple of `2 ^ s`, and no double that is
none can be as near. -/
theorem abs_mantissa_sub_le {a : ℚ} {m s : ℕ} (hs : IsShift a s)
    (hm : NearestWhole (a / 2 ^ s) m) (y : Binary64) :
    |(m * 2 ^ s : ℚ) - a| ≤ |(y.signedUnits : ℚ) - a| ∧
      ((y.signedUnits : ℚ) ≠ m * 2 ^ s → |(y.signedUnits : ℚ) - a| = |(m * 2 ^ s : ℚ) - a| →
        m % 2 = 0) := by
  have hpos : (0 : ℚ) < 2 ^ s := by positivity
  have hscale : ∀ k : ℚ, |k * 2 ^ s - a| = |k - a / 2 ^ s| * 2 ^ s := by
    intro k
    rw [← abs_of_pos hpos, ← abs_mul, abs_of_pos hpos, sub_mul, div_mul_cancel₀ _ hpos.ne']
  rcases y.dvd_signedUnits_or_lt s with ⟨k, hk⟩ | hlt
  · have hy : (y.signedUnits : ℚ) = k * 2 ^ s := by
      rw [hk]
      push_cast
      ring
    rw [hy, hscale, hscale]
    refine ⟨mul_le_mul_of_nonneg_right (hm.le k) hpos.le, fun hne he => ?_⟩
    refine hm.even (k := k) (fun hkm => hne ?_) (mul_right_cancel₀ hpos.ne' he)
    rw [hkm, Int.cast_natCast]
  · by_cases hz : s = 0
    · subst hz
      have hle := hm.le y.signedUnits
      have heven := hm.even (k := y.signedUnits)
      simp only [pow_zero, div_one, mul_one] at hle heven ⊢
      refine ⟨hle, fun hne he => heven (fun h => hne ?_) he⟩
      rw [h, Int.cast_natCast]
    -- The power of two below the magnitude is nearer than anything below that power.
    · have hlow := hs.le hz
      have hlt : (y.signedUnits : ℚ) < 2 ^ (52 + s) := by
        have h := (le_abs_self y.signedUnits).trans_lt hlt
        exact_mod_cast h
      have hgrid := mul_le_mul_of_nonneg_right (hm.le (2 ^ 52)) hpos.le
      have hpow : (((2 ^ 52 : ℤ) : ℚ)) * 2 ^ s = 2 ^ (52 + s) := by
        rw [pow_add]
        norm_num
      rw [← hscale, ← hscale, hpow, abs_of_nonpos (sub_nonpos.mpr hlow)] at hgrid
      have hfar : |(m * 2 ^ s : ℚ) - a| < |(y.signedUnits : ℚ) - a| := by
        rw [abs_of_neg (by linarith : (y.signedUnits : ℚ) - a < 0)]
        linarith
      exact ⟨hfar.le, fun _ he => absurd he hfar.ne'⟩

theorem mantissa_bounds {a : ℚ} {m s : ℕ} (hs : IsShift a s) (hm : NearestWhole (a / 2 ^ s) m) :
    m ≤ 2 ^ 53 ∧ (m < 2 ^ 52 → s = 0) := by
  have hpos : (0 : ℚ) < 2 ^ s := by positivity
  have habs := abs_le.mp hm.abs_sub_le_half
  constructor
  · have hlt : a / 2 ^ s < 2 ^ 53 := by
      rw [div_lt_iff₀ hpos, ← pow_add]
      exact hs.lt
    have hmq : (m : ℚ) < 2 ^ 53 + 1 := by linarith
    have hmn : m < 2 ^ 53 + 1 := by exact_mod_cast hmq
    omega
  · intro hlt
    by_contra hz
    have hle : 2 ^ 52 ≤ a / 2 ^ s := by
      rw [le_div_iff₀ hpos, ← pow_add]
      exact hs.le hz
    have hmq : (m : ℚ) + 1 ≤ 2 ^ 52 := by exact_mod_cast hlt
    linarith

/-- Each power of two keeps the gap below the next one that the greatest finite double keeps. -/
theorem pow_le_pow_succ_sub {k n : ℕ} (h : k ≤ n) : (2 : ℚ) ^ n ≤ 2 ^ (n + 1) - 2 ^ k := by
  have hle : (2 : ℚ) ^ k ≤ 2 ^ n := pow_le_pow_right₀ one_le_two h
  rw [pow_succ]
  linarith

theorem half_mul_pow_succ (n : ℕ) : (1 / 2 : ℚ) * 2 ^ (n + 1) = 2 ^ n := by
  rw [pow_succ]
  ring

theorem lt_of_bounded {a : ℚ} {m s : ℕ} (hs : IsShift a s) (hm : NearestWhole (a / 2 ^ s) m)
    (hb : s < 2045 ∨ (s = 2045 ∧ m < 2 ^ 53)) : a < 2 ^ 2098 - 2 ^ 2044 := by
  rcases hb with hb | ⟨rfl, hlt⟩
  · calc a < 2 ^ (53 + s) := hs.lt
      _ ≤ 2 ^ 2097 := pow_le_pow_right₀ one_le_two (by omega)
      _ ≤ 2 ^ 2098 - 2 ^ 2044 := pow_le_pow_succ_sub (by decide)
  · have hpos : (0 : ℚ) < 2 ^ 2045 := pow_pos two_pos 2045
    have hlt := hm.lt_of_lt hlt
    rw [div_lt_iff₀ hpos, sub_mul, ← pow_add, half_mul_pow_succ 2044] at hlt
    exact hlt

/-- A double with the sign and the nearest mantissa of a number is its rounding. -/
theorem isRounding_of_hasMantissa {negative : Bool} {a : ℚ} {m s : ℕ} {x : Binary64} (ha : 0 ≤ a)
    (hs : IsShift a s) (hm : NearestWhole (a / 2 ^ s) m) (hx : HasMantissa negative m s x) :
    IsRounding ((if negative then -a else a) / 2 ^ 1074) x := by
  have hunit : (0 : ℚ) < 2 ^ 1074 := pow_pos two_pos 1074
  have hxu : (x.units : ℚ) = m * 2 ^ s := by exact_mod_cast hx.units_eq
  -- Signs aside, distances are those of magnitudes in units.
  have hflip : ∀ y : Binary64, ∃ z : Binary64,
      |y.value - (if negative then -a else a) / 2 ^ 1074| = |(z.signedUnits : ℚ) - a| / 2 ^ 1074 ∧
      (y.value = x.value ↔ (z.signedUnits : ℚ) = m * 2 ^ s) := by
    intro y
    cases negative with
    | false =>
      have hxv : x.value = (m * 2 ^ s) / 2 ^ 1074 := by simp [value, signedUnits, hx.negative_eq, hxu]
      refine ⟨y, ?_, ?_⟩
      · rw [value, if_neg Bool.false_ne_true, ← sub_div, abs_div, abs_of_pos hunit]
      · rw [hxv, value, div_left_inj' hunit.ne']
    | true =>
      have hxv : x.value = -(m * 2 ^ s) / 2 ^ 1074 := by
        simp [value, signedUnits, hx.negative_eq, hxu]
      have hz : (({ y with negative := !y.negative } : Binary64).signedUnits : ℚ) =
          -(y.signedUnits : ℚ) := by
        simp only [signedUnits, units]
        cases y.negative <;> simp
      refine ⟨{ y with negative := !y.negative }, ?_, ?_⟩
      · rw [hz, value, if_pos rfl, ← sub_div, abs_div, abs_of_pos hunit, sub_neg_eq_add,
          ← neg_add', abs_neg]
      · rw [hz, hxv, value, div_left_inj' hunit.ne', neg_eq_iff_eq_neg]
  have hself : |x.value - (if negative then -a else a) / 2 ^ 1074| =
      |(m * 2 ^ s : ℚ) - a| / 2 ^ 1074 := by
    obtain ⟨z, hd, he⟩ := hflip x
    rw [hd, he.mp rfl]
  refine ⟨?_, fun y => ?_, fun y hne he => ?_⟩
  · have hlt := lt_of_bounded hs hm hx.bounded
    have habs : |if negative then -a else a| = a := by
      cases negative <;> simp [abs_of_nonneg ha]
    rw [abs_div, abs_of_pos hunit, habs, div_lt_iff₀ hunit, sub_mul, ← pow_add, ← pow_add]
    exact hlt
  · obtain ⟨z, hd, -⟩ := hflip y
    rw [hself, hd]
    exact div_le_div_of_nonneg_right (abs_mantissa_sub_le hs hm z).1 hunit.le
  · obtain ⟨z, hd, hiff⟩ := hflip y
    rw [hd, hself] at he
    rw [hx.parity]
    exact (abs_mantissa_sub_le hs hm z).2 (fun h => hne (hiff.mpr h))
      ((div_left_inj' hunit.ne').mp he)

theorem exists_mantissa (num : ℕ) {den : ℕ} (hd : 0 < den) :
    ∃ m s, (∀ negative, ofRatio negative num den = ofMantissa negative m s) ∧
      IsShift ((num : ℚ) / den * 2 ^ 1074) s ∧
      NearestWhole ((num : ℚ) / den * 2 ^ 1074 / 2 ^ s) m := by
  have ha : ((num * twoTo 1074 : ℕ) : ℚ) / den = (num : ℚ) / den * 2 ^ 1074 := by
    rw [Nat.cast_mul, twoTo_eq, Nat.cast_pow, Nat.cast_ofNat, mul_div_right_comm]
  have hs := isShift_log2 (num * twoTo 1074) hd
  have hm := nearestWhole_roundHalfEven (num * twoTo 1074)
    (Nat.mul_pos hd (Nat.two_pow_pos ((num * twoTo 1074 / den).log2 - 52)))
  rw [Nat.cast_mul den, ← div_div, ha, Nat.cast_pow, Nat.cast_ofNat] at hm
  rw [ha] at hs
  exact ⟨_, _, fun _ => rfl, hs, hm⟩

theorem exists_hasMantissa {negative : Bool} {num den : ℕ} {x : Binary64} (hd : 0 < den)
    (h : ofRatio negative num den = some x) :
    ∃ m s, IsShift ((num : ℚ) / den * 2 ^ 1074) s ∧
      NearestWhole ((num : ℚ) / den * 2 ^ 1074 / 2 ^ s) m ∧ HasMantissa negative m s x := by
  obtain ⟨m, s, hround, hs, hm⟩ := exists_mantissa num hd
  obtain ⟨hle, hlow⟩ := mantissa_bounds hs hm
  exact ⟨m, s, hs, hm, hasMantissa_of_ofMantissa hle hlow ((hround negative).symm.trans h)⟩

theorem isRounding_of_ofRatio {negative : Bool} {num den : ℕ} {x : Binary64} (hd : 0 < den)
    (h : ofRatio negative num den = some x) :
    IsRounding (if negative then -((num : ℚ) / den) else (num : ℚ) / den) x := by
  have hunit : (2 : ℚ) ^ 1074 ≠ 0 := pow_ne_zero 1074 two_ne_zero
  have hpos : (0 : ℚ) ≤ (num : ℚ) / den * 2 ^ 1074 :=
    mul_nonneg (div_nonneg num.cast_nonneg den.cast_nonneg) (pow_pos two_pos 1074).le
  obtain ⟨m, s, hs, hm, hx⟩ := exists_hasMantissa hd h
  have hr := isRounding_of_hasMantissa hpos hs hm hx
  have hv : (if negative then -((num : ℚ) / den * 2 ^ 1074) else (num : ℚ) / den * 2 ^ 1074) /
      2 ^ 1074 = if negative then -((num : ℚ) / den) else (num : ℚ) / den := by
    cases negative
    · exact mul_div_cancel_right₀ _ hunit
    · exact (neg_div _ _).trans (congrArg _ (mul_div_cancel_right₀ _ hunit))
  rwa [hv] at hr

end Binary64

theorem lt_pow_decimalLength (n : ℕ) : n < 10 ^ decimalLength n := by
  rw [decimalLength]
  split
  · next h => simp [h]
  · exact (Nat.length_toDigits_le_iff (by decide) Nat.length_toDigits_pos).mp le_rfl

namespace Decimal

def value (d : Decimal) : ℚ := (if d.negative then -1 else 1) * d.coefficient * 10 ^ d.scale

theorem abs_value (d : Decimal) : |d.value| = d.coefficient * 10 ^ d.scale := by
  have hpos : (0 : ℚ) ≤ d.coefficient * 10 ^ d.scale := by positivity
  rw [value, mul_assoc, abs_mul, abs_of_nonneg hpos]
  split <;> simp

theorem ten_zpow_le : (10 : ℚ) ^ (-325 : ℤ) ≤ 1 / 2 ^ 1075 := by
  have hten : (10 : ℚ) ^ 325 = (10 ^ 13) ^ 25 := by rw [← pow_mul]
  have htwo : (2 : ℚ) ^ 1075 = (2 ^ 43) ^ 25 := by rw [← pow_mul]
  rw [zpow_neg, ← one_div]
  refine one_div_le_one_div_of_le (pow_pos two_pos 1075) ?_
  rw [htwo, show (325 : ℤ) = (325 : ℕ) from rfl, zpow_natCast, hten]
  exact pow_le_pow_left₀ (by norm_num) (by norm_num) 25

theorem numerator_div_denominator (d : Decimal) :
    (d.numerator : ℚ) / d.denominator = d.coefficient * 10 ^ d.scale := by
  rw [numerator, denominator, tenTo_eq, tenTo_eq]
  push_cast
  rw [mul_div_assoc]
  congr 1
  have hten : (10 : ℚ) ≠ 0 := by norm_num
  rw [div_eq_iff (by positivity), ← zpow_natCast, ← zpow_natCast, ← zpow_add₀ hten]
  congr 1
  omega

end Decimal

end TableLoader
