import TableLoader.Proofs.Number.Rounding

/-! # What decimals are read as

The double that is read for a decimal is the rounding of its exact value, and depends on that value and the sign
alone. There is one for every value of the finite range, and the exact value of a double is read as that double. -/
namespace TableLoader

theorem twoTo_pos (n : ℕ) : 0 < twoTo n := Nat.two_pow_pos n

theorem tenTo_pos (n : ℕ) : 0 < tenTo n := Nat.pow_pos (by decide)

theorem roundHalfEven_mul_right (num den : ℕ) {k : ℕ} (hk : 0 < k) :
    roundHalfEven (num * k) (den * k) = roundHalfEven num den := by
  have hq : num * k / (den * k) = num / den := Nat.mul_div_mul_right num den hk
  have hr : num * k % (den * k) = num % den * k := Nat.mul_mod_mul_right k num den
  have hlow : 2 * (num % den * k) < den * k ↔ 2 * (num % den) < den := by
    rw [← Nat.mul_assoc]
    exact Nat.mul_lt_mul_right hk
  have hhigh : den * k < 2 * (num % den * k) ↔ den < 2 * (num % den) := by
    rw [← Nat.mul_assoc]
    exact Nat.mul_lt_mul_right hk
  simp only [roundHalfEven, hq, hr, hlow, hhigh]

theorem roundHalfEven_mul_self (n : ℕ) {den : ℕ} (hd : 0 < den) :
    roundHalfEven (n * den) den = n := by
  simp [roundHalfEven, Nat.mul_div_cancel n hd, hd]

namespace Binary64

theorem ofRatio_mul_right (negative : Bool) (num den : ℕ) {k : ℕ} (hk : 0 < k) :
    ofRatio negative (num * k) (den * k) = ofRatio negative num den := by
  have hn : num * k * twoTo 1074 = num * twoTo 1074 * k := Nat.mul_right_comm ..
  have hd : ∀ s, den * k * twoTo s = den * twoTo s * k := fun s => Nat.mul_right_comm ..
  simp only [ofRatio, hn, hd, Nat.mul_div_mul_right _ den hk, roundHalfEven_mul_right _ _ hk]

theorem ofRatio_congr {num den num' den' : ℕ} (hd : 0 < den) (hd' : 0 < den')
    (h : (num : ℚ) / den = num' / den') (negative : Bool) :
    ofRatio negative num den = ofRatio negative num' den' := by
  have hcross : num * den' = num' * den := by
    rw [div_eq_div_iff (Nat.cast_ne_zero.mpr hd.ne') (Nat.cast_ne_zero.mpr hd'.ne')] at h
    exact_mod_cast h
  rw [← ofRatio_mul_right negative num den hd', ← ofRatio_mul_right negative num' den' hd, hcross,
    Nat.mul_comm den]

theorem map_ofMantissa (negative : Bool) (m s : ℕ) :
    (ofMantissa false m s).map (fun x => { x with negative := negative }) =
      ofMantissa negative m s := by
  unfold ofMantissa
  split
  · rfl
  · split
    split <;> rfl

theorem map_ofRatio (negative : Bool) (num den : ℕ) :
    (ofRatio false num den).map (fun x => { x with negative := negative }) =
      ofRatio negative num den :=
  map_ofMantissa ..

theorem exists_ofMantissa (negative : Bool) {m s : ℕ} (hm : m ≤ 2 ^ 53)
    (hb : s < 2045 ∨ (s = 2045 ∧ m < 2 ^ 53)) : ∃ x, ofMantissa negative m s = some x := by
  rw [ofMantissa, twoTo_eq, twoTo_eq]
  split
  · exact ⟨_, rfl⟩
  · split
    next mantissa shift hpair =>
    have hle : shift ≤ 2045 := by
      split at hpair
      · obtain ⟨-, rfl⟩ := Prod.mk.inj hpair
        omega
      · obtain ⟨-, rfl⟩ := Prod.mk.inj hpair
        omega
    rw [if_pos hle]
    exact ⟨_, rfl⟩

theorem bounded_of_lt {a : ℚ} {m s : ℕ} (hs : IsShift a s) (hm : NearestWhole (a / 2 ^ s) m)
    (h : a < 2 ^ 2098 - 2 ^ 2044) : s < 2045 ∨ (s = 2045 ∧ m < 2 ^ 53) := by
  rcases lt_trichotomy s 2045 with hlt | rfl | hgt
  · exact Or.inl hlt
  · refine Or.inr ⟨rfl, ?_⟩
    by_contra hge
    have hpos : (0 : ℚ) < 2 ^ 2045 := pow_pos two_pos 2045
    have hmq : (2 : ℚ) ^ 53 ≤ m := by exact_mod_cast not_lt.mp hge
    have hquot : (2 : ℚ) ^ 53 - 1 / 2 ≤ a / 2 ^ 2045 := by
      have habs := (abs_le.mp hm.abs_sub_le_half).2
      generalize a / 2 ^ 2045 = q at habs
      linarith only [habs, hmq]
    rw [le_div_iff₀ hpos, sub_mul, ← pow_add, half_mul_pow_succ 2044] at hquot
    exact absurd h (not_lt.mpr hquot)
  · have hle := hs.le (by omega)
    have hpow : (2 : ℚ) ^ 2098 ≤ 2 ^ (52 + s) := pow_le_pow_right₀ one_le_two (by omega)
    have hsub : (2 : ℚ) ^ 2098 - 2 ^ 2044 ≤ 2 ^ 2098 := sub_le_self _ (pow_pos two_pos 2044).le
    exact absurd h (not_lt.mpr (hsub.trans (hpow.trans hle)))

theorem exists_ofRatio (negative : Bool) (num : ℕ) {den : ℕ} (hd : 0 < den)
    (h : (num : ℚ) / den < 2 ^ 1024 - 2 ^ 970) : ∃ x, ofRatio negative num den = some x := by
  obtain ⟨m, s, hr, hs, hm⟩ := exists_mantissa num hd
  have hlt : (num : ℚ) / den * 2 ^ 1074 < 2 ^ 2098 - 2 ^ 2044 := by
    have hmul := mul_lt_mul_of_pos_right h (pow_pos two_pos 1074 : (0 : ℚ) < 2 ^ 1074)
    rwa [sub_mul, ← pow_add, ← pow_add] at hmul
  rw [hr]
  exact exists_ofMantissa negative (mantissa_bounds hs hm).1 (bounded_of_lt hs hm hlt)

/-- A double of at least `2 ^ 52` units is as near to its ratio as 53 bits can be. -/
theorem abs_units_sub_le {negative : Bool} {num den : ℕ} {x : Binary64} (hd : 0 < den)
    (h : ofRatio negative num den = some x) (hx : 2 ^ 52 ≤ x.units) :
    |(x.units : ℚ) - num / den * 2 ^ 1074| ≤ (x.units : ℚ) / 2 ^ 53 := by
  obtain ⟨m, s, hs, hm, hmant⟩ := exists_hasMantissa hd h
  have hu := hmant.units_eq
  have hfull : 2 ^ 52 ≤ m := by
    by_contra hlt
    have hs := (mantissa_bounds hs hm).2 (not_le.mp hlt)
    rw [hu, hs, pow_zero, mul_one] at hx
    exact hlt hx
  generalize (num : ℚ) / den * 2 ^ 1074 = a at hm
  have hpos : (0 : ℚ) < 2 ^ s := by positivity
  have huq : (x.units : ℚ) = m * 2 ^ s := by exact_mod_cast hu
  have hfullq : (2 : ℚ) ^ 52 ≤ m := by exact_mod_cast hfull
  have hscale : |(m * 2 ^ s : ℚ) - a| = |m - a / 2 ^ s| * 2 ^ s := by
    rw [← abs_of_pos hpos, ← abs_mul, abs_of_pos hpos, sub_mul, div_mul_cancel₀ _ hpos.ne']
  rw [huq, hscale]
  calc |m - a / 2 ^ s| * 2 ^ s ≤ 1 / 2 * 2 ^ s := mul_le_mul_of_nonneg_right hm.abs_sub_le_half hpos.le
    _ ≤ m / 2 ^ 53 * 2 ^ s := mul_le_mul_of_nonneg_right (by linarith) hpos.le
    _ = m * 2 ^ s / 2 ^ 53 := (mul_div_right_comm ..).symm

theorem le_units {negative : Bool} {num den : ℕ} {x : Binary64} (hd : 0 < den)
    (h : ofRatio negative num den = some x) (ha : 2 ^ 53 ≤ (num : ℚ) / den * 2 ^ 1074) :
    2 ^ 52 ≤ x.units := by
  obtain ⟨m, s, hs, hm, hmant⟩ := exists_hasMantissa hd h
  rw [hmant.units_eq]
  have hfull : 2 ^ 52 ≤ m := by
    by_contra hlt
    obtain rfl := (mantissa_bounds hs hm).2 (not_le.mp hlt)
    have habs := (abs_le.mp hm.abs_sub_le_half).1
    have hmq : (m : ℚ) + 1 ≤ 2 ^ 52 := by exact_mod_cast not_le.mp hlt
    rw [pow_zero, div_one] at habs
    generalize (num : ℚ) / den * 2 ^ 1074 = a at habs ha
    linarith only [habs, hmq, ha]
  exact hfull.trans (Nat.le_mul_of_pos_right m (by positivity))

theorem units_of_exact {negative : Bool} {num den : ℕ} {x : Binary64} (hd : 0 < den)
    (h : ofRatio negative num den = some x) {c t : ℕ} (hc : c < 2 ^ 53)
    (ha : (num : ℚ) / den * 2 ^ 1074 = c * 2 ^ t) : x.units = c * 2 ^ t := by
  obtain ⟨m, s, hs, hm, hmant⟩ := exists_hasMantissa hd h
  rw [ha] at hs hm
  rw [hmant.units_eq]
  have hst : s ≤ t := by
    by_contra hlt
    have hlow := hs.le (by omega)
    have hpow : (2 : ℚ) ^ (53 + t) ≤ 2 ^ (52 + s) := pow_le_pow_right₀ one_le_two (by omega)
    have hcq : (c : ℚ) < 2 ^ 53 := by exact_mod_cast hc
    have hsmall : (c : ℚ) * 2 ^ t < 2 ^ (53 + t) := by
      rw [pow_add]
      exact mul_lt_mul_of_pos_right hcq (by positivity)
    exact absurd hsmall (not_lt.mpr (hpow.trans hlow))
  obtain ⟨k, rfl⟩ := Nat.exists_eq_add_of_le hst
  have hquot : (c : ℚ) * 2 ^ (s + k) / 2 ^ s = (c * 2 ^ k : ℕ) := by
    rw [pow_add]
    push_cast
    field_simp
  have hmk : m = c * 2 ^ k := by
    by_contra hne
    have hhalf := hm.abs_sub_le_half
    have hone : (1 : ℤ) ≤ |(m : ℤ) - (c * 2 ^ k : ℕ)| := Int.one_le_abs (by omega)
    have honeq : (1 : ℚ) ≤ |(m : ℚ) - (c * 2 ^ k : ℕ)| := by exact_mod_cast hone
    rw [hquot] at hhalf
    linarith
  rw [hmk, pow_add]
  ring

theorem log2_add_mul {f : ℕ} (hf : f < 2 ^ 52) (s : ℕ) : ((2 ^ 52 + f) * 2 ^ s).log2 = 52 + s := by
  have hne : (2 ^ 52 + f) * 2 ^ s ≠ 0 := by positivity
  rw [Nat.log2_eq_iff hne, pow_add, pow_add, pow_add]
  constructor
  · exact Nat.mul_le_mul_right _ (by omega)
  · rw [Nat.mul_right_comm]
    exact Nat.mul_lt_mul_of_pos_right (by omega) (by positivity)

theorem ofRatio_units (x : Binary64) : ofRatio x.negative x.units (twoTo 1074) = some x := by
  have hpos : 0 < twoTo 1074 := twoTo_pos 1074
  have hf : x.fraction.val < 2 ^ 52 := x.fraction.isLt
  have hb : x.biased.val < 2047 := x.biased.isLt
  obtain ⟨negative, biased, fraction⟩ := x
  simp only [ofRatio, Nat.mul_div_cancel _ hpos]
  by_cases hz : biased.val = 0
  · have hu : units ⟨negative, biased, fraction⟩ = fraction.val := if_pos hz
    have hs : fraction.val.log2 - 52 = 0 := by
      by_cases h0 : fraction.val = 0
      · rw [h0]; rfl
      · have := (Nat.log2_lt h0).mpr hf
        omega
    have hfin : Fin.ofNat 4503599627370496 fraction.val = fraction :=
      Fin.ext (Nat.mod_eq_of_lt hf)
    have hbias : biased = 0 := Fin.ext hz
    rw [hu, hs, show twoTo 0 = 1 from rfl, Nat.mul_one, roundHalfEven_mul_self _ hpos, ofMantissa,
      twoTo_eq, if_pos hf, hfin, hbias]
  · have hu : units ⟨negative, biased, fraction⟩ =
        (2 ^ 52 + fraction.val) * 2 ^ (biased.val - 1) := if_neg hz
    have hs : (units ⟨negative, biased, fraction⟩).log2 - 52 = biased.val - 1 := by
      rw [hu, log2_add_mul hf]
      omega
    have hround : roundHalfEven (units ⟨negative, biased, fraction⟩ * twoTo 1074)
        (twoTo 1074 * twoTo (biased.val - 1)) = 2 ^ 52 + fraction.val := by
      rw [hu, twoTo_eq (biased.val - 1), Nat.mul_assoc, Nat.mul_comm (2 ^ (biased.val - 1))]
      exact roundHalfEven_mul_self _ (Nat.mul_pos hpos (Nat.two_pow_pos _))
    have hlow : ¬ 2 ^ 52 + fraction.val < 2 ^ 52 := by omega
    have hhigh : ¬ 2 ^ 52 + fraction.val = 2 ^ 53 := by omega
    have hfin : Fin.ofNat 4503599627370496 (2 ^ 52 + fraction.val - 2 ^ 52) = fraction := by
      rw [Nat.add_sub_cancel_left]
      exact Fin.ext (Nat.mod_eq_of_lt hf)
    have hbias : Fin.ofNat 2047 (biased.val - 1 + 1) = biased := by
      rw [Nat.sub_add_cancel (Nat.one_le_iff_ne_zero.mpr hz)]
      exact Fin.ext (Nat.mod_eq_of_lt hb)
    rw [hs, hround, ofMantissa, twoTo_eq, twoTo_eq, if_neg hlow, if_neg hhigh]
    simp only
    rw [if_pos (by omega), hfin, hbias]

theorem ofRatio_of_lt (negative : Bool) {num den : ℕ} (hd : 0 < den)
    (h : (num : ℚ) / den < 1 / 2 ^ 1075) : ofRatio negative num den = some (zero negative) := by
  obtain ⟨m, s, hr, hs, hm⟩ := exists_mantissa num hd
  have ha : (num : ℚ) / den * 2 ^ 1074 < 1 / 2 := by
    have hunit : (0 : ℚ) < 2 ^ 1074 := pow_pos two_pos 1074
    rw [pow_succ, lt_div_iff₀ (mul_pos hunit two_pos), ← mul_assoc] at h
    exact (lt_div_iff₀ two_pos).mpr h
  generalize (num : ℚ) / den * 2 ^ 1074 = a at hs hm ha
  have hzero : s = 0 := by
    by_contra hne
    have hone : (1 : ℚ) ≤ 2 ^ (52 + s) := one_le_pow₀ one_le_two
    have hle := hs.le hne
    linarith only [ha, hone, hle]
  subst hzero
  have habs := (abs_le.mp hm.abs_sub_le_half).2
  rw [pow_zero, div_one] at habs
  have hmq : (m : ℚ) < 1 := by linarith only [ha, habs]
  obtain rfl : m = 0 := Nat.lt_one_iff.mp (by exact_mod_cast hmq)
  rw [hr]
  rfl

end Binary64

theorem pow_decimalLength_le {n : ℕ} (h : n ≠ 0) : 10 ^ (decimalLength n - 1) ≤ n := by
  rw [decimalLength, if_neg h]
  by_contra hlt
  have hpos : 0 < (Nat.toDigits 10 n).length := Nat.length_toDigits_pos
  by_cases hone : (Nat.toDigits 10 n).length - 1 = 0
  · rw [hone, pow_zero] at hlt
    omega
  · have hle := (Nat.length_toDigits_le_iff (b := 10) (by decide) (Nat.pos_of_ne_zero hone)).mpr
      (not_le.mp hlt)
    omega

namespace Decimal

open Binary64 (ofRatio)

theorem denominator_pos (d : Decimal) : 0 < d.denominator := tenTo_pos _

theorem value_eq_ratio (d : Decimal) : d.value =
    if d.negative then -((d.numerator : ℚ) / d.denominator) else (d.numerator : ℚ) / d.denominator := by
  rw [numerator_div_denominator, value]
  split <;> ring

theorem place_bounds (d : Decimal) (hc : d.coefficient ≠ 0) :
    (10 : ℚ) ^ (d.scale + decimalLength d.coefficient - 1) ≤ d.coefficient * 10 ^ d.scale ∧
      d.coefficient * 10 ^ d.scale < (10 : ℚ) ^ (d.scale + decimalLength d.coefficient) := by
  have hten : (10 : ℚ) ≠ 0 := by norm_num
  have hpos : (0 : ℚ) < 10 ^ d.scale := by positivity
  have hlen : 0 < decimalLength d.coefficient := by
    rw [decimalLength, if_neg hc]
    exact Nat.length_toDigits_pos
  have hexp : d.scale + decimalLength d.coefficient - 1 =
      d.scale + (decimalLength d.coefficient - 1 : ℕ) := by omega
  have hlow : (10 : ℚ) ^ (decimalLength d.coefficient - 1) ≤ d.coefficient := by
    exact_mod_cast pow_decimalLength_le hc
  have hhigh : (d.coefficient : ℚ) < 10 ^ decimalLength d.coefficient := by
    exact_mod_cast lt_pow_decimalLength d.coefficient
  rw [hexp, zpow_add₀ hten, zpow_add₀ hten, zpow_natCast, zpow_natCast, mul_comm, mul_comm (_ ^ d.scale)]
  exact ⟨mul_le_mul_of_nonneg_right hlow hpos.le, mul_lt_mul_of_pos_right hhigh hpos⟩

/-- The shortcuts for great and small decimals give what rounding gives. -/
theorem toBinary64?_eq_ofRatio (d : Decimal) :
    d.toBinary64? = ofRatio d.negative d.numerator d.denominator := by
  have hv := d.numerator_div_denominator
  have hten : (1 : ℚ) ≤ 10 := by norm_num
  simp only [toBinary64?]
  split
  · next hc =>
    rw [Binary64.ofRatio_of_lt _ d.denominator_pos]
    rw [hv, hc, Nat.cast_zero, zero_mul]
    exact one_div_pos.mpr (pow_pos two_pos 1075)
  · next hc =>
    obtain ⟨hlow, hhigh⟩ := d.place_bounds hc
    split
    · next htop =>
      cases hr : ofRatio d.negative d.numerator d.denominator with
      | none => rfl
      | some x =>
        have hrange := (Binary64.isRounding_of_ofRatio d.denominator_pos hr).inRange
        rw [← d.value_eq_ratio, abs_value] at hrange
        have hbig : (2 : ℚ) ^ 1024 ≤ 10 ^ 310 := by
          have h : 2 ^ 1024 ≤ 10 ^ 310 := by decide +kernel
          exact_mod_cast h
        have hplace : (10 : ℚ) ^ (310 : ℤ) ≤ 10 ^ (d.scale + decimalLength d.coefficient - 1) :=
          zpow_le_zpow_right₀ hten (by omega)
        have hsub : (2 : ℚ) ^ 1024 - 2 ^ 970 ≤ 2 ^ 1024 := sub_le_self _ (pow_pos two_pos 970).le
        exact absurd (hrange.trans_le (hsub.trans hbig)) (not_lt.mpr (hplace.trans hlow))
    · split
      · next htop =>
        rw [Binary64.ofRatio_of_lt _ d.denominator_pos]
        rw [hv]
        exact hhigh.trans_le ((zpow_le_zpow_right₀ hten htop.le).trans ten_zpow_le)
      · rfl

/-- The double that is read for a decimal is the rounding of its exact value. -/
theorem isRounding_of_toBinary64? {d : Decimal} {x : Binary64} (h : d.toBinary64? = some x) :
    Binary64.IsRounding d.value x := by
  rw [toBinary64?_eq_ofRatio] at h
  rw [value_eq_ratio]
  exact Binary64.isRounding_of_ofRatio d.denominator_pos h

/-- Decimals of one sign and one value are read as the same double. -/
theorem toBinary64?_congr {d e : Decimal} (hs : d.negative = e.negative)
    (hv : (d.coefficient : ℚ) * 10 ^ d.scale = e.coefficient * 10 ^ e.scale) :
    d.toBinary64? = e.toBinary64? := by
  rw [toBinary64?_eq_ofRatio, toBinary64?_eq_ofRatio, hs]
  refine Binary64.ofRatio_congr d.denominator_pos e.denominator_pos ?_ _
  rw [numerator_div_denominator, numerator_div_denominator, hv]

theorem exists_toBinary64? {d : Decimal} (h : |d.value| < 2 ^ 1024 - 2 ^ 970) :
    ∃ x, d.toBinary64? = some x := by
  rw [toBinary64?_eq_ofRatio]
  refine Binary64.exists_ofRatio _ _ d.denominator_pos ?_
  rwa [numerator_div_denominator, ← abs_value]

end Decimal

end TableLoader
