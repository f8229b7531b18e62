import TableLoader.Proofs.Number.Reading

/-! # The shortest decimal of a double

A double is read back from the decimal it is written by. Decimals of at most fifteen digits are further apart
than the numbers that are read as one double, so such a decimal is also the one that its double is written by. -/
namespace TableLoader

namespace Binary64

def magnitude (x : Binary64) : ℚ := x.units / 2 ^ 1074

end Binary64

namespace Decimal

def magnitude (d : Decimal) : ℚ := d.coefficient * 10 ^ d.scale

theorem value_eq (d : Decimal) : d.value = (if d.negative then -1 else 1) * d.magnitude := by
  rw [value, magnitude, mul_assoc]

theorem negative_of_toBinary64? {d : Decimal} {x : Binary64} (h : d.toBinary64? = some x) :
    x.negative = d.negative := by
  rw [toBinary64?_eq_ofRatio] at h
  obtain ⟨_, _, -, -, hmant⟩ := Binary64.exists_hasMantissa d.denominator_pos h
  exact hmant.negative_eq

theorem toBinary64?_eq_some_of_magnitude {d : Decimal} {x : Binary64} (hs : d.negative = x.negative)
    (hv : d.magnitude = x.magnitude) : d.toBinary64? = some x := by
  have htwo : ((twoTo 1074 : ℕ) : ℚ) = 2 ^ 1074 := by rw [twoTo_eq, Nat.cast_pow, Nat.cast_ofNat]
  have hratio : (d.numerator : ℚ) / d.denominator = x.units / twoTo 1074 := by
    rw [numerator_div_denominator, htwo]
    exact hv
  rw [toBinary64?_eq_ofRatio, hs, Binary64.ofRatio_congr d.denominator_pos (twoTo_pos 1074) hratio]
  exact x.ofRatio_units

theorem strip_same (fuel : ℕ) (d : Decimal) :
    (d.strip fuel).negative = d.negative ∧ (d.strip fuel).magnitude = d.magnitude := by
  induction fuel generalizing d with
  | zero => exact ⟨rfl, rfl⟩
  | succ fuel ih =>
    rw [strip]
    split
    · next h =>
      obtain ⟨hs, hv⟩ := ih { d with coefficient := d.coefficient / 10, scale := d.scale + 1 }
      have hten : (10 : ℚ) ≠ 0 := by norm_num
      have hdiv : (d.coefficient : ℚ) = (d.coefficient / 10 : ℕ) * 10 := by
        exact_mod_cast (Nat.div_mul_cancel (Nat.dvd_of_mod_eq_zero h.2)).symm
      refine ⟨hs, hv.trans ?_⟩
      rw [magnitude, magnitude, hdiv, zpow_add_one₀ hten]
      ring
    · exact ⟨rfl, rfl⟩

theorem normalize_same (d : Decimal) :
    d.normalize.negative = d.negative ∧ d.normalize.magnitude = d.magnitude :=
  d.strip_same _

theorem exists_magnitude_eq {d : Decimal} {g : ℤ} (h : g ≤ d.scale) :
    ∃ c : ℕ, d.magnitude = c * 10 ^ g := by
  have hten : (10 : ℚ) ≠ 0 := by norm_num
  obtain ⟨k, hk⟩ := Int.eq_ofNat_of_zero_le (sub_nonneg.mpr h)
  refine ⟨d.coefficient * 10 ^ k, ?_⟩
  have hs : d.scale = k + g := by omega
  rw [magnitude, hs, zpow_add₀ hten, zpow_natCast]
  push_cast
  ring

end Decimal

namespace Binary64

open Decimal (toBinary64?_eq_some_of_magnitude)

theorem magnitude_of_five_pow {d : Decimal} {u k : ℕ} (hc : d.coefficient = u * Nat.pow 5 k)
    (hs : d.scale = -k) : d.magnitude = u / 2 ^ k := by
  have hten : (10 : ℚ) ^ k = 2 ^ k * 5 ^ k := by
    rw [← mul_pow]
    norm_num only
  rw [Decimal.magnitude, hc, hs, zpow_neg, zpow_natCast, hten, Nat.pow_eq]
  push_cast
  field_simp

theorem toBinary64?_exactDecimal (x : Binary64) : x.exactDecimal.toBinary64? = some x := by
  have hc : x.exactDecimal.coefficient = x.units * Nat.pow 5 1074 := by simp only [exactDecimal]
  have hm := magnitude_of_five_pow hc rfl
  exact toBinary64?_eq_some_of_magnitude rfl hm

theorem toBinary64?_of_searchShortest {x : Binary64} {place : ℤ} {fuel digits : ℕ} {d : Decimal}
    (h : x.searchShortest place fuel digits = some d) : d.toBinary64? = some x := by
  induction fuel generalizing digits with
  | zero => exact absurd h (Option.some_ne_none d).symm
  | succ fuel ih =>
    rw [searchShortest, Option.or_eq_some_iff] at h
    rcases h with h | ⟨-, h⟩
    · have hread := List.find?_some h
      exact eq_of_beq hread
    · exact ih h

/-- A double is read back from the decimal that it is written by. -/
theorem toBinary64?_shortestDecimal (x : Binary64) : x.shortestDecimal.toBinary64? = some x := by
  unfold shortestDecimal
  split
  · next hz =>
    apply toBinary64?_eq_some_of_magnitude
    · rfl
    · have hu : x.units = 0 := eq_of_beq hz
      simp [Decimal.magnitude, magnitude, hu]
  · have hsame := Decimal.normalize_same
      ((x.searchShortest (leadingPlace x.units (twoTo 1074)) 17 1).getD x.exactDecimal)
    rw [Decimal.toBinary64?_congr hsame.1 hsame.2]
    cases hs : x.searchShortest (leadingPlace x.units (twoTo 1074)) 17 1 with
    | none => exact x.toBinary64?_exactDecimal
    | some d => exact toBinary64?_of_searchShortest hs

theorem decimalLength_pos {n : ℕ} (h : n ≠ 0) : 0 < decimalLength n := by
  rw [decimalLength, if_neg h]
  exact Nat.length_toDigits_pos

theorem exists_ceil {num den : ℕ} (hn : 0 < num) (h : num < den) :
    ∃ q, q ≠ 0 ∧ (den + num - 1) / num = q + 1 ∧ den ≤ (q + 1) * num ∧ q * num < den := by
  obtain ⟨q, hq⟩ : ∃ q, (den + num - 1) / num = q + 1 := by
    have hone : 1 ≤ (den + num - 1) / num := (Nat.le_div_iff_mul_le hn).mpr (by omega)
    exact ⟨_, (Nat.sub_add_cancel hone).symm⟩
  have hup : den ≤ (q + 1) * num := by
    have hlt : den + num - 1 < (q + 1 + 1) * num := (Nat.div_lt_iff_lt_mul hn).mp (by omega)
    rw [Nat.add_mul (q + 1), Nat.one_mul] at hlt
    omega
  have hdown : q * num < den := by
    have hle : (q + 1) * num ≤ den + num - 1 := (Nat.le_div_iff_mul_le hn).mp hq.ge
    rw [Nat.add_mul, Nat.one_mul] at hle
    omega
  refine ⟨q, ?_, hq, hup, hdown⟩
  rintro rfl
  rw [Nat.zero_add, Nat.one_mul] at hup
  omega

theorem leadingPlace_bounds {num den : ℕ} (hn : 0 < num) (hd : 0 < den) :
    (10 : ℚ) ^ leadingPlace num den ≤ num / den ∧
      (num : ℚ) / den < 10 ^ (leadingPlace num den + 1) := by
  have hnq : (0 : ℚ) < num := by exact_mod_cast hn
  have hdq : (0 : ℚ) < den := by exact_mod_cast hd
  unfold leadingPlace
  split
  · next hle =>
    have hq : num / den ≠ 0 := (Nat.div_pos hle hd).ne'
    have hlen := decimalLength_pos hq
    have hexp : (decimalLength (num / den) : ℤ) - 1 = (decimalLength (num / den) - 1 : ℕ) := by omega
    have hlow : 10 ^ (decimalLength (num / den) - 1) * den ≤ num :=
      (Nat.le_div_iff_mul_le hd).mp (pow_decimalLength_le hq)
    have hhigh : num < 10 ^ decimalLength (num / den) * den :=
      (Nat.div_lt_iff_lt_mul hd).mp (lt_pow_decimalLength _)
    rw [sub_add_cancel, hexp, zpow_natCast, zpow_natCast, le_div_iff₀ hdq, div_lt_iff₀ hdq]
    exact ⟨by exact_mod_cast hlow, by exact_mod_cast hhigh⟩
  · next hlt =>
    obtain ⟨q, hq0, hq, hup, hdown⟩ := exists_ceil hn (not_le.mp hlt)
    have hlen := decimalLength_pos hq0
    have hexp : -(decimalLength q : ℤ) + 1 = -(decimalLength q - 1 : ℕ) := by omega
    have hlow : den ≤ num * 10 ^ decimalLength q :=
      calc den ≤ (q + 1) * num := hup
        _ ≤ 10 ^ decimalLength q * num := Nat.mul_le_mul_right _ (lt_pow_decimalLength q)
        _ = num * 10 ^ decimalLength q := Nat.mul_comm ..
    have hhigh : num * 10 ^ (decimalLength q - 1) < den :=
      calc num * 10 ^ (decimalLength q - 1) ≤ num * q :=
            Nat.mul_le_mul_left _ (pow_decimalLength_le hq0)
        _ = q * num := Nat.mul_comm ..
        _ < den := hdown
    rw [hq, Nat.add_sub_cancel, hexp, zpow_neg, zpow_neg, zpow_natCast, zpow_natCast,
      inv_le_comm₀ (by positivity) (by positivity), lt_inv_comm₀ (by positivity) (by positivity),
      inv_div, div_le_iff₀ hnq, lt_div_iff₀ hnq, mul_comm, mul_comm _ (num : ℚ)]
    exact ⟨by exact_mod_cast hlow, by exact_mod_cast hhigh⟩

/-- A whole number less than one away from a ratio is its quotient or the next number. -/
theorem eq_quotient_or_succ {num den c : ℕ} (hd : 0 < den) (h : |(num : ℚ) / den - c| < 1) :
    c = num / den ∨ c = num / den + 1 := by
  have hdq : (0 : ℚ) < den := by exact_mod_cast hd
  obtain ⟨hlow, hhigh⟩ := abs_lt.mp h
  have hfloor : ((num / den : ℕ) : ℚ) ≤ num / den := Nat.cast_div_le
  have hceil : (num : ℚ) / den < (num / den : ℕ) + 1 := by
    rw [div_lt_iff₀ hdq]
    have hlt : num < (num / den + 1) * den := (Nat.div_lt_iff_lt_mul hd).mp (Nat.lt_succ_self _)
    exact_mod_cast hlt
  have hge : num / den < c + 1 := by
    have hq : ((num / den : ℕ) : ℚ) < c + 1 := by linarith
    exact_mod_cast hq
  have hle : c < num / den + 2 := by
    have hq : (c : ℚ) < (num / den : ℕ) + 2 := by linarith
    exact_mod_cast hq
  omega

theorem mem_neighbours (x : Binary64) (g : ℤ) {c : ℕ}
    (h : |x.magnitude - c * 10 ^ g| < 10 ^ g) : ⟨x.negative, c, g⟩ ∈ x.neighbours g := by
  have hpos : (0 : ℚ) < 10 ^ g := by positivity
  have hd : 0 < twoTo 1074 * tenTo g.toNat := Nat.mul_pos (twoTo_pos _) (tenTo_pos _)
  have hratio : ((x.units * tenTo (-g).toNat : ℕ) : ℚ) / (twoTo 1074 * tenTo g.toNat : ℕ) =
      x.magnitude / 10 ^ g := by
    have hscale := Decimal.numerator_div_denominator ⟨false, 1, -g⟩
    rw [Decimal.numerator, Decimal.denominator, neg_neg, Nat.one_mul, Nat.cast_one, one_mul] at hscale
    rw [Nat.cast_mul, Nat.cast_mul, ← div_mul_div_comm, hscale, twoTo_eq, Nat.cast_pow,
      Nat.cast_ofNat, zpow_neg, ← div_eq_mul_inv]
    rfl
  have hone : |((x.units * tenTo (-g).toNat : ℕ) : ℚ) / (twoTo 1074 * tenTo g.toNat : ℕ) - c| < 1 := by
    have hsub : x.magnitude / 10 ^ g - c = (x.magnitude - c * 10 ^ g) / 10 ^ g := by
      rw [sub_div, mul_div_cancel_right₀ _ hpos.ne']
    rw [hratio, hsub, abs_div, abs_of_pos hpos, div_lt_one hpos]
    exact h
  have hc := eq_quotient_or_succ hd hone
  unfold neighbours
  simp only
  split
  · exact List.mem_pair.mpr (by rcases hc with rfl | rfl <;> simp)
  · exact List.mem_pair.mpr (by rcases hc with rfl | rfl <;> simp)

theorem scale_of_mem_neighbours {x : Binary64} {g : ℤ} {d : Decimal} (h : d ∈ x.neighbours g) :
    d.scale = g := by
  unfold neighbours at h
  simp only at h
  split at h
  · rcases List.mem_pair.mp h with rfl | rfl <;> rfl
  · rcases List.mem_pair.mp h with rfl | rfl <;> rfl

/-- Of the grids that are searched, the one found is at most as fine as any with a decimal that is read as the
double. -/
theorem exists_searchShortest {x : Binary64} {place : ℤ} {k : ℕ} {d : Decimal}
    (hd : d ∈ x.neighbours (place - k + 1)) (hr : d.toBinary64? = some x) (fuel digits : ℕ)
    (hk : digits ≤ k) (hf : k < digits + fuel) :
    ∃ e, x.searchShortest place fuel digits = some e ∧ place - k + 1 ≤ e.scale := by
  induction fuel generalizing digits with
  | zero => omega
  | succ fuel ih =>
    rw [searchShortest]
    cases hfind : (x.neighbours (place - digits + 1)).find? (·.toBinary64? == some x) with
    | some e =>
      have hs := scale_of_mem_neighbours (List.mem_of_find?_eq_some hfind)
      exact ⟨e, rfl, by omega⟩
    | none =>
      have hne : digits ≠ k := by
        rintro rfl
        have hnot := List.find?_eq_none.mp hfind d hd
        exact hnot (beq_iff_eq.mpr hr)
      rw [Option.none_or]
      exact ih (digits + 1) (by omega) (by omega)

theorem ten_zpow_succ (p : ℤ) : (10 : ℚ) ^ (p + 1) = 10 ^ 15 * 10 ^ (p - 14) := by
  rw [← zpow_natCast, ← zpow_add₀ (by norm_num)]
  congr 1
  omega

theorem place_magnitude {x : Binary64} (hx : 2 ^ 52 ≤ x.units) :
    (10 : ℚ) ^ leadingPlace x.units (twoTo 1074) ≤ x.magnitude ∧
      x.magnitude < 10 ^ (leadingPlace x.units (twoTo 1074) + 1) := by
  have htwo : ((twoTo 1074 : ℕ) : ℚ) = 2 ^ 1074 := by rw [twoTo_eq, Nat.cast_pow, Nat.cast_ofNat]
  rw [magnitude, ← htwo]
  exact leadingPlace_bounds (lt_of_lt_of_le (by decide) hx) (twoTo_pos 1074)

theorem abs_sub_magnitude_le {x : Binary64} {d : Decimal} (hx : 2 ^ 52 ≤ x.units)
    (h : d.toBinary64? = some x) : |x.magnitude - d.magnitude| ≤ x.magnitude / 2 ^ 53 := by
  have hunit : (0 : ℚ) < 2 ^ 1074 := pow_pos two_pos 1074
  rw [Decimal.toBinary64?_eq_ofRatio] at h
  have habs := abs_units_sub_le d.denominator_pos h hx
  rw [Decimal.numerator_div_denominator] at habs
  have hsub : x.magnitude - d.magnitude =
      (x.units - d.coefficient * 10 ^ d.scale * 2 ^ 1074) / 2 ^ 1074 := by
    rw [sub_div, mul_div_cancel_right₀ _ hunit.ne']
    rfl
  rw [hsub, abs_div, abs_of_pos hunit, magnitude, div_right_comm]
  exact div_le_div_of_nonneg_right habs hunit.le

variable {x : Binary64} {d e : Decimal} {p : ℤ}

/-- Fifteen digits below the first one of a double, no two multiples are read as that double. -/
theorem magnitude_unique (hx : 2 ^ 52 ≤ x.units) (hp : x.magnitude < 10 ^ (p + 1))
    (hd : p - 14 ≤ d.scale) (he : p - 14 ≤ e.scale) (hdr : d.toBinary64? = some x)
    (her : e.toBinary64? = some x) : d.magnitude = e.magnitude := by
  obtain ⟨m, hm⟩ := Decimal.exists_magnitude_eq hd
  obtain ⟨n, hn⟩ := Decimal.exists_magnitude_eq he
  have hpos : (0 : ℚ) < 10 ^ (p - 14) := by positivity
  -- Each is within a part in `2 ^ 53` of the double, which is less than half a step of the grid.
  have hdist : |d.magnitude - e.magnitude| < 10 ^ (p - 14) := by
    have hd := abs_sub_magnitude_le hx hdr
    have he := abs_sub_magnitude_le hx her
    rw [abs_sub_comm] at hd
    have htri := abs_sub_le d.magnitude x.magnitude e.magnitude
    rw [ten_zpow_succ] at hp
    generalize x.magnitude = v at hd he hp htri
    have hsmall : v / 2 ^ 53 < 10 ^ (p - 14) / 2 := by
      rw [div_lt_iff₀ (by positivity)]
      linarith
    linarith
  rw [hm, hn, ← sub_mul, abs_mul, abs_of_pos hpos] at hdist
  have hone : |((m : ℤ) - n : ℤ)| < 1 := by
    have hlt : |(m : ℚ) - n| < 1 := lt_of_mul_lt_mul_right (by rwa [one_mul]) hpos.le
    exact_mod_cast hlt
  have hmn : m = n := by
    have h0 := Int.abs_lt_one_iff.mp hone
    omega
  rw [hm, hn, hmn]

/-- A decimal of fifteen digits has no digit beyond those of its double. -/
theorem scale_ge_of_short (hx : 2 ^ 52 ≤ x.units) (hp : 10 ^ p ≤ x.magnitude)
    (hc : d.coefficient < 10 ^ 15) (hr : d.toBinary64? = some x) : p - 14 ≤ d.scale := by
  by_contra hlt
  have hpos : (0 : ℚ) < 10 ^ (p - 15) := by positivity
  have hgrid : (10 : ℚ) ^ p = 10 ^ 15 * 10 ^ (p - 15) := by
    have h := ten_zpow_succ (p - 1)
    rwa [sub_add_cancel, sub_sub] at h
  have hcq : (d.coefficient : ℚ) ≤ 10 ^ 15 - 1 := by
    have hle : d.coefficient + 1 ≤ 10 ^ 15 := hc
    have hleq : (d.coefficient : ℚ) + 1 ≤ 10 ^ 15 := by exact_mod_cast hle
    linarith
  have hsmall : d.magnitude ≤ (10 ^ 15 - 1) * 10 ^ (p - 15) :=
    mul_le_mul hcq (zpow_le_zpow_right₀ (by norm_num) (by omega)) (by positivity) (by norm_num)
  have habs := (abs_le.mp (abs_sub_magnitude_le hx hr)).2
  rw [hgrid] at hp
  generalize x.magnitude = v at habs hp
  generalize (10 : ℚ) ^ (p - 15) = g at hpos hp hsmall
  linarith

/-- A decimal of at most fifteen digits is written back as it was. -/
theorem value_shortestDecimal (hx : 2 ^ 52 ≤ x.units) (hc : d.coefficient < 10 ^ 15)
    (hr : d.toBinary64? = some x) : x.shortestDecimal.value = d.value := by
  have hunits : x.units ≠ 0 := (lt_of_lt_of_le (by decide) hx).ne'
  obtain ⟨hlow, hhigh⟩ := place_magnitude hx
  generalize hplace : leadingPlace x.units (twoTo 1074) = p at hlow hhigh
  have hscale := scale_ge_of_short hx hlow hc hr
  obtain ⟨c, hm⟩ := Decimal.exists_magnitude_eq hscale
  -- On the grid of fifteen digits the decimal itself is a neighbour of the double.
  have hnear : |x.magnitude - c * 10 ^ (p - 14)| < 10 ^ (p - 14) := by
    have hpos : (0 : ℚ) < 10 ^ (p - 14) := by positivity
    have hsmall : x.magnitude / 2 ^ 53 < 10 ^ (p - 14) := by
      rw [ten_zpow_succ] at hhigh
      rw [div_lt_iff₀ (by positivity)]
      linarith
    rw [← hm]
    exact (abs_sub_magnitude_le hx hr).trans_lt hsmall
  have hmem := x.mem_neighbours (p - 14) hnear
  have hread : (⟨x.negative, c, p - 14⟩ : Decimal).toBinary64? = some x := by
    rw [← hr]
    exact Decimal.toBinary64?_congr (Decimal.negative_of_toBinary64? hr) hm.symm
  have hgrid : p - 14 = p - (15 : ℕ) + 1 := by omega
  rw [hgrid] at hmem hread
  obtain ⟨e, he, hes⟩ := exists_searchShortest hmem hread 17 1 (by omega) (by omega)
  have hsame := magnitude_unique hx hhigh hscale (by omega) hr (toBinary64?_of_searchShortest he)
  have hzero : x.isZero = false := by
    rw [isZero, beq_eq_false_iff_ne]
    exact hunits
  have hshort : x.shortestDecimal = e.normalize := by
    rw [shortestDecimal, hzero, if_neg Bool.false_ne_true]
    simp only [hplace, he, Option.getD_some]
  have hneg := Decimal.negative_of_toBinary64? x.toBinary64?_shortestDecimal
  rw [Decimal.value_eq, Decimal.value_eq, ← hneg, Decimal.negative_of_toBinary64? hr, hsame, hshort,
    e.normalize_same.2]

end Binary64

end TableLoader
