import TableLoader.Json.NumberReader
import TableLoader.Proofs.Number.Written

/-! # Number literals and their numbers

A number literal denotes a rational number. A whole number of 64 bits keeps it, and so does a literal of at most
fifteen digits near the units: it is read by a single rounding, and its double is written by the same digits. -/
namespace TableLoader

theorem natOfDigits_cons (c : Char) (cs : List Char) :
    natOfDigits (c :: cs) = (c.toNat - '0'.toNat) * 10 ^ cs.length + natOfDigits cs := by
  rw [natOfDigits, Nat.ofDigitChars_cons, Nat.ofDigitChars_eq_ofDigitChars_zero, Nat.mul_zero,
    Nat.zero_add, Nat.mul_comm]
  rfl

namespace Binary64

/-- Whole numbers of 53 bits and the powers of ten that they hold are exact doubles. -/
theorem exists_ofNat {c k : ℕ} (hc : c < 2 ^ 53) (hk : k ≤ 22) :
    ∃ x, ofNat (c * 2 ^ k) = some x ∧ x.negative = false ∧ x.units = c * 2 ^ (1074 + k) := by
  have hrange : ((c * 2 ^ k : ℕ) : ℚ) / (1 : ℕ) < 2 ^ 1024 - 2 ^ 970 := by
    have hlt : c * 2 ^ k < 2 ^ 53 * 2 ^ 22 :=
      Nat.mul_lt_mul_of_lt_of_le hc (Nat.pow_le_pow_right two_pos hk) (by positivity)
    rw [Nat.cast_one, div_one]
    calc ((c * 2 ^ k : ℕ) : ℚ) < 2 ^ 53 * 2 ^ 22 := by exact_mod_cast hlt
      _ = 2 ^ 75 := by rw [← pow_add]
      _ ≤ 2 ^ 1023 := pow_le_pow_right₀ one_le_two (by decide)
      _ ≤ 2 ^ 1024 - 2 ^ 970 := pow_le_pow_succ_sub (by decide)
  obtain ⟨x, hx⟩ := exists_ofRatio false (c * 2 ^ k) Nat.one_pos hrange
  have hexact : ((c * 2 ^ k : ℕ) : ℚ) / (1 : ℕ) * 2 ^ 1074 = c * 2 ^ (1074 + k) := by
    rw [Nat.cast_one, div_one, pow_add, Nat.cast_mul, Nat.cast_pow, Nat.cast_ofNat, mul_assoc,
      mul_comm (2 ^ k)]
  obtain ⟨_, _, -, -, hmant⟩ := exists_hasMantissa Nat.one_pos hx
  exact ⟨x, hx, hmant.negative_eq, units_of_exact Nat.one_pos hx hc hexact⟩

theorem exists_ofNat_tenTo {k : ℕ} (hk : k ≤ 22) :
    ∃ x, ofNat (tenTo k) = some x ∧ x.negative = false ∧ x.units = tenTo k * 2 ^ 1074 := by
  have hfive : 5 ^ k < 2 ^ 53 :=
    (Nat.pow_le_pow_right (by decide) hk).trans_lt (show 5 ^ 22 < 2 ^ 53 by decide)
  have hten : tenTo k = 5 ^ k * 2 ^ k := by
    rw [tenTo_eq, ← mul_pow]
    rfl
  obtain ⟨x, hx, hneg, hu⟩ := exists_ofNat hfive hk
  refine ⟨x, hten ▸ hx, hneg, ?_⟩
  rw [hu, hten, Nat.add_comm, pow_add, Nat.mul_assoc]

end Binary64

namespace NumberLiteral

def decimal (l : NumberLiteral) : Decimal where
  negative := l.negative
  coefficient := natOfDigits (l.whole ++ l.fraction)
  scale := l.exponent.getD 0 - l.fraction.length

def value (l : NumberLiteral) : ℚ := l.decimal.value

/-- A whole number, with or without a sign, of 64 bits. -/
structure IsWhole (l : NumberLiteral) : Prop where
  fraction : l.fraction = []
  exponent : l.exponent = none
  bounded : natOfDigits l.whole ≤ if l.negative then 2 ^ 63 else 2 ^ 64 - 1

/-- At most fifteen digits, with the last one at most 22 places before or behind the units. -/
structure IsShort (l : NumberLiteral) : Prop where
  digits : l.decimal.coefficient < 10 ^ 15
  low : -22 ≤ l.decimal.scale
  high : l.decimal.scale ≤ 22

theorem gather_eq (significand : ℕ) (cs : List Char)
    (h : significand * 10 ^ cs.length + natOfDigits cs < 2 ^ 64) :
    gather significand cs = (significand * 10 ^ cs.length + natOfDigits cs, []) := by
  induction cs generalizing significand with
  | nil =>
    have hnil : natOfDigits [] = 0 := rfl
    simp [gather, hnil]
  | cons c cs ih =>
    have hsplit : significand * 10 ^ (c :: cs).length + natOfDigits (c :: cs) =
        (significand * 10 + (c.toNat - '0'.toNat)) * 10 ^ cs.length + natOfDigits cs := by
      rw [natOfDigits_cons, List.length_cons, pow_succ]
      ring
    rw [hsplit] at h ⊢
    have hfits : significand * 10 + (c.toNat - '0'.toNat) < twoTo 64 := by
      have hpos : 0 < 10 ^ cs.length := by positivity
      have hle := Nat.le_mul_of_pos_right (significand * 10 + (c.toNat - '0'.toNat)) hpos
      rw [twoTo_eq]
      omega
    simp only [gather]
    rw [if_pos hfits, ih _ h]

/-- A short significand is scaled by a power of ten with one rounding. -/
theorem scale_eq {c : ℕ} {e : ℤ} (hc : c < 10 ^ 15) (hlow : -22 ≤ e) (hhigh : e ≤ 22) :
    scale c e = Decimal.toBinary64? ⟨false, c, e⟩ := by
  obtain ⟨x, hx, hneg, hu⟩ := Binary64.exists_ofNat (c := c) (k := 0) (by omega) (by decide)
  rw [pow_zero, Nat.mul_one] at hx
  rw [Nat.add_zero] at hu
  rw [Decimal.toBinary64?_eq_ofRatio, scale, hx, Option.bind_some]
  by_cases he : 0 ≤ e
  -- Both factors are exact, so the product is the one rounding of their ratio.
  · obtain ⟨y, hy, hyneg, hyu⟩ := Binary64.exists_ofNat_tenTo (k := e.toNat) (by omega)
    have hnum : x.units * y.units = c * tenTo e.toNat * twoTo 2148 := by
      have hsq : twoTo 2148 = 2 ^ 1074 * 2 ^ 1074 := by
        rw [show 2148 = 1074 + 1074 from rfl, twoTo_eq, pow_add]
      rw [hu, hyu, hsq, Nat.mul_mul_mul_comm]
    have hden : Decimal.denominator ⟨false, c, e⟩ = 1 := by
      have hz : (-e).toNat = 0 := by omega
      rw [Decimal.denominator, hz]
      rfl
    rw [if_pos he, if_pos (by omega), hy, Option.bind_some, Binary64.mul, hneg, hyneg, hnum, hden]
    have h := Binary64.ofRatio_mul_right false (c * tenTo e.toNat) 1 (twoTo_pos 2148)
    rw [Nat.one_mul] at h
    exact h
  · obtain ⟨y, hy, hyneg, hyu⟩ := Binary64.exists_ofNat_tenTo (k := (-e).toNat) (by omega)
    have hnum : Decimal.numerator ⟨false, c, e⟩ = c := by
      have hz : e.toNat = 0 := by omega
      rw [Decimal.numerator, hz]
      exact Nat.mul_one c
    rw [if_neg he, divideByPower, if_pos (by omega), hy, Option.bind_some, Binary64.div, hneg, hyneg,
      hu, hyu, hnum]
    exact Binary64.ofRatio_mul_right false c _ (pow_pos two_pos 1074)

/-- A short literal is read as the double nearest to what it denotes. -/
theorem toBinary64?_of_short {l : NumberLiteral} (h : l.IsShort) :
    l.toBinary64? = l.decimal.toBinary64? := by
  have hcoeff : natOfDigits l.whole * 10 ^ l.fraction.length + natOfDigits l.fraction =
      l.decimal.coefficient := (natOfDigits_append _ _).symm
  have hpos : 0 < 10 ^ l.fraction.length := by positivity
  have hwhole := Nat.le_mul_of_pos_right (natOfDigits l.whole) hpos
  have hd := h.digits
  have hg : gather 0 l.whole = (natOfDigits l.whole, []) := by
    have hz : 0 * 10 ^ l.whole.length + natOfDigits l.whole = natOfDigits l.whole := by
      rw [Nat.zero_mul, Nat.zero_add]
    have hfits := gather_eq 0 l.whole (by omega)
    rwa [hz] at hfits
  have hf := gather_eq (natOfDigits l.whole) l.fraction (by omega)
  have hscale : (0 : ℤ) - (l.fraction.length - 0 : ℕ) + l.exponent.getD 0 = l.decimal.scale := by
    rw [decimal]
    simp only
    omega
  rw [toBinary64?]
  simp only [hg, hf, List.length_nil, Nat.cast_zero, hscale, hcoeff]
  rw [scale_eq h.digits h.low h.high, Decimal.toBinary64?_eq_ofRatio, Decimal.toBinary64?_eq_ofRatio]
  exact Binary64.map_ofRatio ..

theorem written_of_decimal_eq_zero {l : NumberLiteral} (h : l.decimal.coefficient = 0) {x : Binary64}
    (hx : l.decimal.toBinary64? = some x) : x.shortestDecimal.value = l.value := by
  have hzero : x = .zero l.negative := by
    rw [Decimal.toBinary64?] at hx
    simp only [if_pos h] at hx
    exact (Option.some.inj hx).symm
  have hshort : x.shortestDecimal = ⟨l.negative, 0, 0⟩ := by
    rw [hzero]
    exact if_pos rfl
  rw [hshort, value, Decimal.value, Decimal.value, h]
  simp

theorem shortestDecimal_of_short {l : NumberLiteral} (h : l.IsShort) {x : Binary64}
    (hx : l.toBinary64? = some x) : x.shortestDecimal.value = l.value := by
  rw [toBinary64?_of_short h] at hx
  by_cases hc : l.decimal.coefficient = 0
  · exact written_of_decimal_eq_zero hc hx
  -- A short literal lies far above the least doubles, so its double has all of its 53 bits.
  · have hten : (1 : ℚ) ≤ 10 := by norm_num
    have hlow : (10 : ℚ) ^ (-22 : ℤ) ≤ l.decimal.coefficient * 10 ^ l.decimal.scale := by
      have hone : (1 : ℚ) ≤ l.decimal.coefficient := by
        exact_mod_cast Nat.one_le_iff_ne_zero.mpr hc
      calc (10 : ℚ) ^ (-22 : ℤ) ≤ 10 ^ l.decimal.scale := zpow_le_zpow_right₀ hten h.low
        _ = 1 * 10 ^ l.decimal.scale := (one_mul _).symm
        _ ≤ l.decimal.coefficient * 10 ^ l.decimal.scale :=
          mul_le_mul_of_nonneg_right hone (by positivity)
    have hunits : (2 : ℚ) ^ 53 ≤ 10 ^ (-22 : ℤ) * 2 ^ 1074 := by
      have hpow : (2 : ℚ) ^ 53 * 10 ^ 22 ≤ 2 ^ 1074 :=
        calc (2 : ℚ) ^ 53 * 10 ^ 22 ≤ 2 ^ 128 := by norm_num
          _ ≤ 2 ^ 1074 := pow_le_pow_right₀ one_le_two (by decide)
      rw [zpow_neg, inv_mul_eq_div, le_div_iff₀ (by positivity)]
      exact hpow
    have hx' := hx
    rw [Decimal.toBinary64?_eq_ofRatio] at hx'
    have hbig := Binary64.le_units l.decimal.denominator_pos hx' (by
      rw [Decimal.numerator_div_denominator]
      exact hunits.trans (mul_le_mul_of_nonneg_right hlow (pow_pos two_pos 1074).le))
    exact Binary64.value_shortestDecimal hbig h.digits hx

theorem value_of_plain {l : NumberLiteral} (hf : l.fraction = []) (he : l.exponent = none) :
    l.value = (if l.negative then -1 else 1) * (natOfDigits l.whole : ℚ) := by
  rw [value, Decimal.value, decimal, hf, he]
  simp

/-- A literal stands for a whole number that it denotes, or for the double that it is read as. The only whole
number of 64 bits among the latter is a zero with a sign. -/
theorem toNumber?_cases {l : NumberLiteral} {n : Number} (h : l.toNumber? = some n) :
    (l.IsWhole ∧ n.written = l.value) ∨
      ∃ x, l.toBinary64? = some x ∧ n = .double x ∧ (l.IsWhole → l.IsShort) := by
  unfold toNumber? at h
  simp only at h
  split at h
  · next hp =>
    obtain ⟨x, hx, rfl⟩ := Option.map_eq_some_iff.mp h
    refine Or.inr ⟨x, hx, rfl, fun hw => ?_⟩
    rcases hp with hp | hp
    · exact absurd hw.fraction hp
    · simp [hw.exponent] at hp
  · next hp =>
    obtain ⟨hf, he⟩ := not_or.mp hp
    have hf : l.fraction = [] := not_not.mp hf
    have he : l.exponent = none := by simpa using he
    have hv := value_of_plain hf he
    split at h
    · next hneg =>
      rw [if_pos hneg] at hv
      split at h
      · next hn =>
        obtain rfl := Option.some.inj h
        refine Or.inl ⟨⟨hf, he, by rw [if_pos hneg]; exact hn.1⟩, ?_⟩
        have hcast : ((natOfDigits l.whole - 1 : ℕ) : ℚ) + 1 = natOfDigits l.whole := by
          exact_mod_cast Nat.sub_add_cancel hn.2
        rw [Number.written, hv, hcast, neg_one_mul]
      · next hn =>
        obtain ⟨x, hx, rfl⟩ := Option.map_eq_some_iff.mp h
        refine Or.inr ⟨x, hx, rfl, fun hw => ?_⟩
        have hb := hw.bounded
        rw [if_pos hneg] at hb
        have hzero : natOfDigits l.whole = 0 := by omega
        constructor <;> simp [decimal, hf, he, hzero]
    · next hneg =>
      rw [if_neg hneg] at hv
      split at h
      · next hn =>
        obtain rfl := Option.some.inj h
        refine Or.inl ⟨⟨hf, he, by rw [if_neg hneg]; omega⟩, ?_⟩
        rw [Number.written, hv, one_mul]
      · next hn =>
        obtain ⟨x, hx, rfl⟩ := Option.map_eq_some_iff.mp h
        refine Or.inr ⟨x, hx, rfl, fun hw => ?_⟩
        have hb := hw.bounded
        rw [if_neg hneg] at hb
        omega

theorem written_of_short {l : NumberLiteral} {n : Number} (hn : l.toNumber? = some n)
    (h : l.IsShort) : n.written = l.value := by
  rcases toNumber?_cases hn with ⟨-, hv⟩ | ⟨x, hx, rfl, -⟩
  · exact hv
  · exact shortestDecimal_of_short h hx

theorem written_of_whole {l : NumberLiteral} {n : Number} (hn : l.toNumber? = some n)
    (h : l.IsWhole) : n.written = l.value := by
  rcases toNumber?_cases hn with ⟨-, hv⟩ | ⟨x, hx, rfl, hw⟩
  · exact hv
  · exact shortestDecimal_of_short (hw h) hx

/-- What a literal is turned into: what it denotes when it is whole or short, and else the shortest decimal that
is read as the same double. -/
structure WrittenAs (l : NumberLiteral) (v : ℚ) : Prop where
  whole : l.IsWhole → v = l.value
  short : l.IsShort → v = l.value
  rounded : ¬ l.IsWhole → ∃ x, l.toBinary64? = some x ∧ x.shortestDecimal.toBinary64? = some x ∧
    v = x.shortestDecimal.value

theorem writtenAs_of_toNumber? {l : NumberLiteral} {n : Number} (hn : l.toNumber? = some n) :
    l.WrittenAs n.written := by
  refine ⟨written_of_whole hn, written_of_short hn, fun hw => ?_⟩
  rcases toNumber?_cases hn with ⟨hwhole, -⟩ | ⟨x, hx, rfl, -⟩
  · exact absurd hwhole hw
  · exact ⟨x, hx, x.toBinary64?_shortestDecimal, rfl⟩

end NumberLiteral

end TableLoader
