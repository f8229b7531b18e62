import TableLoader.Number.Numeral
import TableLoader.Proofs.Number.Reading

/-! # Numerals and their values

A numeral written part by part, and the rational number that it denotes. Every text that is read as a decimal is
such a numeral, and its double is the rounding of what it denotes. -/
namespace TableLoader

inductive NumeralSign where
  | absent
  | plus
  | minus

namespace NumeralSign

def text : NumeralSign → List Char
  | absent => []
  | plus => ['+']
  | minus => ['-']

def factor : NumeralSign → ℤ
  | minus => -1
  | _ => 1

end NumeralSign

abbrev DigitString := { cs : List Char // ∀ c ∈ cs, c.isDigit = true }

/-- What may end a numeral: a mark, an optional sign and digits. -/
structure Exponent where
  mark : Char
  sign : NumeralSign
  digits : DigitString
  mark_eq : mark = 'e' ∨ mark = 'E'
  digits_ne : digits.val ≠ []

namespace Exponent

def text (e : Exponent) : List Char := e.mark :: (e.sign.text ++ e.digits.val)

def value (e : Exponent) : ℤ := e.sign.factor * natOfDigits e.digits.val

end Exponent

/-- An optional sign, digits with an optional point and at least one digit, and an optional exponent. -/
structure Numeral where
  sign : NumeralSign
  whole : DigitString
  /-- The digits behind the point, if there is one. -/
  fraction : Option DigitString
  exponent : Option Exponent
  some_digit : whole.val ≠ [] ∨ ∃ f ∈ fraction, f.val ≠ []

namespace Numeral

def fractionText (n : Numeral) : List Char := n.fraction.elim [] fun f => '.' :: f.val

def fractionDigits (n : Numeral) : List Char := n.fraction.elim [] Subtype.val

def text (n : Numeral) : List Char :=
  n.sign.text ++ (n.whole.val ++ (n.fractionText ++ n.exponent.elim [] Exponent.text))

def value (n : Numeral) : ℚ :=
  n.sign.factor *
    (natOfDigits n.whole.val + natOfDigits n.fractionDigits / 10 ^ n.fractionDigits.length) *
      10 ^ n.exponent.elim 0 Exponent.value

end Numeral

theorem natOfDigits_append (a b : List Char) :
    natOfDigits (a ++ b) = natOfDigits a * 10 ^ b.length + natOfDigits b := by
  rw [natOfDigits, Nat.ofDigitChars_append, Nat.ofDigitChars_eq_ofDigitChars_zero, Nat.mul_comm]
  rfl

theorem natText_digits (n : ℕ) : ∀ c ∈ natText n, c.isDigit = true :=
  fun _ hc => Nat.isDigit_of_mem_toDigits (by decide) (by decide) hc

theorem natText_ne_nil (n : ℕ) : natText n ≠ [] := Nat.toDigits_ne_nil

theorem natOfDigits_natText (n : ℕ) : natOfDigits (natText n) = n := Nat.ofDigitChars_ten_toDigits

theorem exists_sign (cs : List Char) : ∃ s : NumeralSign,
    cs = s.text ++ (takeSign cs).2 ∧ s.factor = if (takeSign cs).1 then -1 else 1 := by
  unfold takeSign
  split
  · exact ⟨.minus, rfl, rfl⟩
  · exact ⟨.plus, rfl, rfl⟩
  · exact ⟨.absent, rfl, rfl⟩

theorem exists_digits (cs : List Char) : ∃ ds : DigitString,
    (takeDigits cs).1 = ds.val ∧ cs = ds.val ++ (takeDigits cs).2 :=
  ⟨⟨cs.takeWhile Char.isDigit, fun _ hc => List.mem_takeWhile_imp hc⟩, rfl,
    (List.takeWhile_append_dropWhile ..).symm⟩

theorem exists_exponent {cs : List Char} {e : ℤ} (h : exponentOfText? cs = some e) :
    ∃ o : Option Exponent, o.elim [] Exponent.text = cs ∧ o.elim 0 Exponent.value = e := by
  cases cs with
  | nil => exact ⟨none, rfl, Option.some.inj h⟩
  | cons mark cs =>
    simp only [exponentOfText?] at h
    obtain ⟨s, hs, hfactor⟩ := exists_sign cs
    obtain ⟨ds, hds, hrest⟩ := exists_digits (takeSign cs).2
    rw [hds] at h
    split at h
    · next hm =>
      split at h
      · next hc =>
        obtain ⟨hne, hend⟩ := hc
        rw [hend, List.append_nil] at hrest
        rw [hrest] at hs
        refine ⟨some ⟨mark, s, ds, hm, hne⟩, congrArg (mark :: ·) hs.symm, ?_⟩
        rw [← Option.some.inj h]
        show s.factor * (natOfDigits ds.val : ℤ) = _
        rw [hfactor]
        split <;> simp
      · simp at h
    · simp at h

theorem value_eq_of_parts (n : Numeral) {negative : Bool} {e : ℤ}
    (hs : n.sign.factor = if negative then -1 else 1)
    (he : n.exponent.elim 0 Exponent.value = e) :
    n.value = Decimal.value ⟨negative, natOfDigits (n.whole.val ++ n.fractionDigits),
      e - n.fractionDigits.length⟩ := by
  have hten : (10 : ℚ) ≠ 0 := by norm_num
  have hpow : (10 : ℚ) ^ n.fractionDigits.length ≠ 0 := pow_ne_zero _ hten
  have hsign : (n.sign.factor : ℚ) = if negative then -1 else 1 := by
    rw [hs]
    split <;> simp
  rw [Numeral.value, Decimal.value, hsign, he, natOfDigits_append, zpow_sub₀ hten, zpow_natCast]
  push_cast
  field_simp

/-- A text that is read as a decimal is a numeral that denotes this decimal. -/
theorem exists_numeral {cs : List Char} {d : Decimal} (h : Decimal.ofText? cs = some d) :
    ∃ n : Numeral, n.text = cs ∧ n.value = d.value := by
  obtain ⟨s, hs, hfactor⟩ := exists_sign cs
  obtain ⟨whole, hwhole, hrest⟩ := exists_digits (takeSign cs).2
  simp only [Decimal.ofText?, hwhole] at h
  split at h
  · next rest tail htail =>
    obtain ⟨fraction, hfraction, htail'⟩ := exists_digits tail
    rw [hfraction] at h
    split at h
    · simp at h
    · next hne =>
      obtain ⟨e, he, rfl⟩ := Option.map_eq_some_iff.mp h
      obtain ⟨exponent, htext, hvalue⟩ := exists_exponent he
      have hdigit : whole.val ≠ [] ∨ ∃ f ∈ some fraction, f.val ≠ [] := by
        by_cases hw : whole.val = []
        · exact Or.inr ⟨fraction, rfl, fun hf => hne ⟨hw, hf⟩⟩
        · exact Or.inl hw
      refine ⟨⟨s, whole, some fraction, exponent, hdigit⟩, ?_,
        value_eq_of_parts _ hfactor hvalue⟩
      rw [htail, htail', ← htext] at hrest
      rw [hs, hrest]
      rfl
  · next hpoint =>
    split at h
    · simp at h
    · next hne =>
      obtain ⟨e, he, rfl⟩ := Option.map_eq_some_iff.mp h
      obtain ⟨exponent, htext, hvalue⟩ := exists_exponent he
      have hdigit : whole.val ≠ [] := fun hw => hne ⟨hw, rfl⟩
      refine ⟨⟨s, whole, none, exponent, Or.inl hdigit⟩, ?_, value_eq_of_parts _ hfactor hvalue⟩
      rw [← htext] at hrest
      rw [hs, hrest]
      rfl

/-- A text with a double is a numeral whose value rounds to it. -/
theorem Binary64.exists_isRounding {cs : List Char} {x : Binary64} (h : ofText? cs = some x) :
    ∃ n : Numeral, n.text = cs ∧ IsRounding n.value x := by
  obtain ⟨d, hd, hx⟩ := Option.bind_eq_some_iff.mp h
  obtain ⟨n, htext, hvalue⟩ := exists_numeral hd
  refine ⟨n, htext, ?_⟩
  rw [hvalue]
  exact Decimal.isRounding_of_toBinary64? hx

end TableLoader
