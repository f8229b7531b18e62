import TableLoader.Json.Value
import TableLoader.Proofs.Number.Numerals
import TableLoader.Proofs.Number.Shortest
import TableLoader.Proofs.Text.Lines

/-! # Written numbers

Every numeral is read as the decimal that it denotes. Digits that are filled up with zeros, in front, behind or on
both sides of a point, keep their value up to a power of ten. -/
namespace TableLoader

theorem takeDigits_append {ds rest : List Char} (hd : ∀ c ∈ ds, c.isDigit = true)
    (hr : ∀ c ∈ rest.head?, c.isDigit = false) : takeDigits (ds ++ rest) = (ds, rest) := by
  obtain ⟨ht, hdrop⟩ := Text.takeWhile_append_stop hd hr
  rw [takeDigits, ht, hdrop]

namespace NumeralSign

def negative : NumeralSign → Bool
  | minus => true
  | _ => false

theorem factor_eq (s : NumeralSign) : s.factor = if s.negative then -1 else 1 := by
  cases s <;> rfl

theorem takeSign_append (s : NumeralSign) {rest : List Char}
    (h : ∀ c ∈ rest.head?, c ≠ '-' ∧ c ≠ '+') : takeSign (s.text ++ rest) = (s.negative, rest) := by
  cases s with
  | absent =>
    cases rest with
    | nil => rfl
    | cons c rest =>
      obtain ⟨hm, hp⟩ := h c rfl
      simp [text, takeSign, hm, hp, negative]
  | plus => rfl
  | minus => rfl

end NumeralSign

theorem ne_sign_of_isDigit {c : Char} (h : c.isDigit = true) : c ≠ '-' ∧ c ≠ '+' := by
  constructor
  · rintro rfl
    exact absurd h (by decide)
  · rintro rfl
    exact absurd h (by decide)

theorem Exponent.exponentOfText?_text (e : Exponent) : exponentOfText? e.text = some e.value := by
  have hhead : ∀ c ∈ e.digits.val.head?, c ≠ '-' ∧ c ≠ '+' := fun c hc =>
    ne_sign_of_isDigit (e.digits.property c (List.mem_of_mem_head? hc))
  have htake : takeDigits (e.digits.val ++ []) = (e.digits.val, []) :=
    takeDigits_append e.digits.property (by simp)
  rw [List.append_nil] at htake
  rw [text, exponentOfText?]
  simp only [e.mark_eq, ↓reduceIte, e.sign.takeSign_append hhead, htake, ne_eq, e.digits_ne,
    not_false_eq_true, and_self]
  rw [value, e.sign.factor_eq]
  split <;> simp

namespace Numeral

variable (n : Numeral)

def decimal : Decimal where
  negative := n.sign.negative
  coefficient := natOfDigits (n.whole.val ++ n.fractionDigits)
  scale := n.exponent.elim 0 Exponent.value - n.fractionDigits.length

theorem value_decimal : n.decimal.value = n.value :=
  (value_eq_of_parts n n.sign.factor_eq rfl).symm

theorem exponentOfText?_exponent :
    exponentOfText? (n.exponent.elim [] Exponent.text) = some (n.exponent.elim 0 Exponent.value) := by
  cases n.exponent with
  | none => rfl
  | some e => exact e.exponentOfText?_text

theorem head?_exponent : ∀ c ∈ (n.exponent.elim [] Exponent.text).head?,
    c.isDigit = false ∧ c ≠ '.' := by
  cases n.exponent with
  | none => simp
  | some e =>
    rintro _ ⟨⟩
    rcases e.mark_eq with h | h <;> rw [h] <;> decide

theorem head?_unsigned : ∀ c ∈ (n.whole.val ++ (n.fractionText ++
    n.exponent.elim [] Exponent.text)).head?, c ≠ '-' ∧ c ≠ '+' := by
  by_cases hw : n.whole.val = []
  · obtain ⟨f, hf, -⟩ := n.some_digit.resolve_left (not_not.mpr hw)
    have hf : n.fraction = some f := hf
    rw [hw, fractionText, hf]
    rintro _ ⟨⟩
    decide
  · rw [List.head?_append_of_ne_nil _ hw]
    exact fun c hc => ne_sign_of_isDigit (n.whole.property c (List.mem_of_mem_head? hc))

theorem ofText?_text : Decimal.ofText? n.text = some n.decimal := by
  have hexp := n.exponentOfText?_exponent
  have hhead := n.head?_exponent
  rw [Decimal.ofText?, text, n.sign.takeSign_append n.head?_unsigned]
  cases hf : n.fraction with
  | none =>
    have hw : n.whole.val ≠ [] := n.some_digit.resolve_right (by simp [hf])
    have htake := takeDigits_append n.whole.property fun c hc => (hhead c hc).1
    have hpoint : ∀ tail, n.exponent.elim [] Exponent.text = '.' :: tail → False := fun tail he =>
      (hhead '.' (by rw [he]; rfl)).2 rfl
    simp only [fractionText, hf, Option.elim_none, List.nil_append, htake]
    rw [if_neg fun h => hw h.1, hexp, Option.map_some, decimal, fractionDigits, hf]
    rfl
  | some f =>
    have hw : takeDigits (n.whole.val ++ '.' :: (f.val ++ n.exponent.elim [] Exponent.text)) =
        (n.whole.val, '.' :: (f.val ++ n.exponent.elim [] Exponent.text)) :=
      takeDigits_append n.whole.property (by rintro _ ⟨⟩; decide)
    have htake := takeDigits_append f.property fun c hc => (hhead c hc).1
    have hne : ¬ (n.whole.val = [] ∧ f.val = []) := by
      rintro ⟨hw, hf'⟩
      rcases n.some_digit with h | ⟨g, hg, h⟩
      · exact h hw
      · have hg : n.fraction = some g := hg
        obtain rfl := Option.some.inj (hf.symm.trans hg)
        exact h hf'
    simp only [fractionText, hf, Option.elim_some, List.cons_append, hw, htake, if_neg hne, hexp,
      Option.map_some]
    rw [decimal, fractionDigits, hf]
    rfl

end Numeral

theorem isDigit_zero : ∀ c ∈ ['0'], c.isDigit = true :=
  List.forall_mem_singleton.mpr (by decide)

theorem isDigit_replicate_zero (k : ℕ) : ∀ c ∈ List.replicate k '0', c.isDigit = true := by
  intro c hc
  rw [List.eq_of_mem_replicate hc]
  decide

theorem natOfDigits_replicate_append (k : ℕ) (ds : List Char) :
    natOfDigits (List.replicate k '0' ++ ds) = natOfDigits ds := by
  have hz : natOfDigits (List.replicate k '0') = 0 := Nat.ofDigitChars_replicate_zero
  rw [natOfDigits_append, hz, Nat.zero_mul, Nat.zero_add]

theorem natOfDigits_append_replicate (ds : List Char) (k : ℕ) :
    natOfDigits (ds ++ List.replicate k '0') = natOfDigits ds * 10 ^ k := by
  have hz : natOfDigits (List.replicate k '0') = 0 := Nat.ofDigitChars_replicate_zero
  rw [natOfDigits_append, hz, List.length_replicate, Nat.add_zero]

def placeExponent (place : ℤ) : Exponent where
  mark := 'e'
  sign := if place < 0 then .minus else .plus
  digits := ⟨natText place.natAbs, natText_digits _⟩
  mark_eq := Or.inl rfl
  digits_ne := natText_ne_nil _

theorem text_placeExponent (place : ℤ) : (placeExponent place).text =
    'e' :: (if place < 0 then '-' else '+') :: natText place.natAbs := by
  unfold placeExponent Exponent.text
  split <;> rfl

theorem value_placeExponent (place : ℤ) : (placeExponent place).value = place := by
  rw [Exponent.value, placeExponent]
  simp only [natOfDigits_natText]
  split
  · simp only [NumeralSign.factor]
    omega
  · simp only [NumeralSign.factor]
    omega

section Padding

variable {digits : List Char} {whole k : ℕ}

theorem take_padded (h : whole = digits.length + k) :
    (digits ++ List.replicate (whole - digits.length) '0').take whole =
      digits ++ List.replicate k '0' := by
  rw [h, Nat.add_sub_cancel_left]
  exact List.take_of_length_le (by simp)

theorem natOfDigits_padded (digits : List Char) (k : ℕ) :
    natOfDigits (digits ++ List.replicate k '0' ++ ['0']) = natOfDigits digits * 10 ^ (k + 1) := by
  rw [List.append_assoc, ← List.replicate_succ', natOfDigits_append_replicate]

theorem natOfDigits_zeros (digits : List Char) (k : ℕ) :
    natOfDigits (['0'] ++ (List.replicate k '0' ++ digits)) = natOfDigits digits := by
  rw [List.singleton_append, ← List.cons_append, ← List.replicate_succ, natOfDigits_replicate_append]

end Padding

namespace Number

/-- What the text of a number denotes. -/
def written : Number → ℚ
  | natural n => n.val
  | negative n => -(n.val + 1)
  | double x => x.shortestDecimal.value

end Number

end TableLoader
