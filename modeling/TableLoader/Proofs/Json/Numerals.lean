import TableLoader.Proofs.Json.Literals

/-! # The texts of numbers as literals of JSON

The text of a number is a number literal, whatever follows it that no literal goes on with, and a numeral of what it
spells. A whole number is read back from it, and a double as the double that its literal is read as. -/
namespace TableLoader

theorem head?_natText {n : ℕ} (h : n ≠ 0) : (natText n).head? ≠ some '0' := by
  induction n using Nat.strongRecOn with
  | ind n ih =>
    by_cases hn : n < 10
    · rw [natText, Nat.toDigits_of_lt_base hn]
      have hd : ∀ d < 10, d ≠ 0 → [Nat.digitChar d].head? ≠ some '0' := by decide
      exact hd n hn h
    · have hdiv : n / 10 ≠ 0 := by omega
      rw [natText, Nat.toDigits_of_base_le (by decide) (not_lt.mp hn),
        List.head?_append_of_ne_nil _ Nat.toDigits_ne_nil]
      exact ih (n / 10) (by omega) hdiv

namespace NumberLiteral

def exponentText : Option ℤ → List Char
  | none => []
  | some e => 'e' :: (if e < 0 then '-' else '+') :: natText e.natAbs

def fractionText (fraction : List Char) : List Char :=
  if fraction = [] then [] else '.' :: fraction

def text (l : NumberLiteral) : List Char :=
  (if l.negative then ['-'] else []) ++
    (l.whole ++ (fractionText l.fraction ++ exponentText l.exponent))

/-- A literal of digits, the first of which is zero only where it stands alone before the point. -/
structure Canonical (l : NumberLiteral) : Prop where
  whole : ∀ c ∈ l.whole, c.isDigit = true
  fraction : ∀ c ∈ l.fraction, c.isDigit = true
  leading : l.whole = ['0'] ∨ l.whole ≠ [] ∧ l.whole.head? ≠ some '0'

/-- What may follow a literal without being part of it. -/
def Ends (rest : List Char) : Prop :=
  ∀ c ∈ rest.head?, c.isDigit = false ∧ c ≠ '.' ∧ c ≠ 'e' ∧ c ≠ 'E'

theorem Ends.head {rest : List Char} (h : Ends rest) : ∀ c ∈ rest.head?, c.isDigit = false :=
  fun c hc => (h c hc).1

theorem readWhole_append {whole rest : List Char} (hw : ∀ c ∈ whole, c.isDigit = true)
    (hl : whole = ['0'] ∨ whole ≠ [] ∧ whole.head? ≠ some '0')
    (hr : ∀ c ∈ rest.head?, c.isDigit = false) : readWhole (whole ++ rest) = some (whole, rest) := by
  rcases hl with rfl | ⟨hne, hzero⟩
  · cases rest with
    | nil => rfl
    | cons c rest => simp [readWhole, hr c rfl]
  · obtain ⟨c, cs, rfl⟩ := List.exists_cons_of_ne_nil hne
    have hc : c ≠ '0' := fun h => hzero (by rw [h]; rfl)
    rw [readWhole]
    · rw [takeDigits_append hw hr]
      simp
    · intro tail h
      exact hc (List.cons.inj h).1

theorem readExponent_append (e : Option ℤ) {rest : List Char} (hr : Ends rest) :
    readExponent (exponentText e ++ rest) = some (e, rest) := by
  cases e with
  | none =>
    cases rest with
    | nil => rfl
    | cons c rest =>
      obtain ⟨-, -, he, hE⟩ := hr c rfl
      simp [exponentText, readExponent, he, hE]
  | some e =>
    have htake := takeDigits_append (natText_digits e.natAbs) hr.head
    have hsign : takeSign ((if e < 0 then '-' else '+') :: (natText e.natAbs ++ rest)) =
        (decide (e < 0), natText e.natAbs ++ rest) := by
      by_cases he : e < 0 <;> simp [takeSign, he]
    simp only [exponentText, List.cons_append, readExponent, true_or, if_true, hsign, htake,
      if_neg (natText_ne_nil e.natAbs), natOfDigits_natText, decide_eq_true_eq]
    split
    · next he => rw [show -(e.natAbs : ℤ) = e by omega]
    · next he => rw [show (e.natAbs : ℤ) = e by omega]

theorem head?_exponentText (e : Option ℤ) {rest : List Char} (hr : Ends rest) :
    ∀ c ∈ (exponentText e ++ rest).head?, c.isDigit = false ∧ c ≠ '.' := by
  cases e with
  | none => exact fun c hc => ⟨(hr c hc).1, (hr c hc).2.1⟩
  | some e =>
    rintro _ ⟨⟩
    decide

theorem readFraction_append {fraction rest : List Char} (hf : ∀ c ∈ fraction, c.isDigit = true)
    (hr : ∀ c ∈ rest.head?, c.isDigit = false ∧ c ≠ '.') :
    readFraction (fractionText fraction ++ rest) = some (fraction, rest) := by
  by_cases hne : fraction = []
  · subst hne
    rw [fractionText, if_pos rfl, List.nil_append, readFraction]
    rintro tail rfl
    exact (hr '.' rfl).2 rfl
  · rw [fractionText, if_neg hne, List.cons_append, readFraction,
      takeDigits_append hf fun c hc => (hr c hc).1]
    simp [hne]

def readUnsigned (negative : Bool) (cs : List Char) : Option (NumberLiteral × List Char) := do
  let (whole, cs) ← readWhole cs
  let (fraction, cs) ← readFraction cs
  let (exponent, cs) ← readExponent cs
  pure (⟨negative, whole, fraction, exponent⟩, cs)

theorem read_sign (negative : Bool) {cs : List Char} (h : cs.head? ≠ some '-') :
    read ((if negative then ['-'] else []) ++ cs) = readUnsigned negative cs := by
  cases negative with
  | true => rfl
  | false =>
    cases cs with
    | nil => rfl
    | cons c cs =>
      have hc : c ≠ '-' := by simpa using h
      simp [read, readUnsigned, hc]

theorem Canonical.head? {l : NumberLiteral} (h : l.Canonical) :
    ∃ c, l.whole.head? = some c ∧ c.isDigit = true := by
  rcases h.leading with hz | ⟨hne, -⟩
  · exact ⟨'0', by rw [hz]; rfl, by decide⟩
  · have hc := List.head?_eq_some_head hne
    exact ⟨_, hc, h.whole _ (List.mem_of_mem_head? hc)⟩

theorem read_append {l : NumberLiteral} (h : l.Canonical) {rest : List Char} (hr : Ends rest) :
    read (l.text ++ rest) = some (l, rest) := by
  -- From the end to the front, since each part ends where the next one begins.
  have hexp := readExponent_append l.exponent hr
  have hfrac := readFraction_append h.fraction (head?_exponentText l.exponent hr)
  have hstop : ∀ c ∈ (fractionText l.fraction ++ (exponentText l.exponent ++ rest)).head?,
      c.isDigit = false := by
    by_cases hne : l.fraction = []
    · rw [fractionText, if_pos hne]
      exact fun c hc => (head?_exponentText l.exponent hr c hc).1
    · rw [fractionText, if_neg hne]
      rintro _ ⟨⟩
      decide
  have hwhole := readWhole_append h.whole h.leading hstop
  have hsign : (l.whole ++ (fractionText l.fraction ++ (exponentText l.exponent ++ rest))).head? ≠
      some '-' := by
    obtain ⟨c, hc, hd⟩ := h.head?
    rw [List.head?_append, hc]
    rintro ⟨⟩
    exact absurd hd (by decide)
  rw [text, List.append_assoc, List.append_assoc, List.append_assoc, read_sign _ hsign]
  simp only [readUnsigned, hwhole, hfrac, hexp, Option.bind_eq_bind, Option.bind_some, Option.pure_def]

theorem Canonical.whole_ne_nil {l : NumberLiteral} (h : l.Canonical) : l.whole ≠ [] := by
  rcases h.leading with hz | ⟨hne, -⟩
  · rw [hz]
    exact List.cons_ne_nil _ _
  · exact hne

def Canonical.numeral {l : NumberLiteral} (h : l.Canonical) : Numeral where
  sign := if l.negative then .minus else .absent
  whole := ⟨l.whole, h.whole⟩
  fraction := if l.fraction = [] then none else some ⟨l.fraction, h.fraction⟩
  exponent := l.exponent.map placeExponent
  some_digit := Or.inl h.whole_ne_nil

theorem Canonical.text_numeral {l : NumberLiteral} (h : l.Canonical) : h.numeral.text = l.text := by
  have hsign : h.numeral.sign.text = if l.negative then ['-'] else [] := by
    unfold numeral
    cases l.negative <;> rfl
  have hfraction : h.numeral.fractionText = fractionText l.fraction := by
    by_cases hnil : l.fraction = [] <;> simp [numeral, Numeral.fractionText, fractionText, hnil]
  have hexponent : h.numeral.exponent.elim [] Exponent.text = exponentText l.exponent := by
    unfold numeral
    cases l.exponent with
    | none => rfl
    | some e => exact text_placeExponent e
  rw [Numeral.text, hsign, hfraction, hexponent]
  rfl

theorem Canonical.decimal_numeral {l : NumberLiteral} (h : l.Canonical) :
    h.numeral.decimal = l.decimal := by
  have hsign : h.numeral.sign.negative = l.negative := by
    unfold numeral
    cases l.negative <;> rfl
  have hfraction : h.numeral.fractionDigits = l.fraction := by
    by_cases hnil : l.fraction = [] <;> simp [numeral, Numeral.fractionDigits, hnil]
  have hexponent : h.numeral.exponent.elim 0 Exponent.value = l.exponent.getD 0 := by
    unfold numeral
    cases l.exponent with
    | none => rfl
    | some e => exact value_placeExponent e
  rw [Numeral.decimal, hsign, hfraction, hexponent]
  rfl

theorem Canonical.ofText?_text {l : NumberLiteral} (h : l.Canonical) :
    Decimal.ofText? l.text = some l.decimal := by
  rw [← h.text_numeral, h.numeral.ofText?_text, h.decimal_numeral]

end NumberLiteral

/-- The literal of digits that do not begin with zero, the first of them at a place. -/
def literalOfDigits (negative : Bool) (digits : List Char) (place : ℤ) : NumberLiteral :=
  if 0 ≤ place ∧ place ≤ 15 then
    let whole := place.toNat + 1
    let fraction := digits.drop whole
    ⟨negative, (digits ++ List.replicate (whole - digits.length) '0').take whole,
      if fraction = [] then ['0'] else fraction, none⟩
  else if -5 ≤ place ∧ place < 0 then
    ⟨negative, ['0'], List.replicate ((-place).toNat - 1) '0' ++ digits, none⟩
  else ⟨negative, digits.take 1, digits.drop 1, some place⟩

section Digits

variable {digits : List Char} (hd : ∀ c ∈ digits, c.isDigit = true) (hne : digits ≠ [])
  (hz : digits.head? ≠ some '0') (negative : Bool) (place : ℤ)

include hne in
theorem text_literalOfDigits : (literalOfDigits negative digits place).text =
    (if negative then ['-'] else []) ++ numeralText digits place := by
  obtain ⟨first, more, rfl⟩ := List.exists_cons_of_ne_nil hne
  unfold literalOfDigits numeralText
  split
  · simp only
    split <;> simp_all [NumberLiteral.text, NumberLiteral.fractionText, NumberLiteral.exponentText]
  · split
    · simp [NumberLiteral.text, NumberLiteral.fractionText, NumberLiteral.exponentText]
    · cases more <;>
        simp [NumberLiteral.text, NumberLiteral.fractionText, NumberLiteral.exponentText]

include hd hne hz in
theorem canonical_literalOfDigits : (literalOfDigits negative digits place).Canonical := by
  obtain ⟨first, more, rfl⟩ := List.exists_cons_of_ne_nil hne
  have hfirst : first ≠ '0' := by simpa using hz
  unfold literalOfDigits
  split
  · constructor
    · intro c hc
      rcases List.mem_append.mp (List.mem_of_mem_take hc) with hc | hc
      · exact hd c hc
      · exact isDigit_replicate_zero _ c hc
    · simp only
      split
      · exact isDigit_zero
      · exact fun c hc => hd c (List.mem_of_mem_drop hc)
    · right
      simp [hfirst]
  · split
    · constructor
      · exact isDigit_zero
      · intro c hc
        rcases List.mem_append.mp hc with hc | hc
        · exact isDigit_replicate_zero _ c hc
        · exact hd c hc
      · exact Or.inl rfl
    · constructor
      · exact fun c hc => hd c (List.mem_of_mem_take hc)
      · exact fun c hc => hd c (List.mem_of_mem_drop hc)
      · right
        simp [hfirst]

include hne in
theorem pointed_literalOfDigits : (literalOfDigits negative digits place).fraction ≠ [] ∨
    (literalOfDigits negative digits place).exponent.isSome := by
  unfold literalOfDigits
  split
  · simp only
    split <;> simp_all
  · split
    · simp [hne]
    · simp

theorem value_literalOfDigits_whole (hp : 0 ≤ place ∧ place ≤ 15) :
    ((literalOfDigits negative digits place).decimal.coefficient : ℚ) *
        10 ^ (literalOfDigits negative digits place).decimal.scale =
      natOfDigits digits * 10 ^ (place + 1 - digits.length) := by
  rw [literalOfDigits, if_pos hp]
  simp only [NumberLiteral.decimal, Option.getD_none]
  by_cases hl : digits.length ≤ place.toNat + 1
  · obtain ⟨k, hk⟩ : ∃ k, place.toNat + 1 = digits.length + k := Nat.exists_eq_add_of_le hl
    have hdrop : digits.drop (place.toNat + 1) = [] := List.drop_eq_nil_of_le hl
    have hscale : place + 1 - digits.length = ((k + 1 : ℕ) : ℤ) + (0 - 1) := by omega
    rw [hdrop, if_pos rfl, take_padded hk, natOfDigits_padded, hscale, zpow_add₀ (by norm_num),
      zpow_natCast, List.length_singleton, Nat.cast_one, Nat.cast_mul, Nat.cast_pow, Nat.cast_ofNat,
      mul_assoc]
  · have hlt : place.toNat + 1 < digits.length := not_le.mp hl
    have hdrop : digits.drop (place.toNat + 1) ≠ [] := by
      rw [Ne, List.drop_eq_nil_iff]
      exact hl
    have htake : (digits ++ List.replicate (place.toNat + 1 - digits.length) '0').take
        (place.toNat + 1) = digits.take (place.toNat + 1) :=
      List.take_append_of_le_length hlt.le
    have hscale : (0 : ℤ) - (digits.length - (place.toNat + 1) : ℕ) = place + 1 - digits.length := by
      omega
    rw [if_neg hdrop, htake, List.take_append_drop, List.length_drop, hscale]

include hne in
/-- The literal denotes the digits at their place. -/
theorem value_literalOfDigits :
    ((literalOfDigits negative digits place).decimal.coefficient : ℚ) *
        10 ^ (literalOfDigits negative digits place).decimal.scale =
      natOfDigits digits * 10 ^ (place + 1 - digits.length) := by
  by_cases hp : 0 ≤ place ∧ place ≤ 15
  · exact value_literalOfDigits_whole negative place hp
  by_cases hp' : -5 ≤ place ∧ place < 0
  · have hscale : (0 : ℤ) - ((-place).toNat - 1 + digits.length : ℕ) = place + 1 - digits.length := by
      omega
    rw [literalOfDigits, if_neg hp, if_pos hp']
    simp only [NumberLiteral.decimal, Option.getD_none, natOfDigits_zeros, List.length_append,
      List.length_replicate, hscale]
  · have hlen : 0 < digits.length := List.length_pos_of_ne_nil hne
    have hscale : place - (digits.length - 1 : ℕ) = place + 1 - digits.length := by omega
    rw [literalOfDigits, if_neg hp, if_neg hp']
    simp only [NumberLiteral.decimal, Option.getD_some, List.take_append_drop, List.length_drop, hscale]

end Digits

def Binary64.literal (x : Binary64) : NumberLiteral :=
  let d := x.shortestDecimal
  let digits := natText d.coefficient
  if d.coefficient = 0 then ⟨x.negative, ['0'], ['0'], none⟩
  else literalOfDigits x.negative digits (d.scale + digits.length - 1)

theorem Binary64.text_literal (x : Binary64) : x.literal.text = x.text := by
  unfold literal text
  simp only
  split
  · cases x.negative <;> rfl
  · rw [text_literalOfDigits (natText_ne_nil _)]
    cases x.negative <;> rfl

theorem Binary64.canonical_literal (x : Binary64) : x.literal.Canonical := by
  unfold literal
  simp only
  split
  · exact ⟨isDigit_zero, isDigit_zero, Or.inl rfl⟩
  · next hc =>
    exact canonical_literalOfDigits (natText_digits _) (natText_ne_nil _) (head?_natText hc) _ _

theorem Binary64.toNumber?_literal (x : Binary64) :
    x.literal.toNumber? = x.literal.toBinary64?.map .double := by
  have h : x.literal.fraction ≠ [] ∨ x.literal.exponent.isSome := by
    unfold literal
    simp only
    split
    · exact Or.inl (List.cons_ne_nil _ _)
    · exact pointed_literalOfDigits (natText_ne_nil _) _ _
  rw [NumberLiteral.toNumber?]
  exact if_pos h

theorem Binary64.value_literal (x : Binary64) :
    (x.literal.decimal.coefficient : ℚ) * 10 ^ x.literal.decimal.scale =
      x.shortestDecimal.coefficient * 10 ^ x.shortestDecimal.scale := by
  unfold literal
  simp only
  split
  · next hc =>
    have hzero : natOfDigits ['0', '0'] = 0 := by decide
    simp [NumberLiteral.decimal, hc, hzero]
  · have hscale : x.shortestDecimal.scale + (natText x.shortestDecimal.coefficient).length - 1 + 1 -
        (natText x.shortestDecimal.coefficient).length = x.shortestDecimal.scale := by omega
    rw [value_literalOfDigits (natText_ne_nil _), natOfDigits_natText, hscale]

theorem Binary64.negative_literal (x : Binary64) : x.literal.negative = x.negative := by
  unfold literal literalOfDigits
  simp only
  split
  · rfl
  · split
    · rfl
    · split <;> rfl

/-- Read exactly, the literal of a double gives the double. -/
theorem Binary64.toBinary64?_decimal_literal (x : Binary64) :
    x.literal.decimal.toBinary64? = some x := by
  have hread := x.toBinary64?_shortestDecimal
  have hneg : x.literal.decimal.negative = x.shortestDecimal.negative :=
    x.negative_literal.trans (Decimal.negative_of_toBinary64? hread)
  rw [Decimal.toBinary64?_congr hneg x.value_literal, hread]

/-- A double whose text has at most fifteen digits near the units is read back from it. -/
theorem Binary64.toBinary64?_literal_of_short {x : Binary64} (h : x.literal.IsShort) :
    x.literal.toBinary64? = some x := by
  rw [NumberLiteral.toBinary64?_of_short h, x.toBinary64?_decimal_literal]

namespace Number

def literal : Number → NumberLiteral
  | natural n => ⟨false, natText n.val, [], none⟩
  | negative n => ⟨true, natText (n.val + 1), [], none⟩
  | double x => x.literal

theorem text_literal (n : Number) : n.literal.text = n.text := by
  cases n with
  | double x => exact x.text_literal
  | _ => simp [literal, text, NumberLiteral.text, NumberLiteral.fractionText,
      NumberLiteral.exponentText]

theorem canonical_natText (negative : Bool) (n : ℕ) :
    NumberLiteral.Canonical ⟨negative, natText n, [], none⟩ := by
  refine ⟨natText_digits n, by simp, ?_⟩
  by_cases hn : n = 0
  · subst hn
    exact Or.inl rfl
  · exact Or.inr ⟨natText_ne_nil n, head?_natText hn⟩

theorem canonical_literal (n : Number) : n.literal.Canonical := by
  cases n with
  | natural n => exact canonical_natText false n.val
  | negative n => exact canonical_natText true (n.val + 1)
  | double x => exact x.canonical_literal

/-- A number is read back from its text as the number that its literal stands for. -/
theorem read_text (n : Number) {rest : List Char} (hr : NumberLiteral.Ends rest) :
    NumberLiteral.read (n.text ++ rest) = some (n.literal, rest) := by
  rw [← n.text_literal]
  exact NumberLiteral.read_append n.canonical_literal hr

/-- What the text of a number is read as. A whole number is read as itself. -/
def reread? : Number → Option Number
  | double x => x.literal.toBinary64?.map double
  | n => some n

theorem toNumber?_literal (n : Number) : n.literal.toNumber? = n.reread? := by
  cases n with
  | natural n => simp [literal, NumberLiteral.toNumber?, natOfDigits_natText, reread?]
  | negative n =>
    have hn : n.val + 1 ≤ 9223372036854775808 := n.isLt
    simp [literal, NumberLiteral.toNumber?, natOfDigits_natText, reread?, hn]
  | double x => exact x.toNumber?_literal

theorem head?_text (n : Number) : ∃ c, n.text.head? = some c ∧ (c = '-' ∨ c.isDigit = true) := by
  rw [← n.text_literal, NumberLiteral.text]
  obtain ⟨c, hc, hd⟩ := n.canonical_literal.head?
  cases n.literal.negative with
  | true => exact ⟨'-', rfl, Or.inl rfl⟩
  | false => exact ⟨c, by simp [hc], Or.inr hd⟩

theorem ofText?_text (n : Number) : Decimal.ofText? n.text = some n.literal.decimal := by
  rw [← n.text_literal]
  exact n.canonical_literal.ofText?_text

theorem value_literal (n : Number) : n.literal.value = n.written := by
  cases n with
  | natural n =>
    rw [NumberLiteral.value_of_plain rfl rfl, written]
    simp [literal, natOfDigits_natText]
  | negative n =>
    rw [NumberLiteral.value_of_plain rfl rfl, written]
    simp [literal, natOfDigits_natText]
  | double x =>
    have hneg := Decimal.negative_of_toBinary64? x.toBinary64?_shortestDecimal
    show x.literal.decimal.value = x.shortestDecimal.value
    rw [Decimal.value, mul_assoc, x.value_literal, Decimal.value, mul_assoc, ← hneg, ← x.negative_literal]
    rfl

theorem exists_numeral (n : Number) : ∃ m : Numeral, m.text = n.text ∧ m.value = n.written := by
  refine ⟨n.canonical_literal.numeral, n.canonical_literal.text_numeral.trans n.text_literal, ?_⟩
  rw [← Numeral.value_decimal, n.canonical_literal.decimal_numeral]
  exact n.value_literal

end Number

end TableLoader
