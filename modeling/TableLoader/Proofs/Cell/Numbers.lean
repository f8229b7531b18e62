import TableLoader.Proofs.Cell.Checking
import TableLoader.Proofs.Insert.Literals
import TableLoader.Proofs.Json.Numerals
import TableLoader.Proofs.Text.LetterCase

/-! # Numbers in cells

The text of a number is neither blank nor the word `null`, and it is read as a double, so under a numeric type
a number is written by its own text. -/
namespace TableLoader

namespace Number

theorem abs_written_lt (n : Number) : |n.written| < 2 ^ 1024 - 2 ^ 970 := by
  have hwhole : ∀ k : ℕ, k ≤ 2 ^ 64 → (k : ℚ) < 2 ^ 1024 - 2 ^ 970 := by
    intro k hk
    calc (k : ℚ) ≤ 2 ^ 64 := by exact_mod_cast hk
      _ < 2 ^ 1023 := pow_lt_pow_right₀ one_lt_two (by decide)
      _ ≤ 2 ^ 1024 - 2 ^ 970 := Binary64.pow_le_pow_succ_sub (by decide)
  cases n with
  | natural n =>
    rw [written, Nat.abs_cast]
    exact hwhole n.val (by omega)
  | negative n =>
    have hcast : (n.val : ℚ) + 1 = (n.val + 1 : ℕ) := by push_cast; rfl
    rw [written, abs_neg, hcast, Nat.abs_cast]
    exact hwhole (n.val + 1) (by omega)
  | double x =>
    exact (Decimal.isRounding_of_toBinary64? x.toBinary64?_shortestDecimal).inRange

theorem exists_ofText? (n : Number) : ∃ x, Binary64.ofText? n.text = some x := by
  obtain ⟨m, hm, hv⟩ := n.exists_numeral
  have hd : |m.decimal.value| < 2 ^ 1024 - 2 ^ 970 := by
    rw [m.value_decimal, hv]
    exact n.abs_written_lt
  rw [← hm, Binary64.ofText?, m.ofText?_text, Option.bind_some]
  exact Decimal.exists_toBinary64? hd

end Number

theorem isBlank_of_isWordChar {c : Char} (h : Insert.isWordChar c = true) :
    Text.isBlank c = false := by
  simp only [Insert.isWordChar, Bool.or_eq_true, beq_iff_eq] at h
  rcases h with ((h | rfl) | rfl) | rfl
  · exact Text.isBlank_of_isAlphanum h
  all_goals decide

theorem Numeral.exists_digit (n : Numeral) : ∃ c ∈ n.text, c.isDigit = true := by
  rcases n.some_digit with hw | ⟨f, hf, hne⟩
  · obtain ⟨c, hc⟩ := List.exists_mem_of_ne_nil _ hw
    exact ⟨c, by simp [text, hc], n.whole.property c hc⟩
  · have hf : n.fraction = some f := hf
    obtain ⟨c, hc⟩ := List.exists_mem_of_ne_nil _ hne
    exact ⟨c, by simp [text, fractionText, hf, hc], f.property c hc⟩

theorem toLower_mem_of_isNullWord {cs : List Char} {c : Char} (h : Cell.isNullWord cs = true)
    (hm : c ∈ cs) : c.toLower ∈ ['n', 'u', 'l', 'l'] := by
  rw [Cell.isNullWord, Bool.or_eq_true] at h
  rcases h with h | h
  · simp [List.isEmpty_iff.mp h] at hm
  · have hmap : "null".toList.map Char.toLower = cs.map Char.toLower := eq_of_beq h
    have hletters : "null".toList.map Char.toLower = ['n', 'u', 'l', 'l'] := by decide
    rw [← hletters, hmap]
    exact List.mem_map_of_mem hm

/-- A text with a digit is not blank, and not the word `null`, whose characters are letters in any case. -/
theorem isNullWord_eq_false {cs : List Char} {c : Char} (hm : c ∈ cs) (hd : c.isDigit = true) :
    Cell.isNullWord cs = false := by
  rw [← Bool.not_eq_true]
  intro h
  have hlow := toLower_mem_of_isNullWord h hm
  rw [Text.toLower_of_isDigit hd] at hlow
  simp only [List.mem_cons, List.not_mem_nil, or_false] at hlow
  rcases hlow with rfl | rfl | rfl | rfl <;> exact absurd hd (by decide)

theorem Cell.isNullLike_eq (cell : Cell) : cell.isNullLike = isNullWord cell.trimmed := by
  rw [isNullLike, trimmed]
  cases cell.trimmed? <;> rfl

theorem Cell.isNullLike_eq_false {cell : Cell} {c : Char} (hm : c ∈ cell.trimmed)
    (hd : c.isDigit = true) : cell.isNullLike = false := by
  rw [isNullLike_eq]
  exact isNullWord_eq_false hm hd

namespace Literal

theorem trimmed_number (n : Number) : (Cell.number n).trimmed = n.text := by
  obtain ⟨m, hm, -⟩ := n.exists_numeral
  obtain ⟨hne, hw⟩ := isWordChar_numeral m.ofText?_text
  rw [hm] at hne hw
  have ht : Text.Tight n.text := by
    constructor
    · exact fun c hc => isBlank_of_isWordChar (hw c (List.mem_of_mem_head? hc))
    · exact fun c hc => isBlank_of_isWordChar (hw c (List.mem_of_mem_getLast? hc))
  exact ht.trim

theorem format_number {t : SqlType} (ht : t.category = .numeric) (n : Number) :
    format t (.number n) = n.text := by
  obtain ⟨m, hm, -⟩ := n.exists_numeral
  obtain ⟨c, hc, hd⟩ := m.exists_digit
  rw [hm, ← trimmed_number n] at hc
  have hnull := Cell.isNullLike_eq_false hc hd
  obtain ⟨x, hx⟩ := n.exists_ofText?
  rw [format_eq, hnull, if_neg Bool.false_ne_true, trimmed_number, ofText, ht]
  simp only [numeric, hx, Option.isSome_some, if_true]

end Literal

end TableLoader
