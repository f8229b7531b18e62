import Mathlib
import TableLoader.Json.Reader

/-! # Quoted texts of JSON

A text that is written between quotes is read back character by character, whatever follows the closing quote. -/
namespace TableLoader.Json

theorem hexValue?_hexDigit (n : ℕ) : Text.hexValue? (hexDigit n) = some (n % 16) := by
  have h : ∀ d < 16, Text.hexValue? (Nat.digitChar d) = some d := by decide
  exact h (n % 16) (Nat.mod_lt n (by decide))

theorem readUnits_backslash {fuel : ℕ} {cs : List Char} {unit : TextUnit} {rest : List Char}
    (h : readEscape cs = some (unit, rest)) :
    readUnits (fuel + 1) ('\\' :: cs) = (readUnits fuel rest).map fun r => (unit :: r.1, r.2) := by
  simp only [readUnits, h, Option.bind_eq_bind, Option.bind_some]
  cases readUnits fuel rest <;> rfl

theorem readEscape_code {c : Char} (hc : c.toNat < 32) (rest : List Char) :
    readEscape ('u' :: '0' :: '0' :: hexDigit (c.toNat / 16) :: hexDigit c.toNat :: rest) =
      some (.char c, rest) := by
  have h0 : Text.hexValue? '0' = some 0 := by decide
  have hcode : ((0 * 16 + 0) * 16 + c.toNat / 16 % 16) * 16 + c.toNat % 16 = c.toNat := by omega
  have hunit : unitOfCode c.toNat = .char c := by
    rw [unitOfCode, if_neg (by omega), Char.ofNat_toNat]
  simp only [readEscape, readHex4, h0, hexValue?_hexDigit, Option.bind_eq_bind, Option.bind_some,
    Option.pure_def, Option.map_some, hcode, hunit]

theorem readUnits_escapeChar (c : Char) (fuel : ℕ) (rest : List Char) :
    readUnits (fuel + 1) (escapeChar c ++ rest) =
      (readUnits fuel rest).map fun r => (.char c :: r.1, r.2) := by
  unfold escapeChar
  split
  · exact readUnits_backslash rfl
  · exact readUnits_backslash rfl
  · exact readUnits_backslash rfl
  · exact readUnits_backslash rfl
  · exact readUnits_backslash rfl
  · exact readUnits_backslash rfl
  · exact readUnits_backslash rfl
  · next hquote hbackslash _ _ _ _ _ =>
    by_cases hc : c.toNat < 32
    · rw [if_pos hc]
      exact readUnits_backslash (readEscape_code hc rest)
    · rw [if_neg hc, List.singleton_append, readUnits, if_neg hc]
      · exact fun h => hquote h
      · exact fun h => hbackslash h

theorem readUnits_flatMap (cs : List Char) {fuel : ℕ} (hf : cs.length < fuel) (rest : List Char) :
    readUnits fuel (cs.flatMap escapeChar ++ '\"' :: rest) = some (cs.map .char, rest) := by
  induction cs generalizing fuel with
  | nil =>
    obtain ⟨fuel, rfl⟩ := Nat.exists_eq_add_of_lt hf
    rfl
  | cons c cs ih =>
    cases fuel with
    | zero => simp at hf
    | succ fuel =>
      rw [List.flatMap_cons, List.append_assoc, readUnits_escapeChar,
        ih (Nat.succ_lt_succ_iff.mp hf)]
      rfl

theorem joinUnits_map_char (cs : List Char) : joinUnits (cs.map .char) = some cs := by
  induction cs with
  | nil => rfl
  | cons c cs ih =>
    rw [List.map_cons, joinUnits, ih]
    rfl

theorem length_escapeChar_pos (c : Char) : 0 < (escapeChar c).length := by
  unfold escapeChar
  split <;> try decide
  split <;> simp

theorem length_le_flatMap_escapeChar (cs : List Char) :
    cs.length ≤ (cs.flatMap escapeChar).length := by
  induction cs with
  | nil => simp
  | cons c cs ih =>
    have hc := length_escapeChar_pos c
    rw [List.flatMap_cons, List.length_append, List.length_cons]
    omega

/-- What stands behind the opening quote of a written text is read as that text. -/
theorem readText_flatMap (s : String) (rest : List Char) :
    readText (s.toList.flatMap escapeChar ++ '\"' :: rest) = some (some s, rest) := by
  have hl := length_le_flatMap_escapeChar s.toList
  rw [readText, readUnits_flatMap s.toList (by simp only [List.length_append]; omega), Option.map_some,
    joinUnits_map_char, Option.map_some, String.ofList_toList]

end TableLoader.Json
