import TableLoader.Proofs.Insert.Reading

/-! # Literals read back

Every cell is written under every type as a bare word or as a string, so a reader that stops at a comma or a
closing parenthesis takes exactly the literal. -/
namespace TableLoader

theorem takeSign_split (cs : List Char) :
    ∃ sign, cs = sign ++ (takeSign cs).2 ∧ ∀ c ∈ sign, Insert.isWordChar c = true := by
  unfold takeSign
  split
  · exact ⟨['-'], rfl, by simp [Insert.isWordChar]⟩
  · exact ⟨['+'], rfl, by simp [Insert.isWordChar]⟩
  · exact ⟨[], rfl, by simp⟩

theorem takeDigits_split (cs : List Char) : cs = (takeDigits cs).1 ++ (takeDigits cs).2 :=
  (List.takeWhile_append_dropWhile ..).symm

theorem isWordChar_of_isDigit {c : Char} (h : c.isDigit = true) : Insert.isWordChar c = true := by
  simp [Insert.isWordChar, Char.isAlphanum, h]

theorem isWordChar_takeDigits (cs : List Char) :
    ∀ c ∈ (takeDigits cs).1, Insert.isWordChar c = true :=
  fun _ hc => isWordChar_of_isDigit (List.mem_takeWhile_imp hc)

theorem isWordChar_exponent {cs : List Char} {e : Int} (h : exponentOfText? cs = some e) :
    ∀ c ∈ cs, Insert.isWordChar c = true := by
  cases cs with
  | nil => simp
  | cons m cs =>
    simp only [exponentOfText?] at h
    split at h
    · next hm =>
      obtain ⟨sign, hs, hsign⟩ := takeSign_split cs
      have hd := takeDigits_split (takeSign cs).2
      split at h
      · next hr =>
        rw [hr.2, List.append_nil] at hd
        intro c hc
        rw [hs, hd] at hc
        simp only [List.mem_cons, List.mem_append] at hc
        rcases hc with rfl | hc | hc
        · rcases hm with rfl | rfl <;> decide
        · exact hsign c hc
        · exact isWordChar_takeDigits _ c hc
      · simp at h
    · simp at h

theorem isWordChar_numeral {cs : List Char} {d : Decimal} (h : Decimal.ofText? cs = some d) :
    cs ≠ [] ∧ ∀ c ∈ cs, Insert.isWordChar c = true := by
  obtain ⟨sign, hs, hsign⟩ := takeSign_split cs
  have hw := takeDigits_split (takeSign cs).2
  have hwhole := isWordChar_takeDigits (takeSign cs).2
  unfold Decimal.ofText? at h
  simp only at h
  split at h
  · next rest tail htail =>
    have hf := takeDigits_split tail
    split at h
    · simp at h
    obtain ⟨e, he, -⟩ := Option.map_eq_some_iff.mp h
    rw [htail, hf] at hw
    rw [hw] at hs
    refine ⟨by rw [hs]; simp, fun c hc => ?_⟩
    rw [hs] at hc
    simp only [List.mem_append, List.mem_cons] at hc
    rcases hc with hc | hc | rfl | hc | hc
    · exact hsign c hc
    · exact hwhole c hc
    · decide
    · exact isWordChar_takeDigits _ c hc
    · exact isWordChar_exponent he c hc
  · next rest hpoint =>
    split at h
    · simp at h
    · next hne =>
      have hne : (takeDigits (takeSign cs).2).1 ≠ [] := by simpa using hne
      obtain ⟨e, he, -⟩ := Option.map_eq_some_iff.mp h
      rw [hw] at hs
      refine ⟨by rw [hs]; simp [hne], fun c hc => ?_⟩
      rw [hs] at hc
      simp only [List.mem_append] at hc
      rcases hc with hc | hc | hc
      · exact hsign c hc
      · exact hwhole c hc
      · exact isWordChar_exponent he c hc

namespace Literal

theorem ofText_cases (t : SqlType) (cs : List Char) :
    ofText t cs = null ∨ (∃ b, ofText t cs = ofBool b) ∨
      (t.category = .numeric ∧ (Binary64.ofText? cs).isSome ∧ ofText t cs = cs) ∨
      ((t.category = .text ∨ t.category = .datetime) ∧ ofText t cs = quote cs) := by
  cases hc : t.category with
  | numeric =>
    by_cases h : (Binary64.ofText? cs).isSome
    · exact Or.inr (Or.inr (Or.inl ⟨rfl, h, by simp [ofText, hc, numeric, h]⟩))
    · exact Or.inl (by simp [ofText, hc, numeric, h])
  | boolean =>
    simp only [ofText, hc, boolean]
    split
    · exact Or.inr (Or.inl ⟨true, rfl⟩)
    · split
      · exact Or.inr (Or.inl ⟨false, rfl⟩)
      · exact Or.inl rfl
  | datetime =>
    simp only [ofText, hc, datetime]
    split
    · exact Or.inl rfl
    · split
      · exact Or.inr (Or.inr (Or.inr ⟨Or.inr trivial, rfl⟩))
      · exact Or.inl rfl
  | text => exact Or.inr (Or.inr (Or.inr ⟨Or.inl rfl, by simp [ofText, hc]⟩))

/-- A cell is written as `NULL`, as a truth value, as the numeral it holds, or as the string of its text. -/
theorem format_cases (t : SqlType) (cell : Cell) :
    format t cell = null ∨ (∃ b, format t cell = ofBool b) ∨
      (t.category = .numeric ∧ (Binary64.ofText? cell.trimmed).isSome ∧
        format t cell = cell.trimmed) ∨
      ((t.category = .text ∨ t.category = .datetime) ∧ format t cell = quote cell.trimmed) := by
  have h := ofText_cases t cell.trimmed
  unfold format
  split
  · split
    · exact Or.inr (Or.inl ⟨_, rfl⟩)
    · exact h
  · split
    · exact Or.inl rfl
    · exact h

def IsLiteral (cs : List Char) : Prop :=
  (cs ≠ [] ∧ ∀ c ∈ cs, Insert.isWordChar c = true) ∨ ∃ s, cs = quote s

theorem isLiteral_format (t : SqlType) (cell : Cell) : IsLiteral (format t cell) := by
  rcases format_cases t cell with h | ⟨b, h⟩ | ⟨-, hn, h⟩ | ⟨-, h⟩
  · rw [h]; exact Or.inl ⟨by decide, by simp [null, Insert.isWordChar]⟩
  · rw [h]; cases b <;> exact Or.inl ⟨by decide, by simp [ofBool, Insert.isWordChar]⟩
  · obtain ⟨x, hx⟩ := Option.isSome_iff_exists.mp hn
    obtain ⟨d, hd, -⟩ := Option.bind_eq_some_iff.mp hx
    rw [h]; exact Or.inl (isWordChar_numeral hd)
  · exact Or.inr ⟨_, h⟩

end Literal

namespace Insert

open Literal (IsLiteral)

/-- What stands behind a literal: the comma before the next one or the end of the tuple. -/
def EndsLiteral (rest : List Char) : Prop := rest.head? = some ',' ∨ rest.head? = some ')'

theorem not_isWordChar_quote : isWordChar '\'' = false := by decide

theorem ofLiteral_word {cs : List Char} (h : ∀ c ∈ cs, isWordChar c = true) :
    Lexeme.ofLiteral cs = .word cs := by
  unfold Lexeme.ofLiteral
  split
  · have := h '\'' (List.mem_cons_self ..)
    simp [not_isWordChar_quote] at this
  · rfl

theorem ofLiteral_quote (s : List Char) :
    Lexeme.ofLiteral (Literal.quote s) = .string (s.flatMap Literal.quoteChar) := by
  simp [Lexeme.ofLiteral, Literal.quote]

theorem text_ofLiteral {cs : List Char} (h : IsLiteral cs) : (Lexeme.ofLiteral cs).text = cs := by
  rcases h with ⟨-, h⟩ | ⟨s, rfl⟩
  · rw [ofLiteral_word h]; rfl
  · rw [ofLiteral_quote]; rfl

theorem readLiteral_word {cs rest : List Char} (hne : cs ≠ [])
    (h : ∀ c ∈ cs, isWordChar c = true) (hr : EndsLiteral rest) :
    readLiteral (cs ++ rest) = some (.word cs, rest) := by
  have stop : rest.takeWhile isWordChar = [] ∧ rest.dropWhile isWordChar = rest := by
    cases rest with
    | nil => exact ⟨rfl, rfl⟩
    | cons c rest =>
      have hc : isWordChar c = false := by
        rcases hr with hr | hr <;> (obtain rfl := Option.some.inj hr; decide)
      simp [hc]
  obtain ⟨c, cs, rfl⟩ := List.exists_cons_of_ne_nil hne
  have hq : c ≠ '\'' := by
    rintro rfl
    have := h '\'' (List.mem_cons_self ..)
    simp [not_isWordChar_quote] at this
  rw [List.cons_append, readLiteral, ← List.cons_append, List.takeWhile_append_of_pos h,
    List.dropWhile_append_of_pos h, stop.1, stop.2, List.append_nil, if_neg hne]
  exact fun _ hc => hq (List.cons.inj hc).1

/-- Reading takes exactly the literal in front of a comma or a closing parenthesis. -/
theorem readLiteral_append {cs rest : List Char} (h : IsLiteral cs) (hr : EndsLiteral rest) :
    readLiteral (cs ++ rest) = some (.ofLiteral cs, rest) := by
  rcases h with ⟨hne, h⟩ | ⟨s, rfl⟩
  · rw [ofLiteral_word h]; exact readLiteral_word hne h hr
  · have hq : rest.head? ≠ some '\'' := by rcases hr with hr | hr <;> simp [hr]
    simp only [Literal.quote, List.cons_append, List.append_assoc, List.nil_append, readLiteral]
    rw [takeString_flatMap s hq]
    exact congrArg (fun l => some (l, rest)) (ofLiteral_quote s).symm

theorem inner_of_format {t : SqlType} {cell : Cell} {inner : List Char}
    (h : Lexeme.ofLiteral (Literal.format t cell) = .string inner) :
    inner = cell.trimmed.flatMap Literal.quoteChar := by
  rcases Literal.format_cases t cell with hf | ⟨b, hf⟩ | ⟨-, hn, hf⟩ | ⟨-, hf⟩
  all_goals rw [hf] at h
  · simp [Literal.null, Lexeme.ofLiteral] at h
  · cases b <;> simp [Literal.ofBool, Lexeme.ofLiteral] at h
  · obtain ⟨x, hx⟩ := Option.isSome_iff_exists.mp hn
    obtain ⟨d, hd, -⟩ := Option.bind_eq_some_iff.mp hx
    rw [ofLiteral_word (isWordChar_numeral hd).2] at h
    simp at h
  · rw [ofLiteral_quote] at h
    exact (Lexeme.string.inj h).symm

/-- A string in a tuple stands for the text of its cell, but for NUL. -/
theorem unescape_of_format {t : SqlType} {cell : Cell} {inner : List Char}
    (h : Lexeme.ofLiteral (Literal.format t cell) = .string inner) :
    unescape inner = cell.trimmed.filter (· != '\x00') := by
  rw [inner_of_format h, unescape_flatMap]

end Insert

end TableLoader
