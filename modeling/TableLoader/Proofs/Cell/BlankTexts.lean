import TableLoader.Proofs.Cell.Fitting
import TableLoader.Proofs.Cell.Numbers
import TableLoader.Proofs.Text.Lines

/-! # Texts that are blank once they are written

A cell is empty by its trimmed text, but NULs are left out only as the text is written. Where there is none, no
literal says blanks or the word `null`; where there are, a literal is sound just in case it is the one that the
cell would have without them. -/
namespace TableLoader

namespace Cell

/-- The cell with the NULs taken out of its text before anything else is done with it. -/
def withoutNul : Cell → Cell
  | .text s => .text (String.ofList (s.toList.filter (· != '\x00')))
  | cell => cell

def saying (cell : Cell) : List Char := Insert.unescape (cell.trimmed.flatMap Literal.quoteChar)

theorem saying_eq (cell : Cell) : cell.saying = cell.trimmed.filter (· != '\x00') :=
  Insert.unescape_flatMap cell.trimmed

theorem saying_eq_trimmed {cell : Cell} (h : '\x00' ∉ cell.trimmed) : cell.saying = cell.trimmed := by
  rw [saying_eq, List.filter_eq_self]
  intro c hc
  have hne : c ≠ '\x00' := by
    rintro rfl
    exact h hc
  simpa using hne

theorem nul_notMem_saying (cell : Cell) : '\x00' ∉ cell.saying := by
  rw [saying_eq]
  intro h
  exact absurd (List.mem_filter.mp h).2 (by decide)

theorem tight_trimmed (cell : Cell) : Text.Tight cell.trimmed := by
  rw [trimmed, trimmed?]
  cases cell.content? with
  | none => exact ⟨by simp, by simp⟩
  | some cs => exact Text.tight_trim cs

theorem isNullWord_eq_false_iff {cs : List Char} :
    isNullWord cs = false ↔ cs ≠ [] ∧ Text.equalsIgnoringCase "null".toList cs = false := by
  rw [isNullWord, Bool.or_eq_false_iff, List.isEmpty_eq_false_iff]

theorem nul_notMem_of_isNullWord {cs : List Char} (h : isNullWord cs = true) : '\x00' ∉ cs := by
  intro hm
  exact absurd (toLower_mem_of_isNullWord h hm) (by decide)

theorem trimmed_withoutNul (cell : Cell) : cell.withoutNul.trimmed = Text.trim cell.saying := by
  cases cell with
  | null => rfl
  | bool b => cases b <;> decide +kernel
  | number n =>
    have hnul : '\x00' ∉ (Cell.number n).trimmed := by
      intro hm
      rw [Literal.trimmed_number] at hm
      obtain ⟨m, htext, -⟩ := n.exists_numeral
      rw [← htext] at hm
      exact absurd ((isWordChar_numeral m.ofText?_text).2 _ hm) (by decide)
    rw [saying_eq_trimmed hnul, (tight_trimmed _).trim]
    rfl
  | text s =>
    have htext : (Cell.text s).withoutNul.trimmed = Text.trim (s.toList.filter (· != '\x00')) := by
      rw [withoutNul, trimmed, trimmed?, content?, String.toList_ofList]
      rfl
    rw [htext, Text.trim_filter, saying_eq]
    rfl

theorem nul_notMem_withoutNul (cell : Cell) : '\x00' ∉ cell.withoutNul.trimmed := by
  rw [trimmed_withoutNul]
  intro h
  exact cell.nul_notMem_saying (Text.trim_subset _ h)

theorem trimmed_withoutNul_eq_self {cell : Cell} (h : '\x00' ∉ cell.trimmed) :
    cell.withoutNul.trimmed = cell.trimmed := by
  rw [trimmed_withoutNul, saying_eq_trimmed h, cell.tight_trimmed.trim]

end Cell

namespace Literal

/-- A text that is worth a literal: not empty, without blanks at its ends, and not the word `null`. -/
structure Substantial (cs : List Char) : Prop where
  nonempty : cs ≠ []
  tight : Text.Tight cs
  notNull : Text.equalsIgnoringCase "null".toList cs = false

theorem substantial_iff {cs : List Char} :
    Substantial cs ↔ Text.trim cs = cs ∧ Cell.isNullWord cs = false := by
  rw [Cell.isNullWord_eq_false_iff, ← Text.tight_iff_trim_eq]
  constructor
  · rintro ⟨hne, ht, hn⟩
    exact ⟨ht, hne, hn⟩
  · rintro ⟨ht, hne, hn⟩
    exact ⟨hne, ht, hn⟩

/-- No literal of the cell stands for a blank text or the word `null`: what says no more than that once it is
written is written as `NULL`, and is reported where that is forbidden. -/
structure NeverBlank (t : SqlType) (cell : Cell) : Prop where
  literal : format t cell = null ∨ ∃ inner,
    Insert.readLiteral (format t cell) = some (.string inner, []) ∧
      Substantial (Insert.unescape inner)
  degraded : Cell.isNullWord (Text.trim cell.saying) = true → format t cell = null
  reported : Cell.isNullWord (Text.trim cell.saying) = true → ∀ field : Field,
    field.nullable = false → checkCell cell field t = some .nullNotAllowed

theorem quote_filter (cs : List Char) : quote (cs.filter (· != '\x00')) = quote cs := by
  have h : (cs.filter (· != '\x00')).flatMap quoteChar = cs.flatMap quoteChar := by
    induction cs with
    | nil => rfl
    | cons c cs ih =>
      by_cases hc : c = '\x00'
      · subst hc
        simpa [quoteChar] using ih
      · simp [hc, ih]
  rw [quote, h, quote]

theorem filter_eq_of_quote_eq {a b : List Char} (h : quote a = quote b) :
    a.filter (· != '\x00') = b.filter (· != '\x00') := by
  rw [quote, quote, List.cons.injEq, List.append_left_inj] at h
  rw [← Insert.unescape_flatMap a, ← Insert.unescape_flatMap b, h.2]

variable {t : SqlType} {cell : Cell}

theorem format_of_isNullWord (h : Cell.isNullWord cell.trimmed = true) : format t cell = null := by
  rw [format_eq, cell.isNullLike_eq, h, if_pos rfl]

theorem format_text (ht : t.category = .text) (h : Cell.isNullWord cell.trimmed = false) :
    format t cell = quote cell.trimmed := by
  rw [format_eq, cell.isNullLike_eq, h, if_neg Bool.false_ne_true, ofText, ht]

theorem checkCell_of_isNullWord (h : Cell.isNullWord cell.trimmed = true) {field : Field}
    (hf : field.nullable = false) : checkCell cell field t = some .nullNotAllowed := by
  simp [checkCell, cell.isNullLike_eq, h, hf]

theorem neverBlank_of_isNullWord (h : Cell.isNullWord cell.trimmed = true) : NeverBlank t cell where
  literal := Or.inl (format_of_isNullWord h)
  degraded _ := format_of_isNullWord h
  reported _ _ hf := checkCell_of_isNullWord h hf

theorem neverBlank_iff_substantial (ht : t.category = .text)
    (h : Cell.isNullWord cell.trimmed = false) : NeverBlank t cell ↔ Substantial cell.saying := by
  have hf := format_text ht h
  constructor
  · intro hb
    rcases hb.literal with hn | ⟨inner, hread, hs⟩
    · exact absurd (hf.symm.trans hn) (quote_ne_null _)
    · rw [hf, readLiteral_quote] at hread
      obtain rfl : cell.trimmed.flatMap quoteChar = inner := by simpa using hread
      exact hs
  · intro hs
    have hword : Cell.isNullWord (Text.trim cell.saying) = false := by
      rw [(substantial_iff.mp hs).1]
      exact (substantial_iff.mp hs).2
    refine ⟨Or.inr ⟨_, ?_, hs⟩, ?_, ?_⟩
    · rw [hf]
      exact readLiteral_quote _
    · intro hn
      simp [hword] at hn
    · intro hn
      simp [hword] at hn

theorem format_withoutNul_iff_substantial (ht : t.category = .text)
    (h : Cell.isNullWord cell.trimmed = false) :
    format t cell = format t cell.withoutNul ↔ Substantial cell.saying := by
  rw [substantial_iff, format_text ht h, ← cell.trimmed_withoutNul]
  constructor
  · intro he
    have hn : Cell.isNullWord cell.withoutNul.trimmed = false := by
      rw [← Bool.not_eq_true]
      intro hn
      exact quote_ne_null _ (he.trans (format_of_isNullWord hn))
    rw [format_text ht hn] at he
    -- leaving the NULs out changes nothing on the right, so the left says what stands there
    have hs : cell.withoutNul.trimmed = cell.saying := by
      rw [← Cell.saying_eq_trimmed cell.nul_notMem_withoutNul, Cell.saying_eq, Cell.saying_eq,
        filter_eq_of_quote_eq he]
    exact ⟨hs, hs ▸ hn⟩
  · rintro ⟨hs, hn⟩
    rw [← hs] at hn
    rw [format_text ht hn, hs, Cell.saying_eq, quote_filter]

/-- In a text column no literal is blank or the word `null`, except where leaving the NULs out earlier would
have made another one of it. -/
theorem neverBlank_iff (t : SqlType) (cell : Cell) (ht : t.category = .text) :
    (NeverBlank t cell ↔ format t cell = format t cell.withoutNul) ∧
      ('\x00' ∉ cell.trimmed → NeverBlank t cell) := by
  cases hn : Cell.isNullWord cell.trimmed with
  | true =>
    have hb : NeverBlank t cell := neverBlank_of_isNullWord hn
    have hsame := Cell.trimmed_withoutNul_eq_self (Cell.nul_notMem_of_isNullWord hn)
    have hn' : Cell.isNullWord cell.withoutNul.trimmed = true := by
      rw [hsame]
      exact hn
    refine ⟨iff_of_true hb ?_, fun _ => hb⟩
    rw [format_of_isNullWord hn, format_of_isNullWord hn']
  | false =>
    constructor
    · rw [neverBlank_iff_substantial ht hn, format_withoutNul_iff_substantial ht hn]
    · intro hnul
      rw [neverBlank_iff_substantial ht hn, Cell.saying_eq_trimmed hnul]
      exact substantial_iff.mpr ⟨cell.tight_trimmed.trim, hn⟩

/-- A NUL between two letters is left out of a literal that is none the worse for it. -/
theorem neverBlank_innerNul :
    (SqlType.parse "TEXT").category = .text ∧ '\x00' ∈ (Cell.text "a\x00b").trimmed ∧
      NeverBlank (.parse "TEXT") (.text "a\x00b") := by
  have ht : (SqlType.parse "TEXT").category = .text := by decide +kernel
  have hsame : format (.parse "TEXT") (.text "a\x00b") =
      format (.parse "TEXT") (Cell.text "a\x00b").withoutNul := by
    decide +kernel
  exact ⟨ht, by decide, (neverBlank_iff _ _ ht).1.mpr hsame⟩

/-- Texts of which nothing, the word `null` or a blank at the end is left. Each is written as a string, and passes
under a column that forbids `NULL`. -/
theorem blank_literals :
    (SqlType.parse "TEXT").category = .text ∧
      ∀ p ∈ [("\x00", "''"), ("nu\x00ll", "'null'"), ("a \x00", "'a '")],
        format (.parse "TEXT") (.text p.1) = p.2.toList ∧
          checkCell (.text p.1) ⟨"a", "TEXT", false⟩ (.parse "TEXT") = none ∧
            ¬ NeverBlank (.parse "TEXT") (.text p.1) := by
  have ht : (SqlType.parse "TEXT").category = .text := by decide +kernel
  refine ⟨ht, fun p hp => ?_⟩
  have hwritten : format (.parse "TEXT") (.text p.1) = p.2.toList ∧
      checkCell (.text p.1) ⟨"a", "TEXT", false⟩ (.parse "TEXT") = none := by
    revert p
    decide +kernel
  have hn : Cell.isNullWord (Cell.text p.1).trimmed = false ∧
      ¬ (Text.trim (Cell.text p.1).saying = (Cell.text p.1).saying ∧
        Cell.isNullWord (Cell.text p.1).saying = false) := by
    revert p
    decide +kernel
  refine ⟨hwritten.1, hwritten.2, ?_⟩
  rw [neverBlank_iff_substantial ht hn.1, substantial_iff]
  exact hn.2

end Literal

end TableLoader
