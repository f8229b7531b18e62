import TableLoader.Proofs.Cell.Checking
import TableLoader.Proofs.Request.Alignment

/-! # NULL under columns that forbid it

In a statement that is written for a checked request, `NULL` stands under a column that forbids it exactly where
the cell should be a truth value or a date and is neither. -/
open TableLoader.Insert (Lexeme readStatement cellAt typeAt rowLexemes)

namespace TableLoader.Request

theorem ofLiteral_eq_null_iff {cs : List Char} (h : Literal.IsLiteral cs) :
    Lexeme.ofLiteral cs = .word Literal.null ↔ cs = Literal.null := by
  constructor
  · intro he
    rw [← Insert.text_ofLiteral h, he]
    rfl
  · rintro rfl
    rfl

/-- A tuple with one literal for each field, where `NULL` stands under a field that forbids it exactly where
the cell has no literal of the field's type. -/
structure NullsUnformattable (fields : List Field) (row : Row) (tuple : List Lexeme) : Prop where
  width : tuple.length = fields.length
  null : ∀ (i : ℕ) (field : Field), fields[i]? = some field → field.nullable = false →
    (tuple[i]? = some (.word Literal.null) ↔
      Literal.unformattable field.sqlType (cellAt row i).trimmed = true)

theorem nullsUnformattable_rowLexemes {fields : List Field} {row : Row}
    (hw : row.length = fields.length)
    (h : ∀ (i : ℕ) (cell : Cell) (field : Field), row[i]? = some cell → fields[i]? = some field →
      checkCell cell field field.sqlType = none) :
    NullsUnformattable fields row (rowLexemes fields row) := by
  constructor
  · rw [length_rowLexemes, hw, max_self]
  · intro i field hi hf
    obtain ⟨hil, -⟩ := List.getElem?_eq_some_iff.mp hi
    have hir : i < row.length := by omega
    have hcell : row[i]? = some (cellAt row i) := by simp [cellAt, hir]
    have htype : typeAt fields i = field.sqlType := by simp [typeAt, hi]
    rw [Insert.getElem?_rowLexemes, if_pos (by omega), Option.some.injEq,
      ofLiteral_eq_null_iff (Literal.isLiteral_format _ _), htype]
    exact Literal.format_eq_null_iff hf (h i _ field hcell hi)

/-- A checked cell, and every cell of a checked request, is written as `NULL` under a column that forbids it
exactly where it is neither a truth value nor a date and should be one. -/
theorem null_iff_unformattable (cell : Cell) (field : Field) (t : SqlType) (s : Settings)
    (r : Request) (sql : String) :
    (field.nullable = false → checkCell cell field t = none →
      (Literal.format t cell = Literal.null ↔ Literal.unformattable t cell.trimmed = true)) ∧
    (s.validateBeforeGenerate = true →
      (∀ row ∈ r.rows, row.length = r.fields.length) →
      (∀ f ∈ r.fields, r.mapping.hasTarget f.name = true) →
      r.generate s = .ok sql →
        ∃ reading, readStatement s.identifierQuote sql = some reading ∧
          List.Forall₂ (NullsUnformattable r.fields) r.rows reading.tuples) := by
  refine ⟨Literal.format_eq_null_iff, ?_⟩
  intro hs hw hall h
  obtain ⟨-, reading, hread, -, htuples⟩ := read_generate h
  refine ⟨reading, hread, ?_⟩
  rw [htuples, columns_eq_self_iff.mpr hall, List.forall₂_map_right_iff]
  refine List.forall₂_same.mpr fun row hrow => nullsUnformattable_rowLexemes (hw row hrow) ?_
  intro i cell field hc hi
  have hne : r.fields ≠ [] := List.ne_nil_of_mem (List.mem_of_getElem? hi)
  have hfaults : r.faults = [] := (generate_eq_ok_iff.mp h).2.2.1 hs hne
  exact checkRowsFrom_eq_nil_iff.mp hfaults row hrow i cell field hc hi

def strictRequest : Request where
  table := "log"
  mapping := ⟨[("A", "n"), ("B", "ok"), ("C", "day"), ("D", "note")], by decide⟩
  rows := [[.text " 7 ", .bool true, .text "2024-02-29", .text "NULLs"],
    [.text "+8", .text "maybe", .text "29/02/2023", .text "x"]]
  fields := [⟨"n", "TINYINT", false⟩, ⟨"ok", "BOOL", false⟩, ⟨"day", "DATE", false⟩,
    ⟨"note", "TEXT", false⟩]

theorem nulls_strictRequest :
    (checkCell (.text "7") ⟨"n", "INT", false⟩ (.parse "INT") = none ∧
      (Literal.format (.parse "INT") (.text "7") = Literal.null ↔
        Literal.unformattable (.parse "INT") (Cell.text "7").trimmed = true)) ∧
    (∀ row ∈ strictRequest.rows, row.length = strictRequest.fields.length) ∧
    (∀ f ∈ strictRequest.fields, strictRequest.mapping.hasTarget f.name = true) ∧
    ∃ sql, strictRequest.generate {} = .ok sql ∧
      ∃ reading, readStatement .backtick sql = some reading ∧
        List.Forall₂ (NullsUnformattable strictRequest.fields) strictRequest.rows reading.tuples := by
  have hc : checkCell (.text "7") ⟨"n", "INT", false⟩ (.parse "INT") = none := by decide +kernel
  have hw : ∀ row ∈ strictRequest.rows, row.length = strictRequest.fields.length := by
    simp [strictRequest]
  have hall : ∀ f ∈ strictRequest.fields, strictRequest.mapping.hasTarget f.name = true := by
    decide +kernel
  have h : strictRequest.generate {} =
      .ok ("INSERT INTO \x60log\x60 (\x60n\x60, \x60ok\x60, \x60day\x60, \x60note\x60) VALUES\n" ++
        "(7, TRUE, '2024-02-29', 'NULLs'),\n(+8, NULL, NULL, 'x');") := by decide +kernel
  have hcell := (null_iff_unformattable (.text "7") ⟨"n", "INT", false⟩ (.parse "INT") {}
    strictRequest "").1 rfl hc
  have hread := (null_iff_unformattable (.text "7") ⟨"n", "INT", false⟩ (.parse "INT") {}
    strictRequest _).2 rfl hw hall h
  exact ⟨⟨hc, hcell⟩, hw, hall, _, h, hread⟩

def maybeRequest : Request where
  table := "t"
  mapping := ⟨[("A", "active")], by decide⟩
  rows := [[.text "maybe"]]
  fields := [⟨"active", "BOOLEAN", false⟩]

/-- The check lets the text through, and `NULL` is written into the column. -/
theorem maybeRequest_null :
    (checkCell (.text "maybe") ⟨"active", "BOOLEAN", false⟩ (.parse "BOOLEAN") = none ∧
      Literal.format (.parse "BOOLEAN") (.text "maybe") = Literal.null) ∧
    (∀ row ∈ maybeRequest.rows, row.length = maybeRequest.fields.length) ∧
    (∀ f ∈ maybeRequest.fields, f.name ≠ "" ∧ maybeRequest.mapping.hasTarget f.name = true) ∧
    maybeRequest.generate {} = .ok "INSERT INTO \x60t\x60 (\x60active\x60) VALUES\n(NULL);" ∧
    ∃ reading, readStatement .backtick
        "INSERT INTO \x60t\x60 (\x60active\x60) VALUES\n(NULL);" = some reading ∧
      reading.tuples = [[.word Literal.null]] := by
  have h : maybeRequest.generate {} =
      .ok "INSERT INTO \x60t\x60 (\x60active\x60) VALUES\n(NULL);" := by decide +kernel
  obtain ⟨-, reading, hread, -, htuples⟩ := read_generate h
  refine ⟨by decide +kernel, by simp [maybeRequest], by decide +kernel, h, reading, hread, ?_⟩
  rw [htuples]
  decide +kernel

end TableLoader.Request
