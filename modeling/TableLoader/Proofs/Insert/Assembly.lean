import TableLoader.Proofs.Insert.Literals

/-! # Injection-proof assembly

A statement that is written from any names, types and cells is read back as what was meant: its table, its
columns and one tuple for each row. No text of the input can end a name, a string or a tuple. -/
namespace TableLoader.Insert

open Literal (IsLiteral)

/-- A statement is written exactly where there is a row and a column to write. -/
theorem build_eq_ok_iff {quote : IdentifierQuote} {table : String} {mapping : Mapping}
    {fields : List Field} {rows : List Row} {sql : String} :
    build quote table mapping fields rows = .ok sql ↔
      rows ≠ [] ∧ columns fields mapping ≠ [] ∧
        sql = String.ofList (statement quote table (columns fields mapping) rows) := by
  unfold build
  split
  · next h => simp [List.isEmpty_iff.mp h]
  · next h =>
    have hr : rows ≠ [] := by simpa using h
    split
    · next h => simp [List.isEmpty_iff.mp h]
    · next h =>
      have hc : columns fields mapping ≠ [] := by simpa using h
      simp [hr, hc, eq_comm]

/-- The cell at a place of a row, which is `null` behind its end. -/
def cellAt (row : Row) (i : Nat) : Cell := row.getD i .null

/-- The type at a place of a tuple, which is untyped behind the last column. -/
def typeAt (cols : List Field) (i : Nat) : SqlType := (cols.map Field.sqlType).getD i untyped

theorem rowLiterals_eq_map (types : List SqlType) (row : Row) :
    rowLiterals types row = (List.range (max row.length types.length)).map fun i =>
      Literal.format (types.getD i untyped) (cellAt row i) := by
  fun_induction rowLiterals types row with
  | case1 row =>
    apply List.ext_getElem
    · simp
    · intro i h _
      have hi : i < row.length := by simpa using h
      simp [cellAt, hi]
  | case2 t types ih =>
    rw [ih]
    simp [List.range_succ_eq_map, cellAt]
  | case3 t types cell row ih =>
    rw [ih]
    simp [List.range_succ_eq_map, cellAt, Nat.succ_max_succ]

theorem rowLiterals_ne_nil {types : List SqlType} (h : types ≠ []) (row : Row) :
    rowLiterals types row ≠ [] := by
  obtain ⟨t, types, rfl⟩ := List.exists_cons_of_ne_nil h
  cases row <;> simp [rowLiterals]

theorem isLiteral_rowLiterals {types : List SqlType} {row : Row} {cs : List Char}
    (h : cs ∈ rowLiterals types row) : IsLiteral cs := by
  rw [rowLiterals_eq_map] at h
  obtain ⟨i, -, rfl⟩ := List.mem_map.mp h
  exact Literal.isLiteral_format _ _

theorem readTupleBy_tuple {literal : List Char → Option (Lexeme × List Char)}
    {value : List Char → Lexeme} {literals : List (List Char)} (hne : literals ≠ [])
    (h : ∀ cs ∈ literals, ∀ rest, EndsLiteral rest → literal (cs ++ rest) = some (value cs, rest))
    (rest : List Char) :
    readTupleBy literal (tuple literals ++ rest) = some (literals.map value, rest) := by
  have hread := readSeparated_intercalate separator id EndsLiteral (by decide)
    (fun _ => Or.inl rfl) h hne (show EndsLiteral (')' :: rest) from Or.inr rfl)
    (expect_cons_ne (by decide) _ _)
  simp only [List.map_id, separator] at hread
  simp [readTupleBy, tuple, separator, expect, List.isPrefixOf, hread]

theorem readNames_intercalate (quote : IdentifierQuote) {names : List String} (hne : names ≠ [])
    (rest : List Char) :
    readSeparated (readName quote) [',', ' ']
        (separator.intercalate (names.map fun n => quoteName quote n.toList) ++
          (valuesMark ++ rest)) =
      some (names.map fun n => strip quote n.toList, valuesMark ++ rest) := by
  have hend : expect separator (valuesMark ++ rest) = none := expect_cons_ne (by decide) _ _
  exact readSeparated_intercalate separator _ (fun _ => True) (by decide) (fun _ => trivial)
    (fun n _ rest _ => readName_quoteName quote n.toList rest) hne trivial hend

def tupleLines (types : List SqlType) (rows : List Row) : List Char :=
  [',', '\n'].intercalate (rows.map fun row => tuple (rowLiterals types row)) ++ [';']

theorem readTuples_tupleLines {literal : List Char → Option (Lexeme × List Char)}
    {value : List Char → Lexeme}
    (h : ∀ cs, IsLiteral cs → ∀ rest, EndsLiteral rest → literal (cs ++ rest) = some (value cs, rest))
    {types : List SqlType} (ht : types ≠ []) {rows : List Row} (hne : rows ≠ []) :
    readSeparated (readTupleBy literal) [',', '\n'] (tupleLines types rows) =
      some (rows.map fun row => (rowLiterals types row).map value, [';']) := by
  apply readSeparated_intercalate [',', '\n'] _ (fun _ => True) (by decide) (fun _ => trivial) _ hne
    trivial rfl
  intro row _ rest _
  exact readTupleBy_tuple (rowLiterals_ne_nil ht row) (fun cs hcs => h cs (isLiteral_rowLiterals hcs))
    rest

theorem header_append (quote : IdentifierQuote) (table : String) (names : List String) :
    header quote table names ++ ['\n'] =
      intoMark ++ (quoteName quote table.toList ++ (columnsMark ++
        (separator.intercalate (names.map fun n => quoteName quote n.toList) ++ valuesMark))) := by
  have hv : valuesMark = ") VALUES".toList ++ ['\n'] := rfl
  unfold header
  rw [hv]
  simp only [List.append_assoc]
  rfl

theorem statement_eq (quote : IdentifierQuote) (table : String) (cols : List Field)
    (rows : List Row) :
    statement quote table cols rows =
      intoMark ++ (quoteName quote table.toList ++ (columnsMark ++
        (separator.intercalate ((cols.map Field.name).map fun n => quoteName quote n.toList) ++
          (valuesMark ++ tupleLines (cols.map Field.sqlType) rows)))) := by
  have h : statement quote table cols rows =
      header quote table (cols.map Field.name) ++ ['\n'] ++
        tupleLines (cols.map Field.sqlType) rows := List.append_cons ..
  rw [h, header_append]
  simp only [List.append_assoc]

def rowLexemes (cols : List Field) (row : Row) : List Lexeme :=
  (rowLiterals (cols.map Field.sqlType) row).map Lexeme.ofLiteral

/-- By every rule that reads each literal whole the statement is read literal by literal. -/
theorem readStatementBy_statement {literal : List Char → Option (Lexeme × List Char)}
    {value : List Char → Lexeme}
    (h : ∀ cs, IsLiteral cs → ∀ rest, EndsLiteral rest → literal (cs ++ rest) = some (value cs, rest))
    (quote : IdentifierQuote) (table : String) {cols : List Field} {rows : List Row} (hc : cols ≠ [])
    (hr : rows ≠ []) :
    readStatementBy literal quote (String.ofList (statement quote table cols rows)) =
      some ⟨strip quote table.toList, cols.map fun f => strip quote f.name.toList,
        rows.map fun row => (rowLiterals (cols.map Field.sqlType) row).map value⟩ := by
  have hnames := readNames_intercalate quote (show cols.map Field.name ≠ [] by simpa using hc)
  have htuples := readTuples_tupleLines h (show cols.map Field.sqlType ≠ [] by simpa using hc) hr
  rw [readStatementBy, String.toList_ofList, statement_eq]
  simp only [expect_append, Option.bind_eq_bind, Option.bind_some, readName_quoteName, hnames,
    htuples, ↓reduceIte]
  rw [List.map_map]
  rfl

theorem readStatement_statement (quote : IdentifierQuote) (table : String) {cols : List Field}
    {rows : List Row} (hc : cols ≠ []) (hr : rows ≠ []) :
    readStatement quote (String.ofList (statement quote table cols rows)) =
      some ⟨strip quote table.toList, cols.map fun f => strip quote f.name.toList,
        rows.map (rowLexemes cols)⟩ := by
  rw [readStatement]
  exact readStatementBy_statement (fun _ hl _ hr => readLiteral_append hl hr) quote table hc hr

theorem getElem?_rowLexemes (cols : List Field) (row : Row) (i : Nat) :
    (rowLexemes cols row)[i]? =
      if i < max row.length cols.length then
        some (.ofLiteral (Literal.format (typeAt cols i) (cellAt row i)))
      else none := by
  rw [rowLexemes, rowLiterals_eq_map]
  split <;> simp_all [typeAt]

/-- What a tuple must hold for a row: one lexeme for each cell and each column, spelled as the cell is written
under its column's type, where a string stands for the text of the cell but for NUL. -/
structure RecoversRow (cols : List Field) (row : Row) (tuple : List Lexeme) : Prop where
  length : tuple.length = max row.length cols.length
  text : ∀ i l, tuple[i]? = some l → l.text = Literal.format (typeAt cols i) (cellAt row i)
  value : ∀ i inner, tuple[i]? = some (.string inner) →
    unescape inner = (cellAt row i).trimmed.filter (· != '\x00')

/-- What a reading must hold for a statement on a table, its columns and its rows. -/
structure Recovers (quote : IdentifierQuote) (table : String) (cols : List Field) (rows : List Row)
    (r : Reading) : Prop where
  table : r.table =
    table.toList.filter (fun c => c ∉ [quote.delimiters.1, quote.delimiters.2])
  columns : r.columns = cols.map fun f =>
    f.name.toList.filter (fun c => c ∉ [quote.delimiters.1, quote.delimiters.2])
  tuples : List.Forall₂ (RecoversRow cols) rows r.tuples

theorem strip_eq_filter (quote : IdentifierQuote) (name : List Char) :
    strip quote name = name.filter (fun c => c ∉ [quote.delimiters.1, quote.delimiters.2]) := by
  apply List.filter_congr
  intro c _
  simp [bne, beq_eq_decide]

theorem recoversRow_rowLexemes (cols : List Field) (row : Row) :
    RecoversRow cols row (rowLexemes cols row) := by
  constructor
  · simp [rowLexemes, rowLiterals_eq_map]
  · intro i l h
    rw [getElem?_rowLexemes] at h
    split at h
    · rw [← Option.some.inj h]
      exact text_ofLiteral (Literal.isLiteral_format _ _)
    · simp at h
  · intro i inner h
    rw [getElem?_rowLexemes] at h
    split at h
    · exact unescape_of_format (Option.some.inj h)
    · simp at h

/-- Whatever names and cells it was written from, a statement reads as exactly what was meant. -/
theorem build_recovered {quote : IdentifierQuote} {table : String} {mapping : Mapping}
    {fields : List Field} {rows : List Row} {sql : String}
    (h : build quote table mapping fields rows = .ok sql) :
    ∃ r, readStatement quote sql = some r ∧
      Recovers quote table (columns fields mapping) rows r := by
  obtain ⟨hr, hc, rfl⟩ := build_eq_ok_iff.mp h
  refine ⟨_, readStatement_statement quote table hc hr, ?_, ?_, ?_⟩
  · exact strip_eq_filter quote table.toList
  · exact List.map_congr_left fun f _ => strip_eq_filter quote f.name.toList
  · rw [List.forall₂_map_right_iff]
    exact List.forall₂_same.mpr fun row _ => recoversRow_rowLexemes _ row

/-- Delimiters in names, a quote, a backslash, a line break and NUL in a cell, a field that no source is
mapped to, a surplus cell and a short row. -/
theorem build_recovered_hostile :
    let mapping : Mapping := ⟨[("x", "na]me"), ("y", "n")], by decide⟩
    let fields : List Field :=
      [⟨"na]me", "VARCHAR(20)", true⟩, ⟨"other", "INT", true⟩, ⟨"n", "INT", true⟩]
    let rows : List Row :=
      [[.text " O'Reilly\\\n'), (1); --\x00 ", .text "-1.5e3", .text "x"], [.bool true]]
    let sql := "INSERT INTO [a; DROP b] ([name], [n]) VALUES\n" ++
      "('O''Reilly\\\\\\n''), (1); --', -1.5e3, 'x'),\n('true', NULL);"
    build .bracket "a]; DROP [b" mapping fields rows = .ok sql ∧
      ∃ r, readStatement .bracket sql = some r ∧
        Recovers .bracket "a]; DROP [b" (columns fields mapping) rows r :=
  ⟨by decide +kernel, build_recovered (by decide +kernel)⟩

end TableLoader.Insert
