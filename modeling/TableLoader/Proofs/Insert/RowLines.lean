import TableLoader.Proofs.Insert.Assembly
import TableLoader.Proofs.Text.Lines

/-! # One row, one line

No literal holds a raw line feed, carriage return, tab or NUL, so no cell can break the line of its row. A
statement is its header and one line for each row just where no name in the header holds a line feed. -/
namespace TableLoader

theorem Text.mem_intercalate_iff {x : Char} {sep : List Char} (hs : x ∉ sep) {ls : List (List Char)} :
    x ∈ sep.intercalate ls ↔ ∃ l ∈ ls, x ∈ l := by
  induction ls with
  | nil => simp [List.intercalate]
  | cons l ls ih =>
    by_cases he : ls = []
    · subst he
      simp
    · obtain ⟨next, ls, rfl⟩ := List.exists_cons_of_ne_nil he
      rw [List.intercalate_cons_cons, List.mem_append, List.mem_append, or_iff_left hs, ih]
      exact (List.exists_mem_cons_iff (x ∈ ·) l (next :: ls)).symm

namespace Insert

open Literal (IsLiteral)

/-- The characters that are never written raw into a tuple. -/
def rawControls : List Char := ['\n', '\r', '\t', '\x00']

theorem notMem_rawControls_of_isWordChar {c : Char} (h : isWordChar c = true) : c ∉ rawControls := by
  intro hc
  simp only [rawControls, List.mem_cons, List.not_mem_nil, or_false] at hc
  rcases hc with rfl | rfl | rfl | rfl <;> exact absurd h (by decide)

theorem notMem_rawControls_of_quoteChar {c x : Char} (h : x ∈ Literal.quoteChar c) : x ∉ rawControls := by
  unfold Literal.quoteChar at h
  split at h
  case h_3 => exact absurd h List.not_mem_nil
  case h_7 hb hq hz hn hr ht =>
    obtain rfl := List.mem_singleton.mp h
    simp only [rawControls, List.mem_cons, List.not_mem_nil, or_false, not_or]
    exact ⟨hn, hr, ht, hz⟩
  all_goals
    intro hx
    simp only [List.mem_cons, List.not_mem_nil, or_false] at h
    rcases h with rfl | rfl <;> exact absurd hx (by decide)

theorem notMem_rawControls_of_isLiteral {cs : List Char} (h : IsLiteral cs) : ∀ c ∈ cs, c ∉ rawControls := by
  intro c hc
  rcases h with ⟨-, hw⟩ | ⟨s, rfl⟩
  · exact notMem_rawControls_of_isWordChar (hw c hc)
  · simp only [Literal.quote, List.mem_cons, List.mem_append, List.mem_flatMap, List.not_mem_nil,
      or_false] at hc
    rcases hc with rfl | ⟨d, -, hd⟩ | rfl
    · decide
    · exact notMem_rawControls_of_quoteChar hd
    · decide

theorem notMem_rawControls_of_tuple (types : List SqlType) (row : Row) :
    ∀ c ∈ tuple (rowLiterals types row), c ∉ rawControls := by
  intro c hc hr
  have hsep : c ∉ separator := by
    intro hs
    simp only [separator, List.mem_cons, List.not_mem_nil, or_false] at hs
    rcases hs with rfl | rfl <;> exact absurd hr (by decide)
  simp only [tuple, List.mem_cons, List.mem_append, List.not_mem_nil, or_false,
    Text.mem_intercalate_iff hsep] at hc
  rcases hc with rfl | ⟨cs, hcs, hc⟩ | rfl
  · exact absurd hr (by decide)
  · exact notMem_rawControls_of_isLiteral (isLiteral_rowLiterals hcs) c hc hr
  · exact absurd hr (by decide)

/-- The mark behind the tuple of a row, which ends the statement behind the last one. -/
def mark (count i : Nat) : Char := if i + 1 = count then ';' else ','

def markedLines : List (List Char) → List (List Char)
  | [] => []
  | [last] => [last ++ [';']]
  | t :: next :: ts => (t ++ [',']) :: markedLines (next :: ts)

theorem getElem?_markedLines (ts : List (List Char)) (i : Nat) :
    (markedLines ts)[i]? = ts[i]?.map fun t => t ++ [mark ts.length i] := by
  induction ts generalizing i with
  | nil => rfl
  | cons t ts ih =>
    cases ts with
    | nil => cases i <;> simp [markedLines, mark]
    | cons next ts =>
      cases i with
      | zero => simp [markedLines, mark]
      | succ i => simpa [markedLines, mark] using ih i

theorem length_markedLines (ts : List (List Char)) : (markedLines ts).length = ts.length := by
  induction ts with
  | nil => rfl
  | cons t ts ih =>
    cases ts with
    | nil => rfl
    | cons next ts => simpa [markedLines] using ih

theorem markedLines_ne_nil {ts : List (List Char)} (h : ts ≠ []) : markedLines ts ≠ [] := by
  intro hnil
  have hlen := length_markedLines ts
  rw [hnil] at hlen
  exact h (List.length_eq_zero_iff.mp hlen.symm)

theorem intercalate_eq_joinLines {ts : List (List Char)} (h : ts ≠ []) :
    [',', '\n'].intercalate ts ++ [';'] = Text.joinLines (markedLines ts) := by
  induction ts with
  | nil => exact absurd rfl h
  | cons t ts ih =>
    by_cases he : ts = []
    · subst he
      simp [markedLines, Text.joinLines]
    · have hm := markedLines_ne_nil he
      obtain ⟨next, ts, rfl⟩ := List.exists_cons_of_ne_nil he
      rw [List.intercalate_cons_cons, List.append_assoc, List.append_assoc, ih he, markedLines,
        Text.joinLines_cons hm]
      simp

theorem newline_mem_quoteName_iff (quote : IdentifierQuote) (name : List Char) :
    '\n' ∈ quoteName quote name ↔ '\n' ∈ name := by
  cases quote <;> simp [quoteName, strip, IdentifierQuote.delimiters]

def closingMark : List Char := ") VALUES".toList

theorem header_eq (quote : IdentifierQuote) (table : String) (names : List String) :
    header quote table names =
      intoMark ++ (quoteName quote table.toList ++ (columnsMark ++
        (separator.intercalate (names.map fun n => quoteName quote n.toList) ++ closingMark))) := by
  unfold header
  simp only [List.append_assoc]
  rfl

theorem newline_mem_header_iff (quote : IdentifierQuote) (table : String) (names : List String) :
    '\n' ∈ header quote table names ↔ '\n' ∈ table.toList ∨ ∃ n ∈ names, '\n' ∈ n.toList := by
  have hinto : '\n' ∉ intoMark := by decide
  have hopen : '\n' ∉ columnsMark := by decide
  have hclosing : '\n' ∉ closingMark := by decide
  have hsep : '\n' ∉ separator := by decide
  simp only [header_eq, List.mem_append, hinto, hopen, hclosing, newline_mem_quoteName_iff,
    Text.mem_intercalate_iff hsep, List.mem_map, false_or, or_false, exists_exists_and_eq_and]

theorem getLast?_header (quote : IdentifierQuote) (table : String) (names : List String) :
    (header quote table names).getLast? = some 'S' := by
  have hclosing : closingMark = ") VALUE".toList ++ ['S'] := rfl
  rw [header_eq, hclosing]
  simp only [← List.append_assoc, List.getLast?_concat]

/-- The lines of a statement: its header, and for each row its tuple with a mark behind it. -/
structure LinePerRow (quote : IdentifierQuote) (table : String) (cols : List Field) (rows : List Row)
    (lines : List (List Char)) : Prop where
  count : lines.length = rows.length + 1
  first : lines[0]? = some (header quote table (cols.map Field.name))
  values : ") VALUES".toList <:+ header quote table (cols.map Field.name)
  own : ∀ (i : ℕ) (row : Row), rows[i]? = some row → ∃ lexemes,
    lines[i + 1]? = some (tuple (rowLiterals (cols.map Field.sqlType) row) ++ [mark rows.length i]) ∧
      readTuple (tuple (rowLiterals (cols.map Field.sqlType) row)) = some (lexemes, []) ∧
      RecoversRow cols row lexemes

theorem readTuple_tuple {cols : List Field} (hc : cols ≠ []) (row : Row) :
    readTuple (tuple (rowLiterals (cols.map Field.sqlType) row)) = some (rowLexemes cols row, []) := by
  have ht : cols.map Field.sqlType ≠ [] := by simpa using hc
  have h := readTupleBy_tuple (rowLiterals_ne_nil ht row)
    (fun cs hcs rest hr => readLiteral_append (isLiteral_rowLiterals hcs) hr) []
  rw [List.append_nil] at h
  exact h

theorem lines_statement {quote : IdentifierQuote} {table : String} {cols : List Field} {rows : List Row}
    (hr : rows ≠ []) (hn : '\n' ∉ header quote table (cols.map Field.name)) :
    Text.lines (statement quote table cols rows) =
      header quote table (cols.map Field.name) ::
        markedLines (rows.map fun row => tuple (rowLiterals (cols.map Field.sqlType) row)) := by
  have hts : rows.map (fun row => tuple (rowLiterals (cols.map Field.sqlType) row)) ≠ [] := by simpa using hr
  rw [statement, intercalate_eq_joinLines hts, ← Text.joinLines_cons (markedLines_ne_nil hts)]
  apply Text.lines_joinLines_of_whole
  intro line hline
  rcases List.mem_cons.mp hline with rfl | hline
  · have hlast := getLast?_header quote table (cols.map Field.name)
    refine ⟨hn, ?_, ?_⟩
    · intro he
      rw [he] at hlast
      exact absurd hlast (by simp)
    · rw [hlast]
      decide
  · obtain ⟨i, hi⟩ := List.mem_iff_getElem?.mp hline
    rw [getElem?_markedLines] at hi
    obtain ⟨t, ht, rfl⟩ := Option.map_eq_some_iff.mp hi
    obtain ⟨row, -, rfl⟩ := List.mem_map.mp (List.mem_of_getElem? ht)
    have hmark : ∀ x, mark x i ≠ '\n' ∧ mark x i ≠ '\r' := by
      intro x
      unfold mark
      split <;> decide
    refine ⟨?_, ?_, ?_⟩
    · intro hmem
      rcases List.mem_append.mp hmem with hmem | hmem
      · exact notMem_rawControls_of_tuple _ row '\n' hmem (by decide)
      · exact (hmark _).1 (List.mem_singleton.mp hmem).symm
    · simp
    · simpa using (hmark _).2

/-- A statement has one line for its header and one for each row just where no name in the header holds a line
feed. What the rows hold does not matter: no tuple has a raw control character in it. -/
theorem build_linePerRow {quote : IdentifierQuote} {table : String} {mapping : Mapping}
    {fields : List Field} {rows : List Row} {sql : String}
    (h : build quote table mapping fields rows = .ok sql) :
    (∀ row ∈ rows, ∀ c ∈ tuple (rowLiterals ((columns fields mapping).map Field.sqlType) row),
      c ∉ ['\n', '\r', '\t', '\x00']) ∧
    (LinePerRow quote table (columns fields mapping) rows (Text.lines sql.toList) ↔
      '\n' ∉ table.toList ∧ ∀ f ∈ columns fields mapping, '\n' ∉ f.name.toList) := by
  obtain ⟨hr, hc, rfl⟩ := build_eq_ok_iff.mp h
  rw [String.toList_ofList]
  refine ⟨fun row _ => notMem_rawControls_of_tuple _ row, ?_⟩
  have hheader : '\n' ∉ header quote table ((columns fields mapping).map Field.name) ↔
      '\n' ∉ table.toList ∧ ∀ f ∈ columns fields mapping, '\n' ∉ f.name.toList := by
    rw [newline_mem_header_iff, not_or]
    simp
  rw [← hheader]
  constructor
  · intro hl hn
    exact (Text.mem_of_mem_lines (List.mem_of_getElem? hl.first) hn).2 rfl
  · intro hn
    rw [lines_statement hr hn]
    constructor
    · rw [List.length_cons, length_markedLines, List.length_map]
    · rfl
    · exact List.suffix_append _ _
    · intro i row hi
      refine ⟨rowLexemes (columns fields mapping) row, ?_, readTuple_tuple hc row,
        recoversRow_rowLexemes _ row⟩
      rw [List.getElem?_cons_succ, getElem?_markedLines, List.getElem?_map, hi, List.length_map]
      rfl

/-- Line breaks of both kinds, a tab and NUL in the cells, and a carriage return and a tab in the names. -/
theorem build_linePerRow_hostile :
    let mapping : Mapping := ⟨[("x", "no\tte"), ("y", "n")], by decide⟩
    let fields : List Field := [⟨"no\tte", "TEXT", true⟩, ⟨"n", "INT", true⟩]
    let rows : List Row := [[.text "a\r\nb\x00", .text "\n7\t", .text "x'),\n("], [.bool true]]
    let sql := "INSERT INTO [log\r] ([no\tte], [n]) VALUES\n" ++
      "('a\\r\\nb', 7, 'x''),\\n('),\n('true', NULL);"
    build .bracket "log\r" mapping fields rows = .ok sql ∧
      ('\n' ∉ "log\r".toList ∧ ∀ f ∈ columns fields mapping, '\n' ∉ f.name.toList) ∧
      LinePerRow .bracket "log\r" (columns fields mapping) rows (Text.lines sql.toList) := by
  intro mapping fields rows sql
  have hb : build .bracket "log\r" mapping fields rows = .ok sql := by decide +kernel
  have hn : '\n' ∉ "log\r".toList ∧ ∀ f ∈ columns fields mapping, '\n' ∉ f.name.toList := by
    decide +kernel
  exact ⟨hb, hn, (build_linePerRow hb).2.mpr hn⟩

end Insert

end TableLoader
