import TableLoader.Proofs.Insert.Assembly
import TableLoader.Service

/-! # Cells under their columns

The check of a request pairs the cells of a row with all fields, while its statement pairs them with those
fields alone that the mapping targets. The two pairings agree exactly where the mapping targets every field. -/
open TableLoader.Insert (Lexeme Reading readStatement columns typeAt cellAt rowLexemes)

namespace TableLoader.Request

/-- A statement is written for a request that names a table, maps something, has rows and, unless the check
is off, has no faults. -/
theorem generate_eq_ok_iff {s : Settings} {r : Request} {sql : String} :
    r.generate s = .ok sql ↔
      r.table ≠ "" ∧ r.mapping.isEmpty = false ∧
        (s.validateBeforeGenerate = true → r.fields ≠ [] → r.faults = []) ∧
        Insert.build s.identifierQuote r.table r.mapping r.fields r.rows = .ok sql := by
  unfold generate
  split
  · next h => simp [h]
  · next ht =>
    split
    · next h => simp [h]
    · next hm =>
      have hm : r.mapping.isEmpty = false := by simpa using hm
      split
      · next h => simp [h, Insert.build_eq_ok_iff]
      · split
        · next h => simp [h.1, h.2.1, h.2.2]
        · next h =>
          have hv : s.validateBeforeGenerate = true → r.fields ≠ [] → r.faults = [] := by
            intro hs hf
            by_contra hn
            exact h ⟨hs, hf, hn⟩
          cases hb : Insert.build s.identifierQuote r.table r.mapping r.fields r.rows with
          | ok out => simpa [ht, hm] using fun _ => hv
          | error fault => simp

/-- The statement of a request reads as its own rows under the columns that the mapping targets. -/
theorem read_generate {s : Settings} {r : Request} {sql : String} (h : r.generate s = .ok sql) :
    r.rows ≠ [] ∧ ∃ reading : Reading, readStatement s.identifierQuote sql = some reading ∧
      reading.columns.length = (columns r.fields r.mapping).length ∧
      reading.tuples = r.rows.map (rowLexemes (columns r.fields r.mapping)) := by
  obtain ⟨-, -, -, hb⟩ := generate_eq_ok_iff.mp h
  obtain ⟨hr, hc, rfl⟩ := Insert.build_eq_ok_iff.mp hb
  exact ⟨hr, _, Insert.readStatement_statement _ _ hc hr, by simp, rfl⟩

/-- The place of a field in the list of columns. -/
def columnIndex (r : Request) (k : Nat) : Nat := (columns (r.fields.take k) r.mapping).length

/-- Every tuple is as wide as the list of columns, and the value in a column is the cell that stands in the
row where the column's field stands in the request, written under that field. -/
structure Aligned (r : Request) (reading : Reading) : Prop where
  width : ∀ tuple ∈ reading.tuples, tuple.length = reading.columns.length
  own : ∀ (j : ℕ) (row : Row) (tuple : List Lexeme),
    r.rows[j]? = some row → reading.tuples[j]? = some tuple →
    ∀ (k : ℕ) (field : Field), r.fields[k]? = some field → r.mapping.hasTarget field.name = true →
      ∃ (cell : Cell) (lexeme : Lexeme), row[k]? = some cell ∧ tuple[r.columnIndex k]? = some lexeme ∧
        lexeme.text = Literal.format field.sqlType cell

theorem columns_eq_self_iff {fields : List Field} {mapping : Mapping} :
    columns fields mapping = fields ↔ ∀ f ∈ fields, mapping.hasTarget f.name = true :=
  List.filter_eq_self

theorem columns_take_eq_self {fields : List Field} {mapping : Mapping}
    (h : ∀ f ∈ fields, mapping.hasTarget f.name = true) (k : Nat) :
    columns (fields.take k) mapping = fields.take k :=
  columns_eq_self_iff.mpr fun f hf => h f (List.mem_of_mem_take hf)

theorem length_rowLexemes (cols : List Field) (row : Row) :
    (rowLexemes cols row).length = max row.length cols.length :=
  (Insert.recoversRow_rowLexemes cols row).length

/-- Cells stay under their own columns exactly where every field is a column. A field that is left out makes
each tuple wider than the list of columns. -/
theorem aligned_iff_all_targeted {s : Settings} {r : Request} {sql : String}
    (hrows : ∀ row ∈ r.rows, row.length = r.fields.length) (h : r.generate s = .ok sql) :
    ∃ reading, readStatement s.identifierQuote sql = some reading ∧
      (Aligned r reading ↔ ∀ f ∈ r.fields, r.mapping.hasTarget f.name = true) := by
  obtain ⟨hr, reading, hread, hcols, htuples⟩ := read_generate h
  refine ⟨reading, hread, ?_, ?_⟩
  · intro ha
    obtain ⟨row, rows, he⟩ := List.exists_cons_of_ne_nil hr
    have hmem : row ∈ r.rows := by simp [he]
    have hw := ha.width (rowLexemes (columns r.fields r.mapping) row)
      (by rw [htuples]; exact List.mem_map_of_mem hmem)
    rw [hcols, length_rowLexemes, hrows row hmem] at hw
    have hlen : (columns r.fields r.mapping).length = r.fields.length := by
      have : (columns r.fields r.mapping).length ≤ r.fields.length := List.length_filter_le _ _
      omega
    exact columns_eq_self_iff.mp (List.filter_sublist.eq_of_length hlen)
  · intro hall
    have hself := columns_eq_self_iff.mpr hall
    rw [hself] at hcols htuples
    constructor
    · intro tuple ht
      rw [htuples] at ht
      obtain ⟨row, hrow, rfl⟩ := List.mem_map.mp ht
      rw [length_rowLexemes, hrows row hrow, hcols, max_self]
    · intro j row tuple hj htj k field hk _
      have hrow := hrows row (List.mem_of_getElem? hj)
      obtain ⟨hkl, hke⟩ := List.getElem?_eq_some_iff.mp hk
      have hkr : k < row.length := by omega
      have hkw : k < max row.length r.fields.length := by omega
      rw [htuples, List.getElem?_map, hj] at htj
      rw [← Option.some.inj htj, columnIndex, columns_take_eq_self hall,
        List.length_take_of_le hkl.le]
      refine ⟨row[k], .ofLiteral (Literal.format (typeAt r.fields k) (cellAt row k)),
        List.getElem?_eq_getElem hkr, ?_, ?_⟩
      · rw [Insert.getElem?_rowLexemes, if_pos hkw]
      · rw [Insert.text_ofLiteral (Literal.isLiteral_format _ _)]
        simp [typeAt, cellAt, hkr, hk]

def fullRequest : Request where
  table := "users"
  mapping := ⟨[("A", "name"), ("B", "id")], by decide⟩
  rows := [[.text " 7", .text "Ada", .null], [.text "8", .null, .text "O'Brien"]]
  fields := [⟨"id", "INT", false⟩, ⟨"name", "VARCHAR(9)", true⟩, ⟨"name", "TEXT", true⟩]

theorem aligned_fullRequest :
    (∀ row ∈ fullRequest.rows, row.length = fullRequest.fields.length) ∧
      ∃ sql, fullRequest.generate {} = .ok sql ∧
        ∃ reading, readStatement .backtick sql = some reading ∧
          (Aligned fullRequest reading ↔
            ∀ f ∈ fullRequest.fields, fullRequest.mapping.hasTarget f.name = true) := by
  have hrows : ∀ row ∈ fullRequest.rows, row.length = fullRequest.fields.length := by
    simp [fullRequest]
  have h : fullRequest.generate {} = .ok ("INSERT INTO \x60users\x60 (\x60id\x60, \x60name\x60, " ++
      "\x60name\x60) VALUES\n(7, 'Ada', NULL),\n(8, NULL, 'O''Brien');") := by decide +kernel
  exact ⟨hrows, _, h, aligned_iff_all_targeted hrows h⟩

def gapRequest : Request where
  table := "t"
  mapping := ⟨[("A", "a"), ("C", "c")], by decide⟩
  rows := [[.number (.natural ⟨1, by decide⟩), .number (.natural ⟨2, by decide⟩),
    .number (.natural ⟨3, by decide⟩)]]
  fields := [⟨"a", "INT", true⟩, ⟨"b", "INT", true⟩, ⟨"c", "INT", true⟩]

/-- The second cell lands under the third field, and the third cell under no column at all. -/
theorem gapRequest_misaligned :
    (∀ row ∈ gapRequest.rows, row.length = gapRequest.fields.length) ∧
      gapRequest.generate {} =
        .ok "INSERT INTO \x60t\x60 (\x60a\x60, \x60c\x60) VALUES\n(1, 2, '3');" ∧
      ∃ reading, readStatement .backtick
          "INSERT INTO \x60t\x60 (\x60a\x60, \x60c\x60) VALUES\n(1, 2, '3');" = some reading ∧
        ¬ Aligned gapRequest reading := by
  have hrows : ∀ row ∈ gapRequest.rows, row.length = gapRequest.fields.length := by
    simp [gapRequest]
  have h : gapRequest.generate {} =
      .ok "INSERT INTO \x60t\x60 (\x60a\x60, \x60c\x60) VALUES\n(1, 2, '3');" := by decide +kernel
  obtain ⟨-, reading, hread, hcols, htuples⟩ := read_generate h
  refine ⟨hrows, h, reading, hread, fun ha => ?_⟩
  have hw := ha.width _ (by rw [htuples]; exact List.mem_map_of_mem (List.mem_cons_self ..))
  rw [hcols, length_rowLexemes] at hw
  exact absurd hw (by decide +kernel)

end TableLoader.Request
