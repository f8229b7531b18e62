import TableLoader.Proofs.Dump.Concatenation
import TableLoader.Proofs.Dump.PlainGrammar

/-! # Agreement of the strategies

On dumps of plain tables the grammar and the pattern for MySQL find the same tables. The pattern scans the
lines of the dump up to the parenthesis that closes a table, the grammar the cleaned lines up to its
semicolon; both end at the same line, since what stands between backticks opens and closes nothing. -/
namespace TableLoader.Dump

namespace PlainTable

/-- The lines between the first and the last one. Without columns there is a blank one. -/
def bodyLines (t : PlainTable) : List Line := if t.items = [] then [[]] else itemLines t.items

def lines (t : PlainTable) : List Line := t.header :: (t.bodyLines ++ [closing])

theorem bodyLines_ne_nil (t : PlainTable) : t.bodyLines ≠ [] := by
  unfold bodyLines
  split
  · exact List.cons_ne_nil _ _
  · next h => exact itemLines_ne_nil h

theorem joinLines_bodyLines (t : PlainTable) :
    Text.joinLines t.bodyLines = Text.joinLines (itemLines t.items) := by
  unfold bodyLines
  split
  · next h => rw [h]; rfl
  · rfl

theorem joinLines_lines (t : PlainTable) : Text.joinLines t.lines =
    t.header ++ '\n' :: (Text.joinLines (itemLines t.items) ++ '\n' :: closing) := by
  rw [lines, Text.joinLines_cons (by simp), Text.joinLines_concat t.bodyLines_ne_nil,
    joinLines_bodyLines]

theorem text_eq (t : PlainTable) : t.text = Text.joinLines (t.lines ++ [[]]) := by
  have hne : t.lines ≠ [] := List.cons_ne_nil _ _
  rw [Text.joinLines_concat hne, joinLines_lines, text]
  simp

theorem getLast?_text (t : PlainTable) : t.text.getLast? = some '\n' := by
  have hne : t.lines ≠ [] := List.cons_ne_nil _ _
  rw [text_eq, Text.joinLines_concat hne, List.getLast?_concat]

theorem mem_bodyLines (t : PlainTable) : ∀ line ∈ t.bodyLines,
    '\n' ∉ line ∧ line.getLast? ≠ some '\r' ∧ isHeader line = false ∧ nesting line = 0 := by
  unfold bodyLines
  split
  · rw [List.forall_mem_singleton]
    exact ⟨by simp, by simp, by decide +kernel, rfl⟩
  · intro line hl
    have hb := isBodyLine_itemLines t.items line hl
    exact ⟨hb.newline, hb.whole.2, hb.inner⟩

theorem newline_notMem_lines (t : PlainTable) : ∀ line ∈ t.lines, '\n' ∉ line := by
  rw [lines, List.forall_mem_cons, List.forall_mem_append, List.forall_mem_singleton]
  refine ⟨?_, fun line hl => (t.mem_bodyLines line hl).1, by decide⟩
  have hf : '\n' ∉ t.frame.front := t.frame.notMem_front (by decide) (by decide)
  simp [header_eq, hf]

theorem lines_text (t : PlainTable) : Text.lines t.text = t.lines := by
  have hn : ∀ line ∈ t.lines ++ [[]], '\n' ∉ line := by
    rw [List.forall_mem_append, List.forall_mem_singleton]
    exact ⟨t.newline_notMem_lines, by simp⟩
  have hr : ∀ line ∈ t.lines, line.getLast? ≠ some '\r' := by
    rw [lines, List.forall_mem_cons, List.forall_mem_append, List.forall_mem_singleton]
    refine ⟨?_, fun line hl => (t.mem_bodyLines line hl).2.1, by decide⟩
    rw [header_eq, List.getLast?_concat]
    decide
  rw [text_eq, Text.lines_joinLines hn, Text.finishLines_append_of_ne_nil _ (by simp),
    List.map_congr_left fun line hl => Text.dropReturn_eq_self (hr line hl)]
  simp [Text.finishLines]

end PlainTable

theorem lines_plainDump (tables : List PlainTable) :
    Text.lines (plainDump tables).toList = tables.flatMap PlainTable.lines := by
  rw [plainDump, String.toList_ofList]
  induction tables with
  | nil => rfl
  | cons t tables ih =>
    rw [List.flatMap_cons, Text.lines_append (Or.inr t.getLast?_text), t.lines_text, ih]
    rfl

theorem isDirective_createMark_append (rest : List Char) :
    isDirective (createMark ++ rest) = false := by
  have ht : Text.trim (createMark ++ rest) = 'C' :: 'R' :: ("EATE TABLE".toList ++
      Text.trimEnd (' ' :: rest)) :=
    Text.trimEnd_append (a := "CREATE TABLE".toList) rfl (by decide) _
  rw [isDirective, ht]
  rfl

theorem Item.not_isDirective_append (i : Item) (hq : i.clause.head? = some '\x60')
    {comma : List Char} (h : comma = [] ∨ comma = [',']) : isDirective (i.line ++ comma) = false := by
  obtain ⟨more, hm⟩ := List.head?_eq_some_iff.mp hq
  rw [isDirective, i.trim_line_append h, hm]
  rfl

theorem not_isDirective_itemLines {items : List Item}
    (h : ∀ i ∈ items, i.clause.head? = some '\x60') :
    ∀ line ∈ itemLines items, isDirective line = false := by
  fun_induction itemLines items with
  | case1 => simp
  | case2 i =>
    have hi := i.not_isDirective_append (h i List.mem_cons_self) (Or.inl rfl)
    simpa using hi
  | case3 i j items ih =>
    obtain ⟨hi, hj⟩ := List.forall_mem_cons.mp h
    exact List.forall_mem_cons.mpr ⟨i.not_isDirective_append hi (Or.inr rfl), ih hj⟩

namespace PlainTable

theorem isHeader_header (t : PlainTable) : isHeader t.header = true :=
  t.header_eq ▸ t.frame.isHeader_front

theorem nesting_header (t : PlainTable) : nesting t.header = 1 :=
  t.header_eq ▸ t.frame.nesting_front

theorem scan_lines (t : PlainTable) (rest : List Line) :
    scan .parenthesis [] 0 (t.lines ++ rest) = t.lines :: scan .parenthesis [] 0 rest := by
  have hi : ∀ line ∈ t.bodyLines, isHeader line = false ∧ nesting line = 0 :=
    fun line hl => (t.mem_bodyLines line hl).2.2
  have hc : isHeader closing = false := by decide +kernel
  have h := scan_statement t.isHeader_header t.nesting_header hi hc rfl
    (show Ending.parenthesis.allows closing = true by decide) rest
  simpa [lines] using h

theorem scan_statementLines (t : PlainTable) (rest : List Line) :
    scan .terminator [] 0 (t.statementLines ++ rest) =
      t.statementLines :: scan .terminator [] 0 rest := by
  have hi : ∀ line ∈ itemLines t.items, isHeader line = false ∧ nesting line = 0 :=
    fun line hl => (isBodyLine_itemLines t.items line hl).inner
  have hc : isHeader closing = false := by decide +kernel
  have h := scan_statement t.isHeader_header t.nesting_header hi hc rfl
    (show Ending.terminator.allows closing = true by decide +kernel) rest
  simpa [statementLines] using h

theorem fieldsOf_body (t : PlainTable) :
    fieldsOf ('\n' :: (Text.joinLines (itemLines t.items) ++ ['\n'])) =
      t.columns.map PlainColumn.field := by
  by_cases h : t.columns = []
  · rw [items, h]
    rfl
  · have hf := (t.framed (t.columns.map PlainColumn.column) (by simpa using h)).fieldsOf_body
    simpa [TableText.body, TableText.items, framed, items, PlainColumn.column,
      Function.comp_def] using hf

/-- The pattern finds the table, unless it has no columns. -/
theorem tableOf?_lines (t : PlainTable) : tableOf? backtickName? (Text.joinLines t.lines) =
    if t.columns = [] then none else some t.table := by
  have hf : '(' ∉ t.frame.front := t.frame.notMem_front (by decide) (by decide)
  have hs : Text.joinLines t.lines = t.frame.front ++ '(' ::
      ('\n' :: (Text.joinLines (itemLines t.items) ++ ['\n']) ++ ')' :: [';']) := by
    rw [joinLines_lines, header_eq]
    simp [closing]
  have hn := t.frame.findName?_front
  rw [hs, tableOf?, hn, body?_append _ hf (by decide)]
  simp [fieldsOf_body, table, frame, framed]

theorem isDirective_header (t : PlainTable) : isDirective t.header = false :=
  isDirective_createMark_append _

theorem isDirective_itemLines (t : PlainTable) :
    ∀ line ∈ itemLines t.items, isDirective line = false := by
  refine not_isDirective_itemLines fun i hi => ?_
  obtain ⟨c, -, rfl⟩ := List.mem_map.mp hi
  rfl

theorem filter_lines (t : PlainTable) : t.lines.filter (!isDirective ·) = t.statementLines := by
  have hb : t.bodyLines.filter (!isDirective ·) = itemLines t.items := by
    unfold bodyLines
    split
    · next h => rw [h]; rfl
    · refine List.filter_eq_self.mpr fun line hl => ?_
      simp [t.isDirective_itemLines line hl]
  have hc : isDirective closing = false := by decide +kernel
  simp [lines, statementLines, t.isDirective_header, hb, hc]

theorem whole_statementLines (t : PlainTable) :
    ∀ line ∈ t.statementLines, line ≠ [] ∧ line.getLast? ≠ some '\r' := by
  rw [statementLines, List.forall_mem_cons, List.forall_mem_append, List.forall_mem_singleton]
  refine ⟨?_, fun line hl => (isBodyLine_itemLines t.items line hl).whole, by decide⟩
  simp [header_eq]

end PlainTable

theorem lines_clean_plainDump (tables : List PlainTable) :
    Text.lines (clean (plainDump tables).toList) = tables.flatMap PlainTable.statementLines := by
  have hk : kept (plainDump tables).toList = tables.flatMap PlainTable.statementLines := by
    rw [kept, lines_plainDump, List.filter_flatMap]
    exact List.flatMap_congr fun t _ => t.filter_lines
  have hw : ∀ line ∈ tables.flatMap PlainTable.statementLines,
      line ≠ [] ∧ line.getLast? ≠ some '\r' := by
    intro line hl
    obtain ⟨t, -, hl⟩ := List.mem_flatMap.mp hl
    exact t.whole_statementLines line hl
  rw [lines_clean, hk, Text.finishLines_eq_self hw]

theorem scan_flatMap {e : Ending} {lines : PlainTable → List Line}
    (h : ∀ t rest, scan e [] 0 (lines t ++ rest) = lines t :: scan e [] 0 rest)
    (tables : List PlainTable) : scan e [] 0 (tables.flatMap lines) = tables.map lines := by
  induction tables with
  | nil => rfl
  | cons t tables ih => rw [List.flatMap_cons, h, ih, List.map_cons]

/-- The tables with columns, of which alone either strategy makes tables. -/
def withColumns (tables : List PlainTable) : List PlainTable :=
  tables.filter (!·.columns.isEmpty)

theorem filterMap_withColumns (f : PlainTable → Table) (tables : List PlainTable) :
    tables.filterMap (fun t => if t.columns = [] then none else some (f t)) =
      (withColumns tables).map f := by
  induction tables with
  | nil => rfl
  | cons t tables ih =>
    by_cases h : t.columns = [] <;> simp_all [withColumns]

theorem mysqlTables_plainDump (tables : List PlainTable) :
    mysqlTables (plainDump tables) = (withColumns tables).map PlainTable.table := by
  rw [mysqlTables, tablesBy, fragments, lines_plainDump, scan_flatMap PlainTable.scan_lines,
    List.map_map, List.filterMap_map, ← filterMap_withColumns]
  exact List.filterMap_congr fun t _ => t.tableOf?_lines

namespace PlainTable

def capitalized (t : PlainTable) : Table :=
  ⟨t.name, t.columns.map fun c => .ofColumn c.definition⟩

theorem tableOfStatement?_definition (t : PlainTable) :
    tableOfStatement? (.createTable t.definition) =
      if t.columns = [] then none else some t.capitalized := by
  have ht : Table.ofDefinition t.definition = t.capitalized := by
    simp [Table.ofDefinition, definition, Sql.TableDefinition.columns, capitalized,
      List.filterMap_map, Function.comp_def, Sql.TableItem.column?]
  rw [tableOfStatement?, ht]
  simp [capitalized]

end PlainTable

/-- Every reader that takes the statement of a plain table for that table finds the same tables. -/
theorem tablesReadBy_plainDump {read? : List Char → Option (List Sql.Statement)}
    (hr : ∀ t : PlainTable, read? (Text.joinLines t.statementLines) =
      some [.createTable t.definition]) (tables : List PlainTable) :
    tablesReadBy read? (plainDump tables) = (withColumns tables).map PlainTable.capitalized := by
  rw [tablesReadBy, fragments, lines_clean_plainDump, scan_flatMap PlainTable.scan_statementLines,
    List.map_map, List.flatMap_map, ← filterMap_withColumns, List.filterMap_eq_flatMap_toList]
  refine List.flatMap_congr fun t _ => ?_
  rw [Function.comp_apply, hr, Option.getD_some, ← t.tableOfStatement?_definition]
  cases h : tableOfStatement? (.createTable t.definition) <;> simp [h]

/-- Two fields that differ in nothing but the case of their types. -/
structure SameField (f g : Field) : Prop where
  name : f.name = g.name
  nullable : f.nullable = g.nullable
  declaredType : Text.equalsIgnoringCase f.declaredType.toList g.declaredType.toList = true
  category : f.sqlType.category = g.sqlType.category
  maxLength : f.sqlType.maxLength = g.sqlType.maxLength
  intWidth : f.sqlType.intWidth = g.sqlType.intWidth

structure SameTable (t u : Table) : Prop where
  name : t.name = u.name
  fields : List.Forall₂ SameField t.fields u.fields

/-- What a type says does not depend on the case of its letters. -/
theorem sameField_of_declaredType {f g : Field} (hn : f.name = g.name)
    (hnull : f.nullable = g.nullable)
    (hd : Text.equalsIgnoringCase f.declaredType.toList g.declaredType.toList = true) :
    SameField f g := by
  have hl := Text.toLower_congr hd
  refine ⟨hn, hnull, hd, ?_, ?_, ?_⟩
  · simp only [Field.sqlType, SqlType.parse, hl]
  · simp only [Field.sqlType, SqlType.parse, hl]
  · simp only [Field.sqlType, SqlType.parse, hl]

theorem PlainColumn.sameField (c : PlainColumn) : SameField (.ofColumn c.definition) c.field := by
  refine sameField_of_declaredType rfl ?_ ?_
  · cases hn : c.nullable <;> simp [Field.ofColumn, definition, field, hn]
  · have hc := Text.equalsIgnoringCase_append c.cased c.type.measureText
    rw [Text.equalsIgnoringCase, beq_iff_eq] at hc ⊢
    simpa [Field.ofColumn, definition, field, declared, Sql.PlainType.render_dataType] using hc.symm

theorem PlainTable.sameTable (t : PlainTable) : SameTable t.capitalized t.table where
  name := rfl
  fields := by
    rw [capitalized, table, List.forall₂_map_left_iff, List.forall₂_map_right_iff, List.forall₂_same]
    exact fun c _ => c.sameField

/-- On a dump of plain tables the grammar and the pattern find the same tables, but for the case of types;
the pattern finds the tables as the dump spells them. -/
theorem grammarTables_same_mysqlTables (tables : List PlainTable) :
    List.Forall₂ SameTable (grammarTables .mysql (plainDump tables))
      (mysqlTables (plainDump tables)) ∧
    mysqlTables (plainDump tables) = (withColumns tables).map PlainTable.table := by
  have hg := tablesReadBy_plainDump PlainTable.statements?_statementLines tables
  have hm := mysqlTables_plainDump tables
  refine ⟨?_, hm⟩
  rw [grammarTables, hg, hm, List.forall₂_map_left_iff, List.forall₂_map_right_iff,
    List.forall₂_same]
  exact fun t _ => t.sameTable

def readings : PlainTable where
  name := "readings_2"
  columns := [
    ⟨"create-table;'", .sized "INT" 11 (by decide) (by decide), "int", false, by decide +kernel,
      by decide +kernel⟩,
    ⟨"--\"", .decimal 10 2 (by decide) (by decide), "Decimal", true, by decide +kernel,
      by decide +kernel⟩]
  name_ne := by decide
  name_plain := by decide

example : plainDump [readings] = "CREATE TABLE \x60readings_2\x60 (\n" ++
    "  \x60create-table;'\x60 int(11) NOT NULL,\n  \x60--\"\x60 Decimal(10,2)\n);\n" := by
  decide +kernel

end TableLoader.Dump
