import TableLoader.Proofs.Dump.Layout

/-! # The round trip of a MySQL dump

Every dump in the layout of its tool is read back as exactly its tables, whatever other lines stand around
them. Each line between the first and the last one of a table is inert and holds one clause. -/
namespace TableLoader.Dump

/-- A line that the splitter of lines keeps, inside a table and without a mark of its beginning or end. -/
structure IsBodyLine (line : Line) : Prop where
  newline : '\n' ∉ line
  whole : line ≠ [] ∧ line.getLast? ≠ some '\r'
  inner : isHeader line = false ∧ nesting line = 0

namespace Item

theorem isClause (i : Item) : IsClause i.clause :=
  ⟨i.ne_nil, i.tight, i.inert.balanced, i.inert.commas⟩

theorem notMem_indent (i : Item) {x : Char} (h : x ≠ ' ') : x ∉ List.replicate i.indent ' ' :=
  fun hm => h (List.eq_of_mem_replicate hm)

theorem blank_indent (i : Item) : ∀ c ∈ List.replicate i.indent ' ', Text.isBlank c = true := by
  intro c hc
  rw [List.eq_of_mem_replicate hc]
  decide

theorem trim_line_append (i : Item) {comma : List Char} (h : comma = [] ∨ comma = [',']) :
    Text.trim (i.line ++ comma) = i.clause ++ comma := by
  rw [line, List.append_assoc, Text.trim_append_of_blank i.blank_indent]
  rcases h with rfl | rfl
  · rw [List.append_nil, i.tight.trim]
  · exact i.isClause.tight_comma.trim

theorem isHeader_line_append (i : Item) {comma : List Char} (h : comma = [] ∨ comma = [',']) :
    isHeader (i.line ++ comma) = false := by
  rw [isHeader_eq, i.trim_line_append h]
  rcases h with rfl | rfl
  · rw [List.append_nil, i.inert.headless]
  · rw [saysCreateTable_append_cons rfl (by decide), i.inert.headless]
    rfl

theorem isBodyLine_append (i : Item) {comma : List Char} (h : comma = [] ∨ comma = [',']) :
    IsBodyLine (i.line ++ comma) where
  newline := by
    have hi := i.notMem_indent (show '\n' ≠ ' ' by decide)
    rcases h with rfl | rfl <;> simp [line, hi, i.inert.newline]
  whole := by
    refine ⟨by simp [line, i.ne_nil], ?_⟩
    rcases h with rfl | rfl
    · rw [List.append_nil, line, List.getLast?_append_of_ne_nil _ i.ne_nil]
      exact fun hl => absurd (i.tight.last _ hl) (by decide)
    · rw [List.getLast?_concat]
      decide
  inner := by
    refine ⟨i.isHeader_line_append h, ?_⟩
    have hi := nesting_eq_zero (i.notMem_indent (show '(' ≠ ' ' by decide))
      (i.notMem_indent (show ')' ≠ ' ' by decide))
    have hc : nesting comma = 0 := by rcases h with rfl | rfl <;> rfl
    rw [line, nesting_append, nesting_append, hi, i.inert.balanced, hc]
    rfl

theorem lineClauses_append (i : Item) {comma : List Char} (h : comma = [] ∨ comma = [',']) :
    lineClauses (i.line ++ comma) = [i.clause] := by
  rw [line, List.append_assoc]
  exact lineClauses_clause i.blank_indent i.isClause h

end Item

theorem isBodyLine_itemLines (items : List Item) : ∀ line ∈ itemLines items, IsBodyLine line := by
  fun_induction itemLines items with
  | case1 => simp
  | case2 i => simpa using i.isBodyLine_append (Or.inl rfl)
  | case3 i j items ih => exact List.forall_mem_cons.mpr ⟨i.isBodyLine_append (Or.inr rfl), ih⟩

theorem flatMap_lineClauses (items : List Item) :
    (itemLines items).flatMap lineClauses = items.map Item.clause := by
  fun_induction itemLines items with
  | case1 => rfl
  | case2 i => simpa using i.lineClauses_append (Or.inl rfl)
  | case3 i j items ih =>
    rw [List.flatMap_cons, i.lineClauses_append (Or.inr rfl), ih]
    rfl

theorem itemLines_ne_nil {items : List Item} (h : items ≠ []) : itemLines items ≠ [] := by
  fun_cases itemLines items <;> simp_all

theorem isHeader_createMark_append (rest : List Char) : isHeader (createMark ++ rest) = true := by
  have hw : Text.trim (createMark ++ rest) = "CREATE TABLE".toList ++ Text.trimEnd (' ' :: rest) :=
    Text.trimEnd_append (a := "CREATE TABLE".toList) rfl (by decide) _
  have hu : Text.toUpper "CREATE TABLE".toList = "CREATE TABLE".toList := by decide +kernel
  rw [isHeader_eq, hw, saysCreateTable, Text.toUpper_append, hu, Text.holds_iff_infix]
  exact (List.prefix_append _ _).isInfix

namespace TableText

theorem mem_name (t : TableText) {c : Char} (h : c ∈ t.name.toList) :
    c.isAlphanum = true ∨ c = '_' := by
  simpa using List.all_eq_true.mp t.name_plain c h

theorem name_notMem (t : TableText) {x : Char} (hx : x.isAlphanum = false ∧ x ≠ '_') :
    x ∉ t.name.toList := by
  intro hm
  rcases t.mem_name hm with h | h
  · rw [hx.1] at h
    exact Bool.false_ne_true h
  · exact hx.2 h

theorem items_ne_nil (t : TableText) : t.items ≠ [] := by
  simp [items, t.columns_ne]

theorem afterWords_createMark (rest : List Char) :
    afterWords ["create", "table"] (createMark ++ rest) = some (Text.trimStart rest) := rfl

theorem afterWords_guardMark (rest : List Char) :
    afterWords ["if", "not", "exists"] (guardMark ++ rest) = some (Text.trimStart rest) := rfl

theorem trimStart_guardMark (rest : List Char) :
    Text.trimStart (guardMark ++ rest) = guardMark ++ rest := rfl

theorem trimStart_quoted (name rest : List Char) :
    Text.trimStart (quoted [] name rest) = quoted [] name rest := rfl

theorem afterWords_quoted (name rest : List Char) :
    afterWords ["if", "not", "exists"] (quoted [] name rest) = none := rfl

theorem quoted_append (front name rest more : List Char) :
    quoted front name rest ++ more = quoted front name (rest ++ more) := by
  simp [quoted]

theorem backtickName?_quoted (t : TableText) (rest : List Char) :
    backtickName? (quoted [] t.name.toList rest) = some t.name.toList := by
  have hw : ∀ c ∈ t.name.toList, isNameChar c = true := by
    intro c hc
    rcases t.mem_name hc with h | h <;> simp [isNameChar, h]
  have hq : isNameChar '\x60' = false := by decide
  simp [quoted, backtickName?, takeName, List.takeWhile_append_of_pos hw, hq, t.name_ne]

theorem nameHere?_front (t : TableText) (rest : List Char) :
    nameHere? backtickName? (t.front ++ rest) = some t.name.toList := by
  rw [front, List.append_assoc, List.append_assoc, quoted_append, nameHere?, afterWords_createMark,
    Option.bind_some]
  unfold guard
  -- A backtick cannot begin the words of the guard, so without it the name is read at once.
  split
  · rw [trimStart_guardMark, afterWords_guardMark, Option.bind_some, trimStart_quoted,
      backtickName?_quoted, Option.some_or]
  · rw [List.nil_append, trimStart_quoted, afterWords_quoted, Option.bind_none, Option.none_or,
      backtickName?_quoted]

theorem findName?_front (t : TableText) (rest : List Char) :
    findName? backtickName? (t.front ++ rest) = some t.name.toList := by
  have h := t.nameHere?_front rest
  have hne : t.front ++ rest ≠ [] := by simp [front, quoted]
  obtain ⟨c, cs, hc⟩ := List.exists_cons_of_ne_nil hne
  rw [hc] at h ⊢
  rw [findName?, h, Option.some_or]

def body (t : TableText) : List Char := '\n' :: (Text.joinLines (itemLines t.items) ++ ['\n'])

theorem joinLines_lines (t : TableText) :
    Text.joinLines t.lines = t.front ++ '(' :: (t.body ++ ')' :: back) := by
  rw [lines, Text.joinLines_cons (by simp),
    Text.joinLines_concat (itemLines_ne_nil t.items_ne_nil), body]
  simp

theorem fieldsOf_body (t : TableText) : fieldsOf t.body = t.columns.map Column.field := by
  have hb := isBodyLine_itemLines t.items
  rw [fieldsOf, body, clauses_body (itemLines_ne_nil t.items_ne_nil) fun l hl => (hb l hl).newline,
    flatMap_lineClauses, items]
  have hc : ((t.columns.map Column.item).map Item.clause).filterMap fieldOf? =
      t.columns.map Column.field := by
    rw [List.filterMap_map, List.filterMap_map, ← List.filterMap_eq_map]
    refine List.filterMap_congr fun c _ => ?_
    rw [Function.comp_apply, Function.comp_apply, c.clause_item, c.fieldOf?_clause]
    rfl
  have hk : ((t.keys.map fun k => k.2.item k.1).map Item.clause).filterMap fieldOf? = [] := by
    rw [List.map_map, List.filterMap_map, List.filterMap_eq_nil_iff]
    intro k _
    rw [Function.comp_apply, Function.comp_apply, k.2.clause_item, k.2.fieldOf?_clause]
  rw [List.map_append, List.filterMap_append, hc, hk, List.append_nil]

theorem notMem_front (t : TableText) {x : Char} (hm : x ∉ createMark ++ guardMark ++ ['\x60', ' '])
    (hx : x.isAlphanum = false ∧ x ≠ '_') : x ∉ t.front := by
  simp only [List.mem_append, List.mem_cons, List.not_mem_nil, or_false, not_or] at hm
  obtain ⟨⟨hc, hg⟩, hq, hb⟩ := hm
  have hg : x ∉ t.guard := by
    unfold guard
    split
    · exact hg
    · simp
  simp [front, quoted, hc, hg, hq, hb, t.name_notMem hx]

theorem tableOf?_lines (t : TableText) :
    tableOf? backtickName? (Text.joinLines t.lines) = some t.table := by
  have hf : '(' ∉ t.front := t.notMem_front (by decide) (by decide)
  have hb : ')' ∉ back := by decide
  rw [joinLines_lines, tableOf?, findName?_front, body?_append t.body hf hb]
  simp [fieldsOf_body, t.columns_ne, table]

theorem isHeader_front (t : TableText) : isHeader (t.front ++ ['(']) = true := by
  rw [front, List.append_assoc]
  exact isHeader_createMark_append _

theorem nesting_front (t : TableText) : nesting (t.front ++ ['(']) = 1 :=
  nesting_append_open (t.notMem_front (by decide) (by decide)) (t.notMem_front (by decide) (by decide))

theorem scan_lines (t : TableText) (rest : List Line) :
    scan .parenthesis [] 0 (t.lines ++ rest) = t.lines :: scan .parenthesis [] 0 rest := by
  have hi : ∀ line ∈ itemLines t.items, isHeader line = false ∧ nesting line = 0 :=
    fun line hl => (isBodyLine_itemLines t.items line hl).inner
  have hc : isHeader (')' :: back) = false := by decide +kernel
  have h := scan_statement t.isHeader_front t.nesting_front hi hc rfl
    (show Ending.parenthesis.allows (')' :: back) = true by decide) rest
  simpa [lines] using h

theorem newline_notMem_lines (t : TableText) : ∀ line ∈ t.lines, '\n' ∉ line := by
  rw [lines, List.forall_mem_cons, List.forall_mem_append, List.forall_mem_singleton]
  refine ⟨?_, fun line hl => (isBodyLine_itemLines t.items line hl).newline, by decide⟩
  have hf : '\n' ∉ t.front := t.notMem_front (by decide) (by decide)
  simp [hf]

theorem whole_lines (t : TableText) :
    ∀ line ∈ t.lines, line ≠ [] ∧ line.getLast? ≠ some '\r' := by
  rw [lines, List.forall_mem_cons, List.forall_mem_append, List.forall_mem_singleton]
  refine ⟨by simp, fun line hl => (isBodyLine_itemLines t.items line hl).whole, by decide⟩

end TableText

theorem scan_parts (parts : List Part) :
    scan .parenthesis [] 0 (Text.finishLines (parts.flatMap Part.lines)) =
      (parts.filterMap Part.tableText?).map TableText.lines := by
  -- Each part is scanned from outside a statement and leaves the scanner there.
  induction parts with
  | nil => rfl
  | cons part parts ih =>
    cases part with
    | table t =>
      rw [List.flatMap_cons, Part.lines, Text.finishLines_append t.whole_lines, t.scan_lines, ih]
      rfl
    | other line hn hh =>
      rw [List.flatMap_cons, Part.lines, List.singleton_append, scan_finishLines_skip hh, ih]
      rfl

theorem newline_notMem_parts (parts : List Part) :
    ∀ line ∈ parts.flatMap Part.lines, '\n' ∉ line := by
  intro line hl
  obtain ⟨part, -, hl⟩ := List.mem_flatMap.mp hl
  cases part with
  | table t => exact t.newline_notMem_lines line hl
  | other line' hn _ =>
    rw [List.mem_singleton.mp hl]
    exact hn

/-- A dump is read back as its tables, in order. -/
theorem mysqlTables_dumpText (parts : List Part) :
    mysqlTables (dumpText parts) = parts.filterMap Part.table? := by
  have hread : ∀ ts : List TableText,
      ((ts.map TableText.lines).map Text.joinLines).filterMap (tableOf? backtickName?) =
        ts.map TableText.table := by
    intro ts
    rw [List.filterMap_map, List.filterMap_map, ← List.filterMap_eq_map]
    exact List.filterMap_congr fun t _ => t.tableOf?_lines
  rw [mysqlTables, tablesBy, fragments, dumpText, String.toList_ofList,
    Text.lines_joinLines (newline_notMem_parts parts), scan_parts, hread, List.map_filterMap]
  rfl

/-- A table with both kinds of nullable columns and a comma inside a type. -/
def orders : TableText where
  name := "orders"
  guarded := true
  columns := [
    ⟨⟨"id", "int(11)", false⟩, false, by decide +kernel, by decide +kernel, by decide +kernel⟩,
    ⟨⟨"total", "decimal(10,2)", true⟩, true, by decide +kernel, by decide +kernel,
      by decide +kernel⟩,
    ⟨⟨"note", "text", true⟩, false, by decide +kernel, by decide +kernel, by decide +kernel⟩]
  keys := [
    (2, .primary (nameList ["id".toList]) (inert_nameList (by decide +kernel) (by decide))),
    (0, .foreign "fk".toList (nameList ["id".toList, "total".toList]) "bills".toList
      (nameList ["no".toList, "sum".toList]) (by decide +kernel)
      (inert_nameList (by decide +kernel) (by decide)) (by decide +kernel)
      (inert_nameList (by decide +kernel) (by decide)))]
  name_ne := by decide
  name_plain := by decide
  columns_ne := List.cons_ne_nil _ _

example : dumpText [.other "-- (dump,".toList (by decide) (by decide +kernel), .table orders] =
    "-- (dump,\nCREATE TABLE IF NOT EXISTS \x60orders\x60 (\n" ++
      "  \x60id\x60 int(11) NOT NULL,\n  \x60total\x60 decimal(10,2) DEFAULT NULL,\n" ++
      "  \x60note\x60 text,\n  PRIMARY KEY (\x60id\x60),\n" ++
      "CONSTRAINT \x60fk\x60 FOREIGN KEY (\x60id\x60,\x60total\x60) REFERENCES " ++
      "\x60bills\x60 (\x60no\x60,\x60sum\x60)\n) ENGINE=InnoDB;" := by decide +kernel

end TableLoader.Dump
