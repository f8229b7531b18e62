import TableLoader.Proofs.Dump.Concatenation
import TableLoader.Proofs.Dump.CutShort
import TableLoader.Proofs.Dump.FirstWords
import TableLoader.Proofs.Dump.ReportedName

/-! # Columns with plain names

A column whose name stands without quotes is told from a constraint by its first word alone. Most beginnings of
constraints hold a blank, so that only the word itself announces one; two hold none, and every column whose name
begins like them is taken for a constraint. A name and a type that meet in the words of a header are taken for
one, and cut the table in two. -/
namespace TableLoader.Dump

structure IsPlainName (cs : List Char) : Prop where
  ne_nil : cs ≠ []
  plain : ∀ c ∈ cs, c.isAlphanum = true ∨ c = '_'

instance (cs : List Char) : Decidable (IsPlainName cs) :=
  decidable_of_iff (cs ≠ [] ∧ cs.all (fun c => c.isAlphanum || c == '_') = true)
    ⟨fun h => ⟨h.1, by simpa using h.2⟩, fun h => ⟨h.1, by simpa using h.2⟩⟩

theorem IsPlainName.notMem {cs : List Char} (h : IsPlainName cs) {x : Char}
    (hx : x.isAlphanum = false ∧ x ≠ '_') : x ∉ cs := by
  intro hm
  rcases h.plain x hm with hp | rfl
  · simp [hx.1] at hp
  · exact hx.2 rfl

theorem IsPlainName.exists_cons {cs : List Char} (h : IsPlainName cs)
    (hd : ∀ c ∈ cs.head?, c.isDigit = false) : ∃ first more, cs = first :: more ∧
      (first.isAlpha = true ∨ first = '_') ∧ ∀ x ∈ more, x.isAlphanum = true ∨ x = '_' := by
  obtain ⟨first, more, rfl⟩ := List.exists_cons_of_ne_nil h.ne_nil
  obtain ⟨hf, hm⟩ := List.forall_mem_cons.mp h.plain
  refine ⟨first, more, rfl, hf.imp_left fun ha => ?_, hm⟩
  simpa [Char.isAlphanum, hd first rfl] using ha

def IsPlainName.spelling {cs : List Char} (h : IsPlainName cs) : Spelling := .word cs h.1 h.2

def reservedNames : List String :=
  ["PRIMARY", "KEY", "INDEX", "UNIQUE", "CONSTRAINT", "FOREIGN", "CHECK"]

structure WordColumn extends Column where
  plain : IsPlainName field.name.toList
  unreserved : ∀ word ∈ reservedNames, Text.toUpper field.name.toList ≠ word.toList

namespace WordColumn

def clause (c : WordColumn) : List Char :=
  c.field.name.toList ++ ' ' :: (c.field.declaredType.toList ++ c.options)

def line (c : WordColumn) : Line := List.replicate 4 ' ' ++ c.clause

/-- A name that begins like a constraint, though it is no such word. -/
def StartsConstraint (c : WordColumn) : Prop :=
  "INDEX".toList <+: Text.toUpper c.field.name.toList ∨
    "CONSTRAINT".toList <+: Text.toUpper c.field.name.toList

instance : DecidablePred StartsConstraint := fun c => by unfold StartsConstraint; infer_instance

/-- A name and a type that meet in the words of a header. -/
def OpensStatement (c : WordColumn) : Prop :=
  "CREATE".toList <:+ Text.toUpper c.field.name.toList ∧
    "TABLE".toList <+: Text.toUpper c.field.declaredType.toList

instance : DecidablePred OpensStatement := fun c => by unfold OpensStatement; infer_instance

theorem blank_notMem_name (c : WordColumn) : ' ' ∉ Text.toUpper c.field.name.toList :=
  Text.notMem_toUpper (by decide) (by decide) fun hm => absurd (c.name.plain _ hm).1 (by decide)

theorem toUpper_clause (c : WordColumn) : Text.toUpper c.clause =
    Text.toUpper c.field.name.toList ++
      ' ' :: Text.toUpper (c.field.declaredType.toList ++ c.options) := by
  rw [clause, Text.toUpper_append]
  rfl

theorem clause_ne_nil (c : WordColumn) : c.clause ≠ [] := by simp [clause]

theorem getLast?_clause (c : WordColumn) : c.clause.getLast? = c.toColumn.clause.getLast? := by
  have hne : ' ' :: (c.field.declaredType.toList ++ c.options) ≠ [] := List.cons_ne_nil _ _
  rw [clause, List.getLast?_append_of_ne_nil _ hne, Column.clause, getLast?_quoted _ _ hne]

theorem tight_clause (c : WordColumn) : Text.Tight c.clause := by
  obtain ⟨l, hl, hb, -⟩ := c.last_clause
  obtain ⟨first, more, hn⟩ := List.exists_cons_of_ne_nil c.name.ne_nil
  have hf : Text.isBlank first = false := (c.name.plain first (hn ▸ List.mem_cons_self)).1
  exact Text.tight_of_ends (by rw [clause, hn]; rfl) (c.getLast?_clause.trans hl) hf hb

theorem isConstraint_clause (c : WordColumn) :
    isConstraint c.clause = true ↔ c.StartsConstraint := by
  have hreserved : ∀ start ∈ spacedStarts, start.1 ∈ reservedNames := by decide
  have hhead : ∀ x ∈ (Text.toUpper (' ' :: (c.field.declaredType.toList ++ c.options))).head?,
      x.isUpper = false := by
    rintro _ ⟨⟩
    decide
  rw [isConstraint_eq_startsConstraint, c.tight_clause.trim, clause,
    startsConstraint_append_iff c.blank_notMem_name hhead, Announces]
  constructor
  · rintro (⟨start, hs, h⟩ | ⟨start, hs, hname, -⟩)
    · rcases List.mem_pair.mp hs with rfl | rfl
      · exact Or.inl h
      · exact Or.inr h
    · exact absurd hname (c.unreserved start.1 (hreserved start hs))
  · rintro (h | h)
    · exact Or.inl ⟨"INDEX", by simp [wholeStarts], h⟩
    · exact Or.inl ⟨"CONSTRAINT", by simp [wholeStarts], h⟩

theorem fieldOf?_clause (c : WordColumn) :
    fieldOf? c.clause = if c.StartsConstraint then none else some c.field := by
  have hl : c.clause.getLast? ≠ some ',' := by
    obtain ⟨l, hl, -, hc⟩ := c.last_clause
    simpa [c.getLast?_clause, hl] using hc
  have hq : '\x60' ∉ c.options := by
    rcases c.options_cases with ⟨ho, -⟩ | ⟨ho, -⟩ | ⟨ho, -⟩ <;> rw [ho] <;> decide
  have hb : bare c.clause = c.clause := by
    apply bare_eq_self c.tight_clause hl
    simp [clause, c.name.notMem, c.declared.backtick, hq]
  have hn : ∀ x ∈ c.field.name.toList, Text.isBlank x = false := fun x hx => (c.name.plain x hx).1
  have hd : ∀ x ∈ c.field.declaredType.toList, Text.isBlank x = false :=
    fun x hx => (c.declared.plain x hx).1
  have ho : ∀ x ∈ c.options.head?, Text.isBlank x = true := by
    rcases c.options_cases with ⟨ho, -⟩ | ⟨ho, -⟩ | ⟨ho, -⟩ <;> rw [ho] <;> rintro _ ⟨⟩ <;> rfl
  obtain ⟨others, hw⟩ := Text.exists_words_append c.declared.ne_nil hd ho
  have hnull : Text.holds "NOT NULL".toList (Text.toUpper c.clause) = !c.field.nullable :=
    c.holds_notNull
  by_cases h : c.StartsConstraint
  · rw [fieldOf?, if_pos (c.isConstraint_clause.mpr h), if_pos h]
  · have hc : isConstraint c.clause = false := Bool.eq_false_of_not_eq_true (c.isConstraint_clause.not.mpr h)
    have hwords : Text.words (bare c.clause) =
        c.field.name.toList :: c.field.declaredType.toList :: others := by
      rw [hb, clause, Text.words_append_blank c.name.ne_nil hn (by decide), hw]
    rw [fieldOf?_of_words hc hwords, if_neg h, hb, hnull]
    simp

theorem nesting_clause (c : WordColumn) : nesting c.clause = 0 := by
  rw [clause, nesting_append, (c.name.inert 0).balanced, c.inert_declared.balanced]
  rfl

theorem commasNested_clause (c : WordColumn) : commasNested 0 c.clause = true := by
  rw [clause, commasNested_append, (c.name.inert 0).commas, (c.name.inert 0).balanced, add_zero,
    c.inert_declared.commas]
  rfl

theorem newline_notMem_clause (c : WordColumn) : '\n' ∉ c.clause := by
  have hn := (c.name.inert 0).newline
  simpa [clause, hn] using c.inert_declared.newline

theorem saysCreateTable_clause (c : WordColumn) :
    saysCreateTable c.clause = true ↔ c.OpensStatement := by
  rw [saysCreateTable, c.toUpper_clause]
  constructor
  · have hd := c.holds_declared_eq_false (u := "CREATE".toList) (v := "TABLE".toList) (by decide)
      (by decide) ⟨by decide +kernel, by decide⟩ fun _ => ⟨by decide +kernel, by decide⟩
    contrapose!
    intro h
    rw [ne_eq, Bool.not_eq_true]
    refine Text.holds_append_cons_eq_false (u := "CREATE".toList) (v := "TABLE".toList) (by decide)
      (by decide) c.blank_notMem_name hd fun hm => h ⟨hm.1, c.prefix_declared (by decide) hm.2⟩
  · rintro ⟨⟨a, ha⟩, ⟨b, hb⟩⟩
    rw [Text.holds_iff_infix, Text.toUpper_append, ← ha, ← hb]
    exact ⟨a, b ++ Text.toUpper c.options, by simp⟩

theorem isClause (c : WordColumn) : IsClause c.clause :=
  ⟨c.clause_ne_nil, c.tight_clause, c.nesting_clause, c.commasNested_clause⟩

theorem isHeader_line_append (c : WordColumn) (h : c.OpensStatement) {comma : List Char}
    (hc : comma = [] ∨ comma = [',']) : isHeader (c.line ++ comma) = true := by
  have hs := c.saysCreateTable_clause.mpr h
  rw [isHeader_eq, line, List.append_assoc,
    Text.trim_append_of_blank fun x hx => List.eq_of_mem_replicate hx ▸ by decide]
  rcases hc with rfl | rfl
  · rw [List.append_nil, c.tight_clause.trim, hs]
  · rw [c.isClause.tight_comma.trim, saysCreateTable_append_cons rfl (by decide), hs]
    rfl

theorem inert_clause (c : WordColumn) (h : ¬ c.OpensStatement) : Inert 0 c.clause where
  newline := c.newline_notMem_clause
  balanced := c.nesting_clause
  commas := c.commasNested_clause
  headless := Bool.eq_false_iff.mpr (c.saysCreateTable_clause.not.mpr h)

def item (c : WordColumn) (h : ¬ c.OpensStatement) : Item :=
  ⟨4, c.clause, c.inert_clause h, c.clause_ne_nil, c.tight_clause⟩

end WordColumn

def separated : List Line → List Line
  | [] => []
  | [line] => [line]
  | line :: next :: lines => (line ++ [',']) :: separated (next :: lines)

theorem itemLines_eq (items : List Item) : itemLines items = separated (items.map Item.line) := by
  fun_induction itemLines items with
  | case1 => rfl
  | case2 i => rfl
  | case3 i j items ih =>
    rw [ih]
    rfl

theorem separated_ne_nil {lines : List Line} (h : lines ≠ []) : separated lines ≠ [] := by
  fun_cases separated lines <;> simp_all

theorem separated_append (a : List Line) {b : List Line} (h : b ≠ []) :
    separated (a ++ b) = a.map (· ++ [',']) ++ separated b := by
  induction a with
  | nil => rfl
  | cons line a ih =>
    obtain ⟨next, more, hn⟩ := List.exists_cons_of_ne_nil (show a ++ b ≠ [] by simp [h])
    rw [List.cons_append, hn, separated, ← hn, ih]
    rfl

def IsColumnLine (line : Line) : Prop :=
  ∃ (c : WordColumn) (comma : List Char), (comma = [] ∨ comma = [',']) ∧ line = c.line ++ comma

theorem isColumnLine_separated (columns : List WordColumn) :
    ∀ line ∈ separated (columns.map WordColumn.line), IsColumnLine line := by
  induction columns with
  | nil => simp [separated]
  | cons c columns ih =>
    cases columns with
    | nil => simpa [separated] using ⟨c, [], Or.inl rfl, by simp⟩
    | cons next columns => exact List.forall_mem_cons.mpr ⟨⟨c, [','], Or.inr rfl, rfl⟩, ih⟩

namespace IsColumnLine

variable {line : Line}

theorem newline (h : IsColumnLine line) : '\n' ∉ line := by
  obtain ⟨c, comma, rfl | rfl, rfl⟩ := h <;> simp [WordColumn.line, c.newline_notMem_clause]

theorem whole (h : IsColumnLine line) : line ≠ [] ∧ line.getLast? ≠ some '\r' := by
  obtain ⟨c, comma, rfl | rfl, rfl⟩ := h
  · rw [List.append_nil]
    refine ⟨by simp [WordColumn.line], ?_⟩
    rw [WordColumn.line, List.getLast?_append_of_ne_nil _ c.clause_ne_nil]
    exact fun hl => absurd (c.tight_clause.last _ hl) (by decide)
  · exact ⟨by simp, by rw [List.getLast?_concat]; decide⟩

theorem commaLast (h : IsColumnLine line) : CommaLast line := by
  obtain ⟨c, comma, hc, rfl⟩ := h
  have hline : CommaLast (c.line ++ [',']) := by
    rw [CommaLast, List.dropLast_concat, WordColumn.line, commasNested_append,
      commasNested_of_notMem (by decide)]
    exact c.commasNested_clause
  rcases hc with rfl | rfl
  · exact hline.of_prefix (by simp)
  · exact hline

/-- The parentheses of the line all stand in the type, which holds no blank and balances them. -/
theorem exists_type (h : IsColumnLine line) : ∃ front declared back,
    line = front ++ (declared ++ back) ∧ '(' ∉ front ++ back ∧ ')' ∉ front ++ back ∧
      nesting declared = 0 ∧ ∀ c ∈ declared, Text.isBlank c = false := by
  obtain ⟨c, comma, hc, rfl⟩ := h
  have hno : ∀ x, x = '(' ∨ x = ')' →
      x ∉ (List.replicate 4 ' ' ++ (c.field.name.toList ++ [' '])) ++ (c.options ++ comma) := by
    intro x hx
    have hn : x ∉ c.field.name.toList := c.name.notMem (by simpa using Or.inr (Or.inr hx))
    have ho : x ∉ c.options := by
      rcases c.options_cases with ⟨ho, -⟩ | ⟨ho, -⟩ | ⟨ho, -⟩ <;> rw [ho] <;>
        rcases hx with rfl | rfl <;> decide
    have hblank : x ∉ List.replicate 4 ' ' ∧ x ∉ [' '] := by rcases hx with rfl | rfl <;> decide
    have hcomma : x ∉ comma := by rcases hc with rfl | rfl <;> rcases hx with rfl | rfl <;> decide
    simp only [List.mem_append, not_or]
    exact ⟨⟨hblank.1, hn, hblank.2⟩, ho, hcomma⟩
  refine ⟨List.replicate 4 ' ' ++ (c.field.name.toList ++ [' ']), c.field.declaredType.toList,
    c.options ++ comma, by simp [WordColumn.line, WordColumn.clause], hno _ (Or.inl rfl),
    hno _ (Or.inr rfl), c.declared.balanced, fun x hx => (c.declared.plain x hx).1⟩

theorem nesting_eq_zero (h : IsColumnLine line) : nesting line = 0 := by
  obtain ⟨front, declared, back, rfl, ho, hc, hd, -⟩ := h.exists_type
  have hn := Dump.nesting_eq_zero ho hc
  rw [nesting_append] at hn
  rw [nesting_append, nesting_append, hd]
  omega

theorem notMem_of_not_allows (h : IsColumnLine line)
    (ha : ¬ Ending.allows .parenthesis line = true) : '(' ∉ line := by
  intro ho
  have hn := h.nesting_eq_zero
  have hcount : line.count ')' = 0 :=
    List.count_eq_zero_of_not_mem fun hm => ha (List.contains_iff_mem.mpr hm)
  have hpos : 0 < line.count '(' := List.count_pos_iff.mpr ho
  unfold nesting at hn
  omega

theorem tableOf?_eq_none (h : IsColumnLine line) (name? : List Char → Option (List Char))
    {before : List Char} (hb : '(' ∉ before) : tableOf? name? (before ++ line) = none := by
  obtain ⟨front, declared, back, rfl, ho, hc, -, hp⟩ := h.exists_type
  rw [List.mem_append, not_or] at ho hc
  by_contra hn
  obtain ⟨t, ht⟩ := Option.ne_none_iff_exists'.mp hn
  obtain ⟨body, hbody, hf, hne⟩ := exists_body?_of_tableOf? ht
  rw [← List.append_assoc] at hbody
  have hs := subset_of_body? (List.mem_append.not.mpr (not_or.mpr ⟨hb, ho.1⟩)) ho.2 hc.2 hbody
  exact hne (hf.trans (fieldsOf_eq_nil fun c hm => hp c (hs hm)))

end IsColumnLine

theorem exists_joinLines_concat {lines : List Line} (h : '(' ∉ Text.joinLines lines) (line : Line) :
    ∃ before, '(' ∉ before ∧ Text.joinLines (lines ++ [line]) = before ++ line := by
  by_cases hl : lines = []
  · exact ⟨[], by simp, by simp [hl, Text.joinLines]⟩
  · exact ⟨Text.joinLines lines ++ ['\n'], by simp [h], by simp [Text.joinLines_concat hl]⟩

/-- From a column that opens a statement on, no table is found: the statement has no parenthesis of its own. -/
theorem tableOf?_of_mem_scan (name? : List Char → Option (List Char)) {lines : List Line}
    (h : ∀ line ∈ lines, IsColumnLine line) {current : List Line}
    (hc : '(' ∉ Text.joinLines current) :
    ∀ fragment ∈ scan .parenthesis current 0 (lines ++ [[')', ';']]),
      tableOf? name? (Text.joinLines fragment) = none := by
  have hflush : ∀ {current : List Line}, '(' ∉ Text.joinLines current →
      ∀ fragment ∈ flush current, tableOf? name? (Text.joinLines fragment) = none := by
    intro current hc fragment hf
    unfold flush at hf
    split at hf
    · simp at hf
    · exact List.mem_singleton.mp hf ▸ tableOf?_eq_none_of_notMem name? hc
  -- Over the lines: none of those in progress has an opening parenthesis, or it would have ended a fragment.
  induction lines generalizing current with
  | nil =>
    have hheader : isHeader [')', ';'] = false := by decide +kernel
    by_cases hn : current = []
    · simp [hn, scan, hheader, flush]
    · obtain ⟨before, hb, hj⟩ := exists_joinLines_concat hc [')', ';']
      have hlast : '(' ∉ Text.joinLines (current ++ [[')', ';']]) := by simp [hj, hb]
      rw [List.nil_append, scan, if_neg (by simp [hheader]), if_neg hn, if_neg (by decide)]
      exact hflush hlast
  | cons line lines ih =>
    obtain ⟨hl, hls⟩ := List.forall_mem_cons.mp h
    obtain ⟨before, hb, hj⟩ := exists_joinLines_concat hc line
    have hjoin : Text.joinLines [line] = line := by simp [Text.joinLines]
    intro fragment hf
    rw [List.cons_append, scan, hl.nesting_eq_zero, add_zero] at hf
    split_ifs at hf with hh ha hn ha
    · rcases List.mem_append.mp hf with hf | hf
      · exact hflush hc fragment hf
      rcases List.mem_cons.mp hf with rfl | hf
      · rw [hjoin]
        exact hl.tableOf?_eq_none name? List.not_mem_nil
      · exact ih hls (by simp [Text.joinLines]) fragment hf
    · rcases List.mem_append.mp hf with hf | hf
      · exact hflush hc fragment hf
      · exact ih hls (hjoin.symm ▸ hl.notMem_of_not_allows fun h => ha ⟨rfl, h⟩) fragment hf
    · exact ih hls (by simp [Text.joinLines]) fragment hf
    · rcases List.mem_cons.mp hf with rfl | hf
      · rw [hj]
        exact hl.tableOf?_eq_none name? hb
      · exact ih hls (by simp [Text.joinLines]) fragment hf
    · refine ih hls ?_ fragment hf
      simp [hj, hb, hl.notMem_of_not_allows fun h => ha ⟨rfl, h⟩]

theorem takeName_append {name rest : List Char} (h : IsPlainName name)
    (hr : ∀ c ∈ rest.head?, isNameChar c = false) : takeName (name ++ rest) = some (name, rest) := by
  have hn : ∀ c ∈ name, isNameChar c = true := fun c hc => Spelling.isNameChar_of_plain (h.plain c hc)
  obtain ⟨ht, hd⟩ := Text.takeWhile_append_stop hn hr
  simp [takeName, ht, hd, h.ne_nil]

structure WordTable where
  schema : Option String
  name : String
  columns : List WordColumn
  schema_plain : ∀ s ∈ schema, IsPlainName s.toList
  name_plain : IsPlainName name.toList
  columns_ne : columns ≠ []

namespace WordTable

def table (t : WordTable) : Table := ⟨t.name, t.columns.map fun c => c.field⟩

def found (t : WordTable) : List Field :=
  (t.columns.filter fun c => ¬ c.StartsConstraint).map fun c => c.field

def qualification (t : WordTable) : List Char := t.schema.elim [] fun s => s.toList ++ ['.']

def front (t : WordTable) : Line := createMark ++ (t.qualification ++ (t.name.toList ++ [' ']))

def header (t : WordTable) : Line := t.front ++ ['(']

def lines (t : WordTable) : List Line :=
  t.header :: (separated (t.columns.map WordColumn.line) ++ [[')', ';']])

def text (t : WordTable) : String := String.ofList (Text.joinLines t.lines)

def body (t : WordTable) : List Char :=
  '\n' :: (Text.joinLines (separated (t.columns.map WordColumn.line)) ++ ['\n'])

theorem nameHere?_front (t : WordTable) (rest : List Char) :
    nameHere? schemaName? (t.front ++ '(' :: rest) = some t.name.toList := by
  have hblank : ∀ c ∈ (' ' :: '(' :: rest).head?, isNameChar c = false := by
    rintro _ ⟨⟩
    decide
  have hdot : ∀ more, ∀ c ∈ ('.' :: more).head?, isNameChar c = false := by
    rintro more _ ⟨⟩
    decide
  have htake := takeName_append t.name_plain hblank
  have hname : nameBeforeParenthesis? (t.name.toList ++ ' ' :: '(' :: rest) = some t.name.toList := by
    rw [nameBeforeParenthesis?, htake]
    rfl
  have hread : ∀ more, Text.trimStart more = more →
      afterWords ["if", "not", "exists"] more = none → schemaName? more = some t.name.toList →
      nameHere? schemaName? (createMark ++ more) = some t.name.toList := by
    intro more ht hw hs
    rw [nameHere?, TableText.afterWords_createMark, Option.bind_some, ht, hw, hs]
    rfl
  cases hs : t.schema with
  | none =>
    have hfront : t.front ++ '(' :: rest = createMark ++ (t.name.toList ++ ' ' :: '(' :: rest) := by
      simp [front, qualification, hs]
    rw [hfront]
    refine hread _ (t.name_plain.spelling.trimStart_text _)
      (t.name_plain.spelling.afterWords_text (Or.inr ⟨rest, rfl⟩)) ?_
    simp [schemaName?, htake, hname]
  | some s =>
    have hplain := t.schema_plain s hs
    have hfront : t.front ++ '(' :: rest =
        createMark ++ (s.toList ++ '.' :: (t.name.toList ++ ' ' :: '(' :: rest)) := by
      simp [front, qualification, hs]
    rw [hfront]
    refine hread _ (hplain.spelling.trimStart_text _)
      (hplain.spelling.afterWords_text (Or.inl ⟨_, rfl⟩)) ?_
    rw [schemaName?, takeName_append hplain (hdot _)]
    exact hname

theorem notMem_front (t : WordTable) {x : Char} (hx : x ∉ createMark ++ ['.'])
    (hn : x.isAlphanum = false ∧ x ≠ '_') : x ∉ t.front := by
  obtain ⟨hc, hd⟩ := not_or.mp (List.mem_append.not.mp hx)
  have hb : x ≠ ' ' := fun he => hc (he ▸ by decide)
  have hq : x ∉ t.qualification := by
    unfold qualification
    cases hs : t.schema with
    | none => simp
    | some s => simpa [(t.schema_plain s hs).notMem hn] using hd
  simp [front, hq, hc, hb, t.name_plain.notMem hn]

theorem findName?_front (t : WordTable) (rest : List Char) :
    findName? schemaName? (t.front ++ '(' :: rest) = some t.name.toList := by
  have h := t.nameHere?_front rest
  have hne : t.front ++ '(' :: rest ≠ [] := by simp
  obtain ⟨c, cs, hc⟩ := List.exists_cons_of_ne_nil hne
  rw [hc] at h ⊢
  rw [findName?, h, Option.some_or]

theorem joinLines_lines (t : WordTable) :
    Text.joinLines t.lines = t.front ++ '(' :: (t.body ++ ')' :: [';']) := by
  have hne : separated (t.columns.map WordColumn.line) ≠ [] :=
    separated_ne_nil (by simp [t.columns_ne])
  rw [lines, header, Text.joinLines_cons (by simp), Text.joinLines_concat hne, body]
  simp

theorem exists_items (t : WordTable) (h : ∀ c ∈ t.columns, ¬ c.OpensStatement) :
    ∃ items : List Item, separated (t.columns.map WordColumn.line) = itemLines items ∧
      items.map Item.clause = t.columns.map WordColumn.clause ∧ items ≠ [] := by
  refine ⟨t.columns.pmap WordColumn.item h, ?_, ?_, ?_⟩
  · rw [itemLines_eq, List.map_pmap]
    exact congrArg separated (List.pmap_eq_map ..).symm
  · rw [List.map_pmap]
    exact List.pmap_eq_map ..
  · simpa using t.columns_ne

theorem fieldsOf_body (t : WordTable) (h : ∀ c ∈ t.columns, ¬ c.OpensStatement) :
    fieldsOf t.body = t.found := by
  obtain ⟨items, hl, hc, hne⟩ := t.exists_items h
  have hn : ∀ line ∈ itemLines items, '\n' ∉ line :=
    fun line hm => (isBodyLine_itemLines items line hm).newline
  rw [fieldsOf, body, hl, clauses_body (itemLines_ne_nil hne) hn, flatMap_lineClauses, hc,
    List.filterMap_map, found, ← List.filterMap_eq_map, List.filterMap_filter]
  refine List.filterMap_congr fun c _ => ?_
  rw [Function.comp_apply, c.fieldOf?_clause]
  by_cases hs : c.StartsConstraint <;> simp [hs]

theorem isHeader_header (t : WordTable) : isHeader t.header = true := by
  rw [header, front, List.append_assoc]
  exact isHeader_createMark_append _

theorem nesting_header (t : WordTable) : nesting t.header = 1 :=
  nesting_append_open (t.notMem_front (by decide) (by decide)) (t.notMem_front (by decide) (by decide))

theorem lines_text (t : WordTable) : Text.lines t.text.toList = t.lines := by
  have hc := isColumnLine_separated t.columns
  have hn : '\n' ∉ t.header := by
    have hn : '\n' ∉ t.front := t.notMem_front (by decide) (by decide)
    simp [header, hn]
  have hwhole : ∀ line ∈ t.lines, '\n' ∉ line ∧ line ≠ [] ∧ line.getLast? ≠ some '\r' := by
    rw [lines, List.forall_mem_cons, List.forall_mem_append, List.forall_mem_singleton]
    exact ⟨⟨hn, by simp [header]⟩, fun line hm => ⟨(hc line hm).newline, (hc line hm).whole⟩,
      by decide⟩
  rw [text, String.toList_ofList, Text.lines_joinLines_of_whole hwhole]

theorem fragments_text (t : WordTable) (h : ∀ c ∈ t.columns, ¬ c.OpensStatement) :
    fragments .parenthesis t.text.toList = [Text.joinLines t.lines] := by
  obtain ⟨items, hl, -, -⟩ := t.exists_items h
  have hclosing : isHeader [')', ';'] = false := by decide +kernel
  have hscan := scan_statement (e := .parenthesis) t.isHeader_header t.nesting_header
    (fun line hm => (isBodyLine_itemLines items line hm).inner) hclosing rfl (by decide) []
  rw [fragments, lines_text, lines, hl, hscan]
  rfl

/-- A table that is cut behind some of its columns has no more fields than these. -/
theorem length_fields_le (t : WordTable) (columns : List WordColumn)
    {name? : List Char → Option (List Char)} {table : Table}
    (h : tableOf? name? (Text.joinLines (t.header :: columns.map fun c => c.line ++ [','])) =
      some table) : table.fields.length ≤ columns.length := by
  obtain ⟨body, hb, hf, -⟩ := exists_body?_of_tableOf? h
  have hopen : '(' ∉ t.front := t.notMem_front (by decide) (by decide)
  have hpre : body <+: '\n' :: Text.joinLines (columns.map fun c => c.line ++ [',']) := by
    by_cases hn : columns = []
    · subst hn
      have hj : Text.joinLines [t.header] = t.front ++ ['('] := by simp [Text.joinLines, header]
      rw [List.map_nil, hj, body?_append_cons hopen] at hb
      exact (prefix_of_beforeLast? hb).trans (List.nil_prefix)
    · rw [Text.joinLines_cons (by simpa using hn), header, List.append_assoc, List.singleton_append,
        body?_append_cons hopen] at hb
      exact prefix_of_beforeLast? hb
  have hlines : ∀ line ∈ columns.map (fun c => c.line ++ [',']), '\n' ∉ line ∧ CommaLast line := by
    rw [List.forall_mem_map]
    intro c hc
    have hl : IsColumnLine (c.line ++ [',']) := ⟨c, _, Or.inr rfl, rfl⟩
    exact ⟨hl.newline, hl.commaLast⟩
  have hclauses : (clauses body).length ≤ columns.length := by
    rcases List.prefix_cons_iff.mp hpre with rfl | ⟨more, rfl, hm⟩
    · exact Nat.zero_le _
    · have hle := length_clauses_le hlines hm
      rw [List.length_map] at hle
      exact (clauses_append_newline [] more).symm ▸ hle
  rw [hf, fieldsOf]
  exact (List.length_filterMap_le _ _).trans hclauses

/-- The first column that opens a statement cuts off the ones before it, and what it opens holds no field. -/
theorem postgresTables_ne (t : WordTable) {c : WordColumn} (hc : c ∈ t.columns)
    (ho : c.OpensStatement) : postgresTables t.text ≠ [t.table] := by
  have hfind : (t.columns.find? (·.OpensStatement)).isSome = true :=
    List.find?_isSome.mpr ⟨c, hc, by simpa using ho⟩
  obtain ⟨first, hf⟩ := Option.isSome_iff_exists.mp hfind
  obtain ⟨hfirst, before, behind, hcols, hbefore⟩ := List.find?_eq_some_iff_append.mp hf
  have hfirst : first.OpensStatement := by simpa using hfirst
  -- The scanner starts anew at the line of `first`, so what stands before it and behind it is scanned apart.
  let rest : List Line := separated ((first :: behind).map WordColumn.line)
  have hlines : t.lines =
      (t.header :: before.map fun c => c.line ++ [',']) ++ (rest ++ [[')', ';']]) := by
    rw [lines, hcols, List.map_append, separated_append _ (by simp), List.map_map]
    simp [rest, Function.comp_def]
  have hrest : (rest ++ [[')', ';']]).head?.any isHeader = true := by
    cases behind with
    | nil => simpa [rest, separated] using first.isHeader_line_append hfirst (Or.inl rfl)
    | cons next behind => exact first.isHeader_line_append hfirst (Or.inr rfl)
  have hinner : ∀ line ∈ before.map (fun c => c.line ++ [',']),
      isHeader line = false ∧ nesting line = 0 := by
    rw [List.forall_mem_map]
    intro c hc
    exact ((c.item (by simpa using hbefore c hc)).isBodyLine_append (Or.inr rfl)).inner
  have hcut := scan_unclosed (e := .parenthesis) t.isHeader_header t.nesting_header hinner
  have hnone : ((scan .parenthesis [] 0 (rest ++ [[')', ';']])).map Text.joinLines).filterMap
      (tableOf? schemaName?) = [] := by
    rw [List.filterMap_eq_nil_iff, List.forall_mem_map]
    exact tableOf?_of_mem_scan schemaName? (isColumnLine_separated _) List.not_mem_nil
  intro he
  rw [postgresTables, tablesBy, fragments, lines_text, hlines, scan_append _ _ _ _ hrest, hcut,
    List.map_append, List.filterMap_append, hnone, List.append_nil] at he
  have htable : tableOf? schemaName? (Text.joinLines
      (t.header :: before.map fun c => c.line ++ [','])) = some t.table := by
    have hm : t.table ∈ [t.table] := List.mem_singleton_self _
    rw [← he] at hm
    simpa using hm
  have hle := t.length_fields_le before htable
  simp only [table, hcols, List.length_map, List.length_append, List.length_cons] at hle
  omega

theorem found_eq_iff (t : WordTable) :
    t.found = t.table.fields ↔ ∀ c ∈ t.columns, ¬ c.StartsConstraint := by
  constructor
  · intro h c hc
    have hl := congrArg List.length h
    simp only [found, table, List.length_map] at hl
    simpa using List.length_filter_eq_length_iff.mp hl c hc
  · intro h
    rw [found, table, List.filter_eq_self.mpr fun c hc => by simpa using h c hc]

theorem postgresTables_of_not_opensStatement (t : WordTable)
    (h : ∀ c ∈ t.columns, ¬ c.OpensStatement) :
    postgresTables t.text = if t.found = [] then [] else [⟨t.name, t.found⟩] := by
  have hback : ')' ∉ [';'] := by decide
  have hbody := body?_append t.body (t.notMem_front (by decide) (by decide)) hback
  rw [postgresTables, tablesBy, t.fragments_text h, List.filterMap_cons, tableOf?, t.joinLines_lines,
    t.findName?_front, hbody]
  by_cases hf : t.found = [] <;> simp [t.fieldsOf_body h, hf]

/-- A table is read whole just where no name begins like a constraint and no line looks like a header. Names of
the first kind cost their own columns and no more. -/
theorem postgresTables_text (t : WordTable) :
    (postgresTables t.text = [t.table] ↔
        ∀ c ∈ t.columns, ¬ c.StartsConstraint ∧ ¬ c.OpensStatement) ∧
      ((∀ c ∈ t.columns, ¬ c.OpensStatement) →
        postgresTables t.text = if t.found = [] then [] else [⟨t.name, t.found⟩]) := by
  refine ⟨?_, t.postgresTables_of_not_opensStatement⟩
  rw [forall₂_and, ← t.found_eq_iff]
  by_cases ho : ∀ c ∈ t.columns, ¬ c.OpensStatement
  · rw [t.postgresTables_of_not_opensStatement ho, and_iff_left ho]
    split
    · next hf =>
      have hne : t.table.fields ≠ [] := by simp [table, t.columns_ne]
      exact iff_of_false (List.cons_ne_nil _ _).symm fun he => hne (he ▸ hf)
    · constructor
      · intro he
        exact congrArg Table.fields (List.singleton_inj.mp he)
      · intro he
        rw [he]
        rfl
  · refine iff_of_false (fun he => ho fun c hc hs => ?_) fun h => ho h.2
    exact t.postgresTables_ne hc hs he

def invoices : WordTable where
  schema := some "public"
  name := "invoices"
  columns := [
    ⟨⟨⟨"id", "bigint", false⟩, false, by decide +kernel, by decide +kernel, by decide +kernel⟩,
      by decide +kernel, by decide +kernel⟩,
    ⟨⟨⟨"total", "numeric(10,2)", true⟩, false, by decide +kernel, by decide +kernel, by decide +kernel⟩,
      by decide +kernel, by decide +kernel⟩,
    ⟨⟨⟨"price_index", "text", true⟩, false, by decide +kernel, by decide +kernel, by decide +kernel⟩,
      by decide +kernel, by decide +kernel⟩]
  schema_plain := by decide +kernel
  name_plain := by decide +kernel
  columns_ne := List.cons_ne_nil _ _

theorem postgresTables_text_invoices :
    (∀ c ∈ invoices.columns, ¬ c.StartsConstraint ∧ ¬ c.OpensStatement) ∧
      postgresTables invoices.text = [invoices.table] := by
  have h : ∀ c ∈ invoices.columns, ¬ c.StartsConstraint ∧ ¬ c.OpensStatement := by decide +kernel
  exact ⟨h, invoices.postgresTables_text.1.mpr h⟩

example : invoices.text = "CREATE TABLE public.invoices (\n    id bigint NOT NULL,\n" ++
    "    total numeric(10,2),\n    price_index text\n);" := by decide +kernel

def ledger : WordTable where
  schema := none
  name := "t"
  columns := [
    ⟨⟨⟨"id", "int", false⟩, false, by decide +kernel, by decide +kernel, by decide +kernel⟩,
      by decide +kernel, by decide +kernel⟩,
    ⟨⟨⟨"index_no", "int", true⟩, false, by decide +kernel, by decide +kernel, by decide +kernel⟩,
      by decide +kernel, by decide +kernel⟩]
  schema_plain := by decide
  name_plain := by decide +kernel
  columns_ne := List.cons_ne_nil _ _

def layouts : WordTable where
  schema := none
  name := "t"
  columns := [
    ⟨⟨⟨"id", "int", false⟩, false, by decide +kernel, by decide +kernel, by decide +kernel⟩,
      by decide +kernel, by decide +kernel⟩,
    ⟨⟨⟨"recreate", "table", true⟩, false, by decide +kernel, by decide +kernel, by decide +kernel⟩,
      by decide +kernel, by decide +kernel⟩]
  schema_plain := by decide
  name_plain := by decide +kernel
  columns_ne := List.cons_ne_nil _ _

/-- A column is lost for the beginning of its name, and a table for a column that looks like a header. -/
theorem postgresTables_text_lost :
    ledger.text = "CREATE TABLE t (\n    id int NOT NULL,\n    index_no int\n);" ∧
      postgresTables ledger.text = [⟨"t", [⟨"id", "int", false⟩]⟩] ∧
      postgresTables ledger.text ≠ [ledger.table] ∧
      postgresTables layouts.text ≠ [layouts.table] := by
  decide +kernel

end WordTable

end TableLoader.Dump
