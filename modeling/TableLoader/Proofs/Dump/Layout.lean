import TableLoader.Dump.Pattern
import TableLoader.Proofs.Dump.Inert

/-! # The layout of a MySQL dump

A dump as its tool writes it: tables with one column or key on each line, between other lines of any kind. The
conditions on its texts are fields of the structures, so every dump that can be stated is laid out well. -/
namespace TableLoader.Dump

open Text (Tight)

structure Item where
  indent : ℕ
  clause : List Char
  inert : Inert 0 clause
  ne_nil : clause ≠ []
  tight : Tight clause

def Item.line (i : Item) : Line := List.replicate i.indent ' ' ++ i.clause

def itemLines : List Item → List Line
  | [] => []
  | [i] => [i.line]
  | i :: j :: items => (i.line ++ [',']) :: itemLines (j :: items)

/-- A column line. The default value of a nullable column may be spelled out. -/
structure Column where
  field : Field
  defaulted : Bool
  name : IsQuotedName field.name.toList
  declared : IsDeclaredType field.declaredType.toList
  /-- A name and a type that say `NOT NULL` together cannot be told from a column that says so. -/
  unambiguous : field.nullable = true →
    ¬ ("NOT".toList <:+ Text.toUpper field.name.toList ∧
      "NULL".toList <+: Text.toUpper field.declaredType.toList)

namespace Column

def options (c : Column) : List Char :=
  if c.field.nullable then if c.defaulted then " DEFAULT NULL".toList else []
  else " NOT NULL".toList

def clause (c : Column) : List Char :=
  quoted [] c.field.name.toList (' ' :: (c.field.declaredType.toList ++ c.options))

theorem options_cases (c : Column) :
    c.options = [] ∧ c.field.nullable = true ∨
      c.options = ' ' :: "DEFAULT NULL".toList ∧ c.field.nullable = true ∨
      c.options = ' ' :: "NOT NULL".toList ∧ c.field.nullable = false := by
  unfold options
  cases c.field.nullable <;> cases c.defaulted <;> simp

theorem toUpper_options (c : Column) : Text.toUpper c.options = c.options := by
  rcases c.options_cases with ⟨ho, -⟩ | ⟨ho, -⟩ | ⟨ho, -⟩ <;> rw [ho] <;> decide +kernel

theorem last_clause (c : Column) :
    ∃ l, c.clause.getLast? = some l ∧ Text.isBlank l = false ∧ l ≠ ',' := by
  have hne : c.field.declaredType.toList ++ c.options ≠ [] := by simp [c.declared.ne_nil]
  rw [clause, getLast?_quoted _ _ (List.cons_ne_nil _ _), List.getLast?_cons_of_ne_nil hne]
  rcases c.options_cases with ⟨ho, -⟩ | ⟨ho, -⟩ | ⟨ho, -⟩
  · rw [ho, List.append_nil]
    have hl := List.getLast?_eq_some_getLast c.declared.ne_nil
    refine ⟨_, hl, (c.declared.plain _ (List.getLast_mem _)).1, fun he => ?_⟩
    exact c.declared.getLast?_ne (he ▸ hl)
  · exact ⟨'L', by rw [ho]; simp, by decide, by decide⟩
  · exact ⟨'L', by rw [ho]; simp, by decide, by decide⟩

theorem tight_clause (c : Column) : Tight c.clause := by
  obtain ⟨l, hl, hb, -⟩ := c.last_clause
  exact Text.tight_of_ends rfl hl (by decide) hb

theorem blank_notMem_declaredType (c : Column) : ' ' ∉ c.field.declaredType.toList :=
  fun hm => absurd (c.declared.plain _ hm).1 (by decide)

theorem holds_declared_eq_false (c : Column) {u v : List Char} (hu : ' ' ∉ u) (hv : ' ' ∉ v)
    (hd : Text.holds (u ++ ' ' :: v) "DEFAULT NULL".toList = false ∧ ¬ v <+: "DEFAULT NULL".toList)
    (hn : c.field.nullable = false →
      Text.holds (u ++ ' ' :: v) "NOT NULL".toList = false ∧ ¬ v <+: "NOT NULL".toList) :
    Text.holds (u ++ ' ' :: v)
      (Text.toUpper (c.field.declaredType.toList ++ c.options)) = false := by
  have ht : ' ' ∉ Text.toUpper c.field.declaredType.toList :=
    Text.notMem_toUpper (by decide) (by decide) c.blank_notMem_declaredType
  rw [Text.toUpper_append, c.toUpper_options]
  rcases c.options_cases with ⟨ho, -⟩ | ⟨ho, -⟩ | ⟨ho, hf⟩ <;> rw [ho]
  · rw [List.append_nil]
    exact Text.holds_eq_false_of_notMem (by simp) ht
  · exact Text.holds_append_cons_eq_false hu hv ht hd.1 fun h => hd.2 h.2
  · exact Text.holds_append_cons_eq_false hu hv ht (hn hf).1 fun h => (hn hf).2 h.2

theorem prefix_declared (c : Column) {v : List Char} (hv : ' ' ∉ v)
    (h : v <+: Text.toUpper (c.field.declaredType.toList ++ c.options)) :
    v <+: Text.toUpper c.field.declaredType.toList := by
  rw [Text.toUpper_append, c.toUpper_options] at h
  rcases c.options_cases with ⟨ho, -⟩ | ⟨ho, -⟩ | ⟨ho, -⟩ <;> rw [ho] at h
  · simpa using h
  · exact Text.prefix_of_prefix_append_cons hv h
  · exact Text.prefix_of_prefix_append_cons hv h

theorem inert_options (c : Column) : Inert 0 c.options := by
  rcases c.options_cases with ⟨ho, -⟩ | ⟨ho, -⟩ | ⟨ho, -⟩ <;> rw [ho]
  · exact Inert.nil 0
  · decide +kernel
  · decide +kernel

theorem inert_declared (c : Column) :
    Inert 0 (' ' :: (c.field.declaredType.toList ++ c.options)) where
  newline := by
    have hd : '\n' ∉ c.field.declaredType.toList :=
      fun hm => absurd (c.declared.plain _ hm).1 (by decide)
    simp [hd, c.inert_options.newline]
  balanced := by
    rw [nesting_cons, nesting_append, c.declared.balanced, c.inert_options.balanced]
    rfl
  commas := by
    have hs : nesting [' '] = 0 := rfl
    rw [commasNested, hs, add_zero, commasNested_append, c.declared.commas, c.declared.balanced,
      add_zero, c.inert_options.commas]
    rfl
  headless := by
    have hn := c.holds_declared_eq_false (u := "CREATE".toList) (v := "TABLE".toList) (by decide)
      (by decide) ⟨by decide +kernel, by decide⟩ fun _ => ⟨by decide +kernel, by decide⟩
    exact Text.holds_append_cons_eq_false (a := []) (by decide) (by decide) (by simp) hn
      fun h => absurd h.1 (by decide)

theorem inert_clause (c : Column) : Inert 0 c.clause :=
  (Inert.nil 0).quoted c.name c.inert_declared

def item (c : Column) : Item := ⟨2, c.clause, c.inert_clause, quoted_ne_nil _ _ _, c.tight_clause⟩

theorem clause_item (c : Column) : c.item.clause = c.clause := rfl

/-- The text of a column says `NOT NULL` just where its field forbids it. -/
theorem holds_notNull (c : Column) :
    Text.holds "NOT NULL".toList (Text.toUpper (c.field.name.toList ++
      ' ' :: (c.field.declaredType.toList ++ c.options))) = !c.field.nullable := by
  have hname : ' ' ∉ Text.toUpper c.field.name.toList :=
    Text.notMem_toUpper (by decide) (by decide) fun hm => absurd (c.name.plain _ hm).1 (by decide)
  rw [Text.toUpper_append, Text.toUpper_cons]
  cases hf : c.field.nullable with
  | false =>
    have ho : c.options = ' ' :: "NOT NULL".toList := by simp [options, hf]
    have hi : "NOT NULL".toList <:+:
        Text.toUpper (c.field.declaredType.toList ++ c.options) := by
      rw [Text.toUpper_append, c.toUpper_options, ho]
      exact List.infix_append_of_infix_right (List.infix_cons List.infix_rfl)
    rw [Text.holds_iff_infix.mpr
      (List.infix_append_of_infix_right (List.infix_append_of_infix_right hi))]
    rfl
  -- Only the name and the type together could say it.
  | true =>
    have hd := c.holds_declared_eq_false (u := "NOT".toList) (v := "NULL".toList) (by decide)
      (by decide) ⟨by decide +kernel, by decide⟩ fun h => by simp [hf] at h
    refine Text.holds_append_cons_eq_false (u := "NOT".toList) (v := "NULL".toList) (by decide)
      (by decide) hname hd fun h => c.unambiguous hf ⟨h.1, c.prefix_declared (by decide) h.2⟩

theorem fieldOf?_clause (c : Column) : fieldOf? c.clause = some c.field := by
  have ho : c.options = [] ∨ ∃ more, c.options = ' ' :: more := by
    rcases c.options_cases with ⟨ho, -⟩ | ⟨ho, -⟩ | ⟨ho, -⟩
    · exact Or.inl ho
    · exact Or.inr ⟨_, ho⟩
    · exact Or.inr ⟨_, ho⟩
  have hq : '\x60' ∉ c.options := by
    rcases c.options_cases with ⟨ho, -⟩ | ⟨ho, -⟩ | ⟨ho, -⟩ <;> rw [ho] <;> decide
  have hl : c.clause.getLast? ≠ some ',' := by
    obtain ⟨l, hl, -, hc⟩ := c.last_clause
    simpa [hl] using hc
  rw [clause, fieldOf?_quoted c.name c.declared ho hq c.tight_clause hl, c.holds_notNull]
  simp

end Column

/-- A key line: what it declares, with the texts between its parentheses as they stand. -/
inductive Key where
  | primary (columns : List Char) (hc : Inert 1 columns)
  | plain (name columns : List Char) (hn : IsQuotedName name) (hc : Inert 1 columns)
  | unique (name columns : List Char) (hn : IsQuotedName name) (hc : Inert 1 columns)
  | foreign (name columns target referenced : List Char) (hn : IsQuotedName name)
    (hc : Inert 1 columns) (ht : IsQuotedName target) (hr : Inert 1 referenced)

namespace Key

def clause : Key → List Char
  | primary columns _ => grouped "PRIMARY KEY ".toList columns []
  | plain name columns .. => quoted "KEY ".toList name (grouped [' '] columns [])
  | unique name columns .. => quoted "UNIQUE KEY ".toList name (grouped [' '] columns [])
  | foreign name columns target referenced .. =>
    quoted "CONSTRAINT ".toList name (grouped " FOREIGN KEY ".toList columns
      (quoted " REFERENCES ".toList target (grouped [' '] referenced [])))

theorem inert_clause (k : Key) : Inert 0 k.clause := by
  have hb : Inert 0 [' '] := by decide +kernel
  cases k with
  | primary columns hc =>
    have ha : Inert 0 "PRIMARY KEY ".toList := by decide +kernel
    exact ha.grouped hc (Inert.nil 0)
  | plain name columns hn hc =>
    have ha : Inert 0 "KEY ".toList := by decide +kernel
    exact ha.quoted hn (hb.grouped hc (Inert.nil 0))
  | unique name columns hn hc =>
    have ha : Inert 0 "UNIQUE KEY ".toList := by decide +kernel
    exact ha.quoted hn (hb.grouped hc (Inert.nil 0))
  | foreign name columns target referenced hn hc ht hr =>
    have ha : Inert 0 "CONSTRAINT ".toList := by decide +kernel
    have hf : Inert 0 " FOREIGN KEY ".toList := by decide +kernel
    have hm : Inert 0 " REFERENCES ".toList := by decide +kernel
    exact ha.quoted hn (hf.grouped hc (hm.quoted ht (hb.grouped hr (Inert.nil 0))))

theorem exists_start (k : Key) : ∃ start ∈ constraintStarts, ∃ rest,
    k.clause = start.toList ++ rest := by
  cases k with
  | primary => exact ⟨"PRIMARY KEY", by simp [constraintStarts], _, rfl⟩
  | plain => exact ⟨"KEY ", by simp [constraintStarts], _, rfl⟩
  | unique => exact ⟨"UNIQUE KEY", by simp [constraintStarts], _, rfl⟩
  | foreign => exact ⟨"CONSTRAINT", by simp [constraintStarts], _, rfl⟩

theorem getLast?_clause (k : Key) : k.clause.getLast? = some ')' := by
  have hq : ∀ front name columns,
      (quoted front name (grouped [' '] columns [])).getLast? = some ')' := by
    intro front name columns
    rw [getLast?_quoted front name (grouped_ne_nil _ _ _), getLast?_grouped_nil]
  cases k with
  | primary columns => exact getLast?_grouped_nil _ _
  | plain name columns => exact hq _ _ _
  | unique name columns => exact hq _ _ _
  | foreign name columns target referenced =>
    have hf := getLast?_grouped " FOREIGN KEY ".toList columns
      (quoted_ne_nil " REFERENCES ".toList target (grouped [' '] referenced []))
    exact (getLast?_quoted _ _ (grouped_ne_nil _ _ _)).trans (hf.trans (hq _ _ _))

theorem head?_clause (k : Key) : ∃ c, k.clause.head? = some c ∧ Text.isBlank c = false := by
  cases k with
  | primary => exact ⟨'P', rfl, by decide⟩
  | plain => exact ⟨'K', rfl, by decide⟩
  | unique => exact ⟨'U', rfl, by decide⟩
  | foreign => exact ⟨'C', rfl, by decide⟩

theorem tight_clause (k : Key) : Tight k.clause := by
  obtain ⟨first, hf, hb⟩ := k.head?_clause
  exact Text.tight_of_ends hf k.getLast?_clause hb (by decide)

theorem clause_ne_nil (k : Key) : k.clause ≠ [] := by
  intro h
  have hl := k.getLast?_clause
  simp [h] at hl

def item (k : Key) (indent : ℕ) : Item :=
  ⟨indent, k.clause, k.inert_clause, k.clause_ne_nil, k.tight_clause⟩

theorem clause_item (k : Key) (indent : ℕ) : (k.item indent).clause = k.clause := rfl

theorem fieldOf?_clause (k : Key) : fieldOf? k.clause = none := by
  have ht := k.tight_clause
  obtain ⟨start, hs, rest, he⟩ := k.exists_start
  rw [he] at ht ⊢
  exact fieldOf?_constraint hs ht

end Key

/-- A table of a dump: its columns, at least one, and its keys, each key line with its own indentation. -/
structure TableText where
  name : String
  guarded : Bool
  columns : List Column
  keys : List (ℕ × Key)
  name_ne : name ≠ ""
  name_plain : name.toList.all (fun c => c.isAlphanum || c == '_') = true
  columns_ne : columns ≠ []

def createMark : List Char := "CREATE TABLE ".toList

def guardMark : List Char := "IF NOT EXISTS ".toList

namespace TableText

def table (t : TableText) : Table := ⟨t.name, t.columns.map Column.field⟩

def guard (t : TableText) : List Char := if t.guarded then guardMark else []

def front (t : TableText) : Line := createMark ++ (t.guard ++ quoted [] t.name.toList [' '])

def back : Line := " ENGINE=InnoDB;".toList

def items (t : TableText) : List Item :=
  t.columns.map Column.item ++ t.keys.map fun k => k.2.item k.1

def lines (t : TableText) : List Line :=
  (t.front ++ ['(']) :: (itemLines t.items ++ [')' :: back])

end TableText

inductive Part where
  | table (t : TableText)
  | other (line : Line) (newline : '\n' ∉ line) (header : isHeader line = false)

def Part.lines : Part → List Line
  | table t => t.lines
  | other line .. => [line]

def Part.tableText? : Part → Option TableText
  | table t => some t
  | other .. => none

def Part.table? (p : Part) : Option Table := p.tableText?.map TableText.table

def dumpText (parts : List Part) : String :=
  String.ofList (Text.joinLines (parts.flatMap Part.lines))

end TableLoader.Dump
