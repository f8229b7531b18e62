import TableLoader.Proofs.Dump.PlainTable

/-! # Plain tables in the grammar

The statement of a plain table falls into the tokens of its columns with commas between them, and MySQL's
grammar reads these as the table, its types in capitals. -/
namespace TableLoader.Dump

open Sql (Token Yields DataType Nest)

namespace PlainColumn

def optionTokens (c : PlainColumn) : List Token :=
  if c.nullable then [] else [.word "NOT" "NOT" none, .word "NULL" "NULL" none]

def tokens (c : PlainColumn) : List Token :=
  .quotedWord '\x60' c.name.toList :: .word c.word c.type.name none ::
    (c.type.measureTokens ++ c.optionTokens)

def definition (c : PlainColumn) : Sql.Column :=
  ⟨⟨c.name, some '\x60'⟩, c.type.dataType, if c.nullable then [] else [.notNull]⟩

theorem options_column (c : PlainColumn) :
    c.column.options = if c.nullable then [] else " NOT NULL".toList := by
  cases hn : c.nullable <;> simp [Column.options, column, field, hn]

theorem line_column (c : PlainColumn) : c.column.item.line =
    ' ' :: ' ' :: '\x60' :: (c.name.toList ++ '\x60' :: ' ' ::
      (c.word.toList ++ (c.type.measureText ++ c.column.options))) := by
  simp [Item.line, Column.item, Column.clause, quoted, column, field, declared, List.replicate]

theorem yields_options (c : PlainColumn) {rest : List Char} {ts : List Token}
    (hr : ∀ x ∈ rest.head?, Dialect.isWordPart .mysql x = false) (h : Yields .mysql rest ts) :
    Yields .mysql (c.column.options ++ rest) (c.optionTokens ++ ts) := by
  rw [options_column, optionTokens]
  cases c.nullable with
  | true => exact h
  | false =>
    have hnull : Yields .mysql ("NULL".toList ++ rest) (.word "NULL" "NULL" none :: ts) :=
      Yields.word (List.all_eq_true.mp (by decide +kernel)) (by decide) hr h
    have hnot : Yields .mysql ("NOT".toList ++ ' ' :: ("NULL".toList ++ rest))
        (.word "NOT" "NOT" none :: .word "NULL" "NULL" none :: ts) :=
      Yields.word (List.all_eq_true.mp (by decide +kernel)) (by decide)
        (Sql.word_ends (by simp) _) (Yields.blank (Or.inl rfl) hnull)
    exact Yields.blank (Or.inl rfl) hnot

theorem yields (c : PlainColumn) {rest : List Char} {ts : List Token}
    (hr : ∀ x ∈ rest.head?, Dialect.isWordPart .mysql x = false) (h : Yields .mysql rest ts) :
    Yields .mysql (c.column.item.line ++ rest) (c.tokens ++ ts) := by
  have hw : ∀ x ∈ (c.column.options ++ rest).head?, Dialect.isWordPart .mysql x = false := by
    rw [options_column]
    cases c.nullable with
    | true => exact hr
    | false => exact Sql.word_ends (c := ' ') (by simp) _
  have ht := c.type.yields c.cased hw (c.yields_options hr h)
  have hn := Yields.name (c.isName.notMem (by simp)) (by simp) (Yields.blank (Or.inl rfl) ht)
  have hl := Yields.blank (Or.inl rfl) (Yields.blank (Or.inl rfl) hn)
  simpa [line_column, tokens] using hl

end PlainColumn

def listTokens : List PlainColumn → List Token
  | [] => []
  | [c] => c.tokens
  | c :: d :: columns => c.tokens ++ .symbol "," :: listTokens (d :: columns)

namespace PlainTable

def statementLines (t : PlainTable) : List Line := t.header :: (itemLines t.items ++ [closing])

def tokens (t : PlainTable) : List Token :=
  .word "CREATE" "CREATE" none :: .word "TABLE" "TABLE" none :: .quotedWord '\x60' t.name.toList ::
    .symbol "(" :: (listTokens t.columns ++ [.symbol ")", .symbol ";"])

def definition (t : PlainTable) : Sql.TableDefinition :=
  ⟨[⟨t.name, some '\x60'⟩], t.columns.map fun c => .column c.definition⟩

theorem yields_columns (columns : List PlainColumn) :
    Yields .mysql
      (Text.joinLines (itemLines (columns.map fun c => c.column.item) ++ [closing]))
      (listTokens columns ++ [.symbol ")", .symbol ";"]) := by
  have hclosing : Yields .mysql closing [.symbol ")", .symbol ";"] :=
    Yields.mark (by simp) (Yields.mark (by simp) (Yields.nil .mysql))
  have hend : Yields .mysql ('\n' :: closing) [.symbol ")", .symbol ";"] :=
    Yields.blank (Or.inr rfl) hclosing
  fun_induction listTokens columns with
  | case1 => simpa [Text.joinLines, itemLines] using hclosing
  | case2 c =>
    have hc := c.yields (Sql.word_ends (by simp) _) hend
    simpa [Text.joinLines, itemLines] using hc
  | case3 c d columns ih =>
    have hcomma := Yields.mark (c := ',') (by simp) (Yields.blank (Or.inr rfl) ih)
    have hc := c.yields (Sql.word_ends (by simp) _) hcomma
    rw [List.map_cons, List.map_cons, itemLines, List.cons_append, Text.joinLines_cons (by simp)]
    simpa using hc

theorem yields_createMark {rest : List Char} {ts : List Token} (h : Yields .mysql rest ts) :
    Yields .mysql (createMark ++ rest)
      (.word "CREATE" "CREATE" none :: .word "TABLE" "TABLE" none :: ts) := by
  have hb : ∀ cs, ∀ x ∈ (' ' :: cs).head?, Dialect.isWordPart .mysql x = false :=
    Sql.word_ends (by simp)
  have htable : Yields .mysql ("TABLE".toList ++ ' ' :: rest) (.word "TABLE" "TABLE" none :: ts) :=
    Yields.word (List.all_eq_true.mp (by decide +kernel)) (by decide) (hb rest)
      (Yields.blank (Or.inl rfl) h)
  exact Yields.word (w := "CREATE".toList) (List.all_eq_true.mp (by decide +kernel)) (by decide)
    (hb _) (Yields.blank (Or.inl rfl) htable)

theorem yields (t : PlainTable) : Yields .mysql (Text.joinLines t.statementLines) t.tokens := by
  have hq : '\x60' ∉ t.name.toList := t.frame.name_notMem (by decide)
  have hbody := Yields.blank (c := '\n') (Or.inr rfl) (yields_columns t.columns)
  have hopen := Yields.mark (c := '(') (by simp) hbody
  have hname := Yields.name hq (by simp) (Yields.blank (c := ' ') (Or.inl rfl) hopen)
  rw [statementLines, Text.joinLines_cons (by simp), header, List.append_assoc]
  simpa [quoted, items, tokens] using yields_createMark hname

end PlainTable

section Reading

open Sql (bind_of_read)

namespace PlainColumn

theorem ident_name (c : PlainColumn) (ts : List Token) :
    Sql.ident (.quotedWord '\x60' c.name.toList :: ts) = .read ⟨c.name, some '\x60'⟩ ts := by
  rw [Token.quotedWord, String.ofList_toList]
  rfl

theorem columnOptions_tokens (c : PlainColumn) (nest : Nest) {stop : Token}
    (hs : stop = .symbol "," ∨ stop = .symbol ")") (rest : List Token) :
    Sql.columnOptions .mysql nest (c.optionTokens ++ stop :: rest) =
      .read c.definition.options (stop :: rest) := by
  rw [optionTokens, definition]
  cases c.nullable <;> rcases hs with rfl | rfl <;> rfl

/-- Behind a name, however it is written, the rest of a column is read as its type and its options. -/
theorem columnDefinition_of_ident (c : PlainColumn) (nest : Nest) {t : Token} {name : Sql.Ident}
    (hn : ∀ ts, Sql.ident (t :: ts) = .read name ts) {stop : Token}
    (hs : stop = .symbol "," ∨ stop = .symbol ")") (rest : List Token) :
    Sql.columnDefinition .mysql nest (t :: .word c.word c.type.name none ::
      (c.type.measureTokens ++ (c.optionTokens ++ stop :: rest))) =
      .read ⟨name, c.type.dataType, c.definition.options⟩ (stop :: rest) := by
  have ht : Sql.dataType .mysql (.word c.word c.type.name none ::
      (c.type.measureTokens ++ (c.optionTokens ++ stop :: rest))) =
        .read c.type.dataType (c.optionTokens ++ stop :: rest) := by
    rw [optionTokens]
    cases c.nullable with
    | true =>
      refine c.type.dataType_plain c.word ?_ rest
      rcases hs with rfl | rfl <;> simp [Sql.PlainType.followers]
    | false => exact c.type.dataType_plain c.word (by simp [Sql.PlainType.followers]) _
  have hl : ∀ ts, Sql.Reader.look (Sql.lacksType .mysql) ts = .read false ts := fun _ => rfl
  rw [Sql.columnDefinition, bind_of_read (hn _), bind_of_read (hl _), if_neg Bool.false_ne_true,
    bind_of_read ht]
  exact bind_of_read (c.columnOptions_tokens nest hs rest) _

theorem columnDefinition_tokens (c : PlainColumn) (nest : Nest) {stop : Token}
    (hs : stop = .symbol "," ∨ stop = .symbol ")") (rest : List Token) :
    Sql.columnDefinition .mysql nest (c.tokens ++ stop :: rest) =
      .read c.definition (stop :: rest) := by
  rw [tokens, List.cons_append, List.cons_append, List.append_assoc]
  exact c.columnDefinition_of_ident nest c.ident_name hs rest

theorem tableItem_tokens (c : PlainColumn) (nest : Nest) {stop : Token}
    (hs : stop = .symbol "," ∨ stop = .symbol ")") (rest : List Token) :
    Sql.tableItem .mysql nest (c.tokens ++ stop :: rest) =
      .read (.column c.definition) (stop :: rest) := by
  have hc : Sql.tableConstraint .mysql nest (c.tokens ++ stop :: rest) =
      .read false (c.tokens ++ stop :: rest) := rfl
  have hd := c.columnDefinition_tokens nest hs rest
  rw [Sql.tableItem, bind_of_read hc, if_neg Bool.false_ne_true]
  exact bind_of_read hd _

end PlainColumn

theorem exists_listTokens {columns : List PlainColumn} (h : columns ≠ []) :
    ∃ name more, listTokens columns = .quotedWord '\x60' name :: more := by
  fun_cases listTokens columns with
  | case1 => exact absurd rfl h
  | case2 c => exact ⟨_, _, rfl⟩
  | case3 c d columns => exact ⟨_, _, rfl⟩

theorem length_le_listTokens (columns : List PlainColumn) :
    columns.length ≤ (listTokens columns).length := by
  fun_induction listTokens columns with
  | case1 => exact le_rfl
  | case2 c => simp [PlainColumn.tokens]
  | case3 c d columns ih =>
    simp only [List.length_cons, List.length_append] at ih ⊢
    omega

theorem itemsUpTo_listTokens (nest : Nest) (rest : List Token) {columns : List PlainColumn}
    (hne : columns ≠ []) {bound : ℕ} (hb : columns.length ≤ bound) :
    Sql.itemsUpTo (Sql.tableItem .mysql nest) bound
        (listTokens columns ++ .symbol ")" :: rest) =
      .read (columns.map fun c => .column c.definition) (.symbol ")" :: rest) := by
  fun_induction listTokens columns generalizing bound with
  | case1 => exact absurd rfl hne
  | case2 c =>
    obtain ⟨bound, rfl⟩ := Nat.exists_eq_add_of_le' hb
    have hc := c.tableItem_tokens nest (Or.inr rfl) rest
    rw [List.length_singleton, Sql.itemsUpTo, bind_of_read hc]
    rfl
  | case3 c d columns ih =>
    obtain ⟨bound, rfl⟩ := Nat.exists_eq_add_of_le' hb
    have hc := c.tableItem_tokens nest (Or.inl rfl)
      (listTokens (d :: columns) ++ .symbol ")" :: rest)
    have hcomma : ∀ ts, Sql.symbol "," (.symbol "," :: ts) = .read true ts := fun _ => rfl
    have hle : (d :: columns).length ≤ bound + (d :: columns).length := by omega
    have hrest := ih (by simp) hle
    rw [List.append_assoc, List.cons_append, List.length_cons, ← add_assoc, Sql.itemsUpTo,
      bind_of_read hc, bind_of_read (hcomma _), if_pos rfl]
    exact bind_of_read hrest _

theorem statementsUpTo_of_read {nest : Nest} {t : Token} {ts : List Token} {found : Sql.Statement}
    (ht : t.isSymbol ";" = false) (hs : Sql.statement .mysql nest (t :: ts) = .read found [.symbol ";"])
    {bound : ℕ} (hb : 1 < bound) : Sql.statementsUpTo .mysql nest bound (t :: ts) = some [found] := by
  obtain ⟨bound, rfl⟩ := Nat.exists_eq_add_of_le' hb
  rw [Sql.statementsUpTo, List.dropWhile_cons_of_neg (by simp [ht])]
  simp only [hs]
  rfl

theorem statementsUpTo_of_refused {nest : Nest} {t : Token} {ts : List Token}
    (ht : t.isSymbol ";" = false) (hs : Sql.statement .mysql nest (t :: ts) = .refused) (bound : ℕ) :
    Sql.statementsUpTo .mysql nest bound (t :: ts) = none := by
  cases bound with
  | zero => rfl
  | succ bound =>
    rw [Sql.statementsUpTo, List.dropWhile_cons_of_neg (by simp [ht])]
    simp only [hs]

namespace PlainTable

theorem tableItems_tokens (t : PlainTable) (nest : Nest) (rest : List Token) :
    Sql.tableItems .mysql nest (.symbol "(" :: (listTokens t.columns ++ .symbol ")" :: rest)) =
      .read (t.columns.map fun c => .column c.definition) rest := by
  by_cases h : t.columns = []
  · rw [h]
    rfl
  · obtain ⟨name, more, hs⟩ := exists_listTokens h
    have ho : ∀ ts, Sql.symbol "(" (.symbol "(" :: ts) = .read true ts := fun _ => rfl
    have hc : Sql.symbol ")" (listTokens t.columns ++ .symbol ")" :: rest) =
        .read false (listTokens t.columns ++ .symbol ")" :: rest) := by
      rw [hs]
      rfl
    have hl : t.columns.length ≤ (listTokens t.columns ++ .symbol ")" :: rest).length + 1 := by
      have hle := length_le_listTokens t.columns
      rw [List.length_append]
      omega
    have hi := itemsUpTo_listTokens nest rest h hl
    rw [Sql.tableItems, bind_of_read (ho _), if_pos rfl, bind_of_read hc, if_neg Bool.false_ne_true]
    exact bind_of_read hi _

theorem tableDefinition_tokens (t : PlainTable) (nest : Nest) :
    Sql.tableDefinition .mysql nest (.quotedWord '\x60' t.name.toList ::
      .symbol "(" :: (listTokens t.columns ++ [.symbol ")", .symbol ";"])) =
      .read t.definition [.symbol ";"] := by
  -- A quoted name and a parenthesis leave no room for what else may stand before the items.
  have hname : ∀ (name : String) (ts : List Token),
      Sql.tableDefinition .mysql nest (.word name "" (some '\x60') :: .symbol "(" :: ts) =
        (do
          let items ← Sql.tableItems .mysql nest
          Sql.tableOptions .mysql nest
          return ⟨[⟨name, some '\x60'⟩], items⟩ : Sql.Reader Sql.TableDefinition)
          (.symbol "(" :: ts) := fun _ _ => rfl
  have hi := t.tableItems_tokens nest [.symbol ";"]
  have ho : Sql.tableOptions .mysql nest [.symbol ";"] = .read () [.symbol ";"] := rfl
  rw [Token.quotedWord, String.ofList_toList, hname, bind_of_read hi]
  exact bind_of_read ho _

theorem statement_tokens (t : PlainTable) (nest : Nest) :
    Sql.statement .mysql nest t.tokens = .read (.createTable t.definition) [.symbol ";"] := by
  have hd := t.tableDefinition_tokens nest
  have hc : ∀ ts, Sql.statement .mysql nest
      (.word "CREATE" "CREATE" none :: .word "TABLE" "TABLE" none :: ts) =
        (do return .createTable (← Sql.tableDefinition .mysql nest) : Sql.Reader _) ts :=
    fun _ => rfl
  rw [tokens, hc]
  exact bind_of_read hd _

theorem statementsUpTo_tokens (t : PlainTable) (nest : Nest) {bound : ℕ} (hb : 1 < bound) :
    Sql.statementsUpTo .mysql nest bound t.tokens = some [.createTable t.definition] :=
  statementsUpTo_of_read rfl (t.statement_tokens nest) hb

/-- The statement of a table is read as that table alone. -/
theorem statements?_statementLines (t : PlainTable) :
    Sql.statements? .mysql (Text.joinLines t.statementLines) =
      some [.createTable t.definition] := by
  have hl : 1 < t.tokens.length + 1 := by simp [tokens]
  rw [Sql.statements?, t.yields.tokens?, Option.bind_some]
  exact t.statementsUpTo_tokens _ hl

end PlainTable

end Reading

end TableLoader.Dump
