import TableLoader.Proofs.Dump.Agreement
import TableLoader.Proofs.Dump.PlainNames

/-! # What cleaning drops of a table

Of the directives only `COMMIT` needs no blank behind it, so behind names that are no keywords cleaning drops
exactly the columns whose names begin so. In the middle of a table such a column is lost; at its end it leaves
a comma behind, and the grammar refuses the table. -/
namespace TableLoader.Dump

open Sql (Token Yields Nest)

/-- The words that a column without quotes cannot be called: they begin constraints or directives. -/
def keywordNames : List String :=
  reservedNames ++ ["FULLTEXT", "SPATIAL", "SET", "START", "LOCK", "UNLOCK"]

structure BareColumn extends PlainColumn where
  indent : ℕ
  plain : IsPlainName name.toList
  start : ∀ c ∈ name.toList.head?, c.isDigit = false
  unreserved : ∀ keyword ∈ keywordNames, Text.toUpper name.toList ≠ keyword.toList

namespace BareColumn

def wordColumn (c : BareColumn) : WordColumn :=
  ⟨c.column, c.plain, fun word hw => c.unreserved word (List.mem_append_left _ hw)⟩

theorem not_opensStatement (c : BareColumn) : ¬ c.wordColumn.OpensStatement := by
  have hn : ∀ name ∈ Sql.typeNames, ¬ "TA".toList <+: name.toList := by decide +kernel
  rintro ⟨-, h⟩
  have hd : c.wordColumn.field.declaredType.toList = c.declared := String.toList_ofList
  rw [hd, PlainColumn.declared, Text.toUpper_append, c.upper_word.1] at h
  have ht : "TA".toList <+: c.type.name.toList ++ Text.toUpper c.type.measureText :=
    (show "TA".toList <+: "TABLE".toList by decide).trans h
  have hl : "TA".toList.length ≤ c.type.name.toList.length := c.type.length_name
  exact hn _ c.type.name_mem (List.prefix_of_prefix_length_le ht (List.prefix_append _ _) hl)

def item (c : BareColumn) : Item :=
  { c.wordColumn.item c.not_opensStatement with indent := c.indent }

def line (c : BareColumn) : Line := c.item.line

/-- A name that begins like a directive. -/
def Hidden (c : BareColumn) : Prop := "COMMIT".toList <+: c.name.toList

instance : DecidablePred Hidden := fun c => by unfold Hidden; infer_instance

theorem clause_item (c : BareColumn) : c.item.clause =
    c.name.toList ++ ' ' :: (c.declared ++ c.column.options) := by
  have hd : c.wordColumn.field.declaredType.toList = c.declared := String.toList_ofList
  exact congrArg (fun d => c.name.toList ++ ' ' :: (d ++ c.column.options)) hd

theorem isDirective_line (c : BareColumn) {comma : List Char} (h : comma = [] ∨ comma = [',']) :
    isDirective (c.line ++ comma) = true ↔ c.Hidden := by
  obtain ⟨first, more, hn, hf, -⟩ := c.plain.exists_cons c.start
  have hmark : ∀ x ∈ ['*', '-', '/'], first ≠ x := by
    rintro x hx rfl
    simp only [List.mem_cons, List.not_mem_nil, or_false] at hx
    rcases hx with rfl | rfl | rfl <;> exact absurd hf (by decide)
  have hblank : ' ' ∉ c.name.toList := fun hm => absurd (c.isName.plain _ hm).1 (by decide)
  have htrim : Text.trim (c.line ++ comma) =
      c.name.toList ++ ' ' :: (c.declared ++ c.column.options ++ comma) := by
    rw [line, c.item.trim_line_append h, c.clause_item]
    simp
  -- A directive of two words would have the first of them for the name.
  have hword : ∀ keyword ∈ ["SET", "START", "LOCK", "UNLOCK"], ∀ v,
      ¬ keyword.toList ++ ' ' :: v <+: Text.trim (c.line ++ comma) := by
    intro keyword hk v hp
    have hb : ∀ keyword ∈ ["SET", "START", "LOCK", "UNLOCK"],
        ' ' ∉ keyword.toList ∧ Text.toUpper keyword.toList = keyword.toList ∧
          keyword ∈ keywordNames := by decide +kernel
    obtain ⟨hb, hu, hm⟩ := hb keyword hk
    rw [htrim, Text.prefix_append_cons_iff hb hblank] at hp
    exact c.unreserved keyword hm (hp.1 ▸ hu)
  have hopen : Text.trim (c.line ++ comma) ≠ [] ∧ Text.trim (c.line ++ comma) ≠ "*/".toList ∧
      (∀ more, ¬ '-' :: more <+: Text.trim (c.line ++ comma)) ∧
      ∀ more, ¬ '/' :: more <+: Text.trim (c.line ++ comma) := by
    rw [htrim, hn]
    refine ⟨List.cons_ne_nil _ _, fun he => ?_, fun _ hp => ?_, fun _ hp => ?_⟩
    · exact hmark '*' (by simp) (List.cons.inj he).1
    · exact hmark '-' (by simp) (List.cons_prefix_cons.mp hp).1.symm
    · exact hmark '/' (by simp) (List.cons_prefix_cons.mp hp).1.symm
  obtain ⟨hne, hclose, hdash, hslash⟩ := hopen
  simp only [isDirective, Bool.or_eq_true, List.isEmpty_iff, beq_iff_eq, hne, hclose, or_false,
    false_or, List.any_eq_true, List.isPrefixOf_iff_prefix]
  constructor
  · rintro ⟨start, hs, hp⟩
    simp only [directiveStarts, List.mem_cons, List.not_mem_nil, or_false] at hs
    rcases hs with rfl | rfl | rfl | rfl | rfl | rfl | rfl
    · exact absurd hp (hdash ['-'])
    · exact absurd hp (hslash ['*'])
    · exact absurd hp (hword "SET" (by simp) [])
    · exact absurd hp (hword "START" (by simp) "TRANSACTION".toList)
    · exact Text.prefix_of_prefix_append_cons (by decide) (htrim ▸ hp)
    · exact absurd hp (hword "LOCK" (by simp) "TABLES".toList)
    · exact absurd hp (hword "UNLOCK" (by simp) "TABLES".toList)
  · intro hc
    refine ⟨"COMMIT", by simp [directiveStarts], ?_⟩
    rw [htrim]
    exact List.IsPrefix.trans hc (List.prefix_append _ _)

def tokens (c : BareColumn) : List Token :=
  .bareWord c.name.toList :: .word c.word c.type.name none ::
    (c.type.measureTokens ++ c.optionTokens)

def definition (c : BareColumn) : Sql.Column :=
  ⟨⟨c.name, none⟩, c.type.dataType, c.toPlainColumn.definition.options⟩

def capitalized (c : BareColumn) : Field :=
  ⟨c.name, String.ofList (c.type.name.toList ++ c.type.measureText), c.nullable⟩

theorem ofColumn_definition (c : BareColumn) : .ofColumn c.definition = c.capitalized := by
  cases hn : c.nullable <;>
    simp [Field.ofColumn, definition, PlainColumn.definition, capitalized, hn,
      Sql.PlainType.render_dataType]

theorem yields_line (c : BareColumn) {rest : List Char} {ts : List Token}
    (hr : ∀ x ∈ rest.head?, Dialect.isWordPart .mysql x = false) (h : Yields .mysql rest ts) :
    Yields .mysql (c.line ++ rest) (c.tokens ++ ts) := by
  obtain ⟨first, more, hn, hf, hm⟩ := c.plain.exists_cons c.start
  have hw : ∀ x ∈ (c.column.options ++ rest).head?, Dialect.isWordPart .mysql x = false := by
    rw [c.options_column]
    cases c.nullable with
    | true => exact hr
    | false => exact Sql.word_ends (c := ' ') (by simp) _
  have ht := c.type.yields c.cased hw (c.yields_options hr h)
  have hclause := Yields.identifier hf hm ht
  have hline : c.line ++ rest = List.replicate c.indent ' ' ++ (first :: (more ++ ' ' ::
      (c.word.toList ++ (c.type.measureText ++ (c.column.options ++ rest))))) := by
    rw [line, Item.line, c.clause_item, hn, PlainColumn.declared]
    simp [item]
  rw [hline, tokens, hn]
  simpa using Yields.blanks c.indent hclause

theorem tableConstraint_tokens (c : BareColumn) (nest : Nest) (ts : List Token) :
    Sql.tableConstraint .mysql nest (.bareWord c.name.toList :: ts) =
      .read false (.bareWord c.name.toList :: ts) := by
  have hne : ∀ key ∈ keywordNames, String.ofList (Text.toUpper c.name.toList) ≠ key := by
    rintro key hk rfl
    exact c.unreserved _ hk String.toList_ofList.symm
  have hkey : ∀ key ∈ keywordNames, Sql.keyword key (.bareWord c.name.toList :: ts) =
      .read false (.bareWord c.name.toList :: ts) := by
    intro key hk
    simp [Sql.keyword, Sql.Reader.takes, Token.bareWord, Token.isKeyword, hne key hk]
  have hone : ∀ keys ⊆ keywordNames, Sql.oneOf keys (.bareWord c.name.toList :: ts) =
      .read none (.bareWord c.name.toList :: ts) := by
    intro keys hk
    have hnot : String.ofList (Text.toUpper c.name.toList) ∉ keys := fun hm => hne _ (hk hm) rfl
    simp [Sql.oneOf, Token.bareWord, Token.keyword?, hnot]
  rw [Sql.tableConstraint, Sql.bind_of_read (hkey "CONSTRAINT" (by decide)),
    if_neg Bool.false_ne_true, Sql.constraintBody, Sql.bind_of_read (hkey "UNIQUE" (by decide)),
    if_neg Bool.false_ne_true, Sql.bind_of_read (hkey "PRIMARY" (by decide)),
    if_neg Bool.false_ne_true, Sql.bind_of_read (hkey "FOREIGN" (by decide)),
    if_neg Bool.false_ne_true, Sql.bind_of_read (hkey "CHECK" (by decide)),
    if_neg Bool.false_ne_true, if_pos (by decide), Sql.bind_of_read (hone _ (by decide)),
    if_neg (by decide), Sql.bind_of_read (hone _ (by decide)), if_neg (by decide)]
  rfl

theorem tableItem_tokens (c : BareColumn) (nest : Nest) {stop : Token}
    (hs : stop = .symbol "," ∨ stop = .symbol ")") (rest : List Token) :
    Sql.tableItem .mysql nest (c.tokens ++ stop :: rest) =
      .read (.column c.definition) (stop :: rest) := by
  have hn : ∀ ts, Sql.ident (.bareWord c.name.toList :: ts) = .read ⟨c.name, none⟩ ts := by
    intro ts
    rw [Token.bareWord, String.ofList_toList]
    rfl
  have hd := c.columnDefinition_of_ident nest hn hs rest
  rw [tokens, List.cons_append, List.cons_append, List.append_assoc, Sql.tableItem,
    Sql.bind_of_read (c.tableConstraint_tokens nest _), if_neg Bool.false_ne_true]
  exact Sql.bind_of_read hd _

end BareColumn

def commaLines (columns : List BareColumn) : List Line := columns.map fun c => c.line ++ [',']

theorem isBodyLine_commaLines (columns : List BareColumn) :
    ∀ line ∈ commaLines columns, IsBodyLine line := by
  intro line hl
  obtain ⟨c, -, rfl⟩ := List.mem_map.mp hl
  exact c.item.isBodyLine_append (Or.inr rfl)

theorem filter_commaLines (columns : List BareColumn) :
    (commaLines columns).filter (!isDirective ·) =
      commaLines (columns.filter fun c => ¬ c.Hidden) := by
  rw [commaLines, commaLines, List.filter_map]
  congr 1
  refine List.filter_congr fun c _ => ?_
  have hc := c.isDirective_line (Or.inr rfl)
  by_cases h : c.Hidden <;> simp_all

theorem yields_commaLines (columns : List BareColumn) {lines : List Line} (hne : lines ≠ [])
    {ts : List Token} (h : Yields .mysql (Text.joinLines lines) ts) :
    Yields .mysql (Text.joinLines (commaLines columns ++ lines))
      (columns.flatMap (fun c => c.tokens ++ [.symbol ","]) ++ ts) := by
  induction columns with
  | nil => exact h
  | cons c columns ih =>
    have hcomma := Yields.mark (c := ',') (by simp) (Yields.blank (Or.inr rfl) ih)
    have hc := c.yields_line (Sql.word_ends (by simp) _) hcomma
    rw [commaLines, List.map_cons, List.cons_append, Text.joinLines_cons (by simp [hne])]
    simpa [commaLines] using hc

structure BareTable where
  name : String
  init : List BareColumn
  last : BareColumn
  plain : IsPlainName name.toList
  start : ∀ c ∈ name.toList.head?, c.isDigit = false

namespace BareTable

def columns (t : BareTable) : List BareColumn := t.init ++ [t.last]

def front (t : BareTable) : Line := createMark ++ (t.name.toList ++ [' '])

def header (t : BareTable) : Line := t.front ++ ['(']

def lines (t : BareTable) : List Line :=
  t.header :: (commaLines t.init ++ [t.last.line, PlainTable.closing])

def text (t : BareTable) : String := String.ofList (Text.joinLines t.lines)

def kept (t : BareTable) : List BareColumn := t.init.filter fun c => ¬ c.Hidden

def tailLines (t : BareTable) : List Line :=
  (if t.last.Hidden then [] else [t.last.line]) ++ [PlainTable.closing]

def keptLines (t : BareTable) : List Line := t.header :: (commaLines t.kept ++ t.tailLines)

theorem notMem_front (t : BareTable) {x : Char} (hx : x ∉ createMark)
    (hn : x.isAlphanum = false ∧ x ≠ '_') : x ∉ t.front := by
  have hb : x ≠ ' ' := fun he => hx (he ▸ by decide)
  simp [front, hx, hb, t.plain.notMem hn]

theorem isHeader_header (t : BareTable) : isHeader t.header = true := by
  rw [header, front, List.append_assoc]
  exact isHeader_createMark_append _

theorem nesting_header (t : BareTable) : nesting t.header = 1 :=
  nesting_append_open (t.notMem_front (by decide) (by decide)) (t.notMem_front (by decide) (by decide))

theorem isBodyLine_last (t : BareTable) : IsBodyLine t.last.line := by
  have h := t.last.item.isBodyLine_append (Or.inl rfl)
  rw [List.append_nil] at h
  exact h

theorem whole_lines (t : BareTable) :
    ∀ line ∈ t.lines, '\n' ∉ line ∧ line ≠ [] ∧ line.getLast? ≠ some '\r' := by
  have hn : '\n' ∉ t.front := t.notMem_front (by decide) (by decide)
  have hb : ∀ {line : Line}, IsBodyLine line →
      '\n' ∉ line ∧ line ≠ [] ∧ line.getLast? ≠ some '\r' := fun h => ⟨h.newline, h.whole⟩
  rw [lines, List.forall_mem_cons, List.forall_mem_append, List.forall_mem_cons,
    List.forall_mem_singleton]
  refine ⟨by simp [header, hn], fun line hm => hb (isBodyLine_commaLines _ line hm),
    hb t.isBodyLine_last, by decide⟩

theorem lines_text (t : BareTable) : Text.lines t.text.toList = t.lines := by
  rw [text, String.toList_ofList, Text.lines_joinLines_of_whole t.whole_lines]

theorem isDirective_last (t : BareTable) : isDirective t.last.line = true ↔ t.last.Hidden := by
  have h := t.last.isDirective_line (Or.inl rfl)
  rwa [List.append_nil] at h

theorem isDirective_header (t : BareTable) : isDirective t.header = false := by
  rw [header, front, List.append_assoc]
  exact isDirective_createMark_append _

theorem isDirective_closing : isDirective PlainTable.closing = false := by decide +kernel

theorem kept_text (t : BareTable) : Dump.kept t.text.toList = t.keptLines := by
  have htail : [t.last.line, PlainTable.closing].filter (!isDirective ·) = t.tailLines := by
    have hl := t.isDirective_last
    rw [tailLines]
    by_cases h : t.last.Hidden
    · simp [h, hl.mpr h, isDirective_closing]
    · simp [h, Bool.eq_false_iff.mpr (hl.not.mpr h), isDirective_closing]
  rw [Dump.kept, lines_text, lines, List.filter_cons_of_pos (by simp [isDirective_header]),
    List.filter_append, filter_commaLines, htail]
  rfl

theorem lines_clean_text (t : BareTable) : Text.lines (clean t.text.toList) = t.keptLines := by
  have hk : ∀ line ∈ Dump.kept t.text.toList, line ∈ t.lines :=
    fun line hm => t.lines_text ▸ List.mem_of_mem_filter hm
  rw [lines_clean, Text.finishLines_eq_self fun line hm => (t.whole_lines line (hk line hm)).2,
    kept_text]

theorem isDirective_lines_iff (t : BareTable) :
    (∀ line ∈ t.lines, isDirective line = false) ↔ ∀ c ∈ t.columns, ¬ c.Hidden := by
  have hc : ∀ c : BareColumn, isDirective (c.line ++ [',']) = false ↔ ¬ c.Hidden := fun c => by
    rw [← c.isDirective_line (Or.inr rfl), Bool.not_eq_true]
  have hl : isDirective t.last.line = false ↔ ¬ t.last.Hidden := by
    rw [← t.isDirective_last, Bool.not_eq_true]
  simp [lines, commaLines, columns, isDirective_header, isDirective_closing, hc, hl, or_imp,
    forall_and]

theorem clean_text_eq_iff (t : BareTable) :
    clean t.text.toList = t.text.toList ↔ ∀ c ∈ t.columns, ¬ c.Hidden := by
  have hself : Dump.kept t.text.toList = t.lines ↔ ∀ line ∈ t.lines, isDirective line = false := by
    rw [Dump.kept, lines_text, List.filter_eq_self]
    simp
  rw [← isDirective_lines_iff, ← hself]
  constructor
  · intro h
    rw [kept_text, ← lines_clean_text, h, lines_text]
  · intro h
    have hc : clean t.text.toList = Text.joinLines (Dump.kept t.text.toList) := rfl
    rw [hc, h, text, String.toList_ofList]

theorem fragments_clean_text (t : BareTable) :
    fragments .terminator (clean t.text.toList) = [Text.joinLines t.keptLines] := by
  have hlast : ∀ line ∈ (if t.last.Hidden then [] else [t.last.line]), IsBodyLine line := by
    intro line hm
    split at hm
    · simp at hm
    · rw [List.mem_singleton.mp hm]
      exact t.isBodyLine_last
  have hi : ∀ line ∈ commaLines t.kept ++ (if t.last.Hidden then [] else [t.last.line]),
      isHeader line = false ∧ nesting line = 0 := by
    rw [List.forall_mem_append]
    exact ⟨fun line hm => (isBodyLine_commaLines _ line hm).inner, fun line hm => (hlast line hm).inner⟩
  have hc : isHeader PlainTable.closing = false := by decide +kernel
  have hscan := scan_statement t.isHeader_header t.nesting_header hi hc rfl
    (show Ending.terminator.allows PlainTable.closing = true by decide +kernel) []
  rw [List.append_assoc] at hscan
  rw [fragments, lines_clean_text, keptLines, tailLines, hscan]
  rfl

def tailTokens (t : BareTable) : List Token := if t.last.Hidden then [] else t.last.tokens

def itemTokens (t : BareTable) (rest : List Token) : List Token :=
  t.kept.flatMap (fun c => c.tokens ++ [.symbol ","]) ++ (t.tailTokens ++ .symbol ")" :: rest)

def tokens (t : BareTable) : List Token :=
  .word "CREATE" "CREATE" none :: .word "TABLE" "TABLE" none :: .bareWord t.name.toList ::
    .symbol "(" :: t.itemTokens [.symbol ";"]

theorem yields_tailLines (t : BareTable) :
    Yields .mysql (Text.joinLines t.tailLines) (t.tailTokens ++ [.symbol ")", .symbol ";"]) := by
  have hclosing : Yields .mysql PlainTable.closing [.symbol ")", .symbol ";"] :=
    Yields.mark (by simp) (Yields.mark (by simp) (Yields.nil .mysql))
  have hlast := t.last.yields_line (Sql.word_ends (c := '\n') (by simp) _)
    (Yields.blank (Or.inr rfl) hclosing)
  rw [tailLines, tailTokens]
  split
  · simpa [Text.joinLines] using hclosing
  · simpa [Text.joinLines] using hlast

theorem yields (t : BareTable) : Yields .mysql (Text.joinLines t.keptLines) t.tokens := by
  obtain ⟨first, more, hn, hf, hm⟩ := t.plain.exists_cons t.start
  have htail : t.tailLines ≠ [] := by simp [tailLines]
  have hitems := yields_commaLines t.kept htail t.yields_tailLines
  have hopen := Yields.mark (c := '(') (by simp) (Yields.blank (c := '\n') (Or.inr rfl) hitems)
  have hname := Yields.identifier hf hm hopen
  rw [keptLines, Text.joinLines_cons (by simp [htail]), header, front, tokens, itemTokens, hn]
  simpa using PlainTable.yields_createMark hname

open Sql (bind_of_read bind_of_refused)

def found (t : BareTable) : List BareColumn := t.columns.filter fun c => ¬ c.Hidden

theorem found_eq (t : BareTable) :
    t.found = t.kept ++ if t.last.Hidden then [] else [t.last] := by
  rw [found, columns, List.filter_append, kept]
  by_cases h : t.last.Hidden <;> simp [h]

theorem exists_itemTokens (t : BareTable) (rest : List Token)
    (h : ¬ (t.last.Hidden ∧ t.kept = [])) :
    ∃ name more, t.itemTokens rest = .bareWord name :: more := by
  by_cases hk : t.kept = []
  · have hl : ¬ t.last.Hidden := fun hl => h ⟨hl, hk⟩
    exact ⟨_, _, by rw [itemTokens, tailTokens, if_neg hl, hk]; rfl⟩
  · obtain ⟨c, more, hc⟩ := List.exists_cons_of_ne_nil hk
    exact ⟨_, _, by rw [itemTokens, hc]; rfl⟩

theorem itemsUpTo_tailTokens (t : BareTable) (nest : Nest) (bound : ℕ) (rest : List Token) :
    Sql.itemsUpTo (Sql.tableItem .mysql nest) (bound + 1) (t.tailTokens ++ .symbol ")" :: rest) =
      if t.last.Hidden then .refused
      else .read [.column t.last.definition] (.symbol ")" :: rest) := by
  rw [tailTokens]
  split
  · rfl
  · have hi := t.last.tableItem_tokens nest (Or.inr rfl) rest
    rw [Sql.itemsUpTo, bind_of_read hi]
    rfl

theorem tableItems_itemTokens (t : BareTable) (nest : Nest) (rest : List Token) :
    Sql.tableItems .mysql nest (.symbol "(" :: t.itemTokens rest) =
      if t.last.Hidden ∧ t.kept ≠ [] then .refused
      else .read (t.found.map fun c => .column c.definition) rest := by
  have ho : ∀ ts, Sql.symbol "(" (.symbol "(" :: ts) = .read true ts := fun _ => rfl
  by_cases h : t.last.Hidden ∧ t.kept = []
  · rw [if_neg fun hn => hn.2 h.2, found_eq, itemTokens, tailTokens, if_pos h.1, if_pos h.1, h.2]
    rfl
  · obtain ⟨name, more, hs⟩ := t.exists_itemTokens rest h
    have hc : Sql.symbol ")" (t.itemTokens rest) = .read false (t.itemTokens rest) := by
      rw [hs]
      rfl
    have hitem : ∀ c ∈ t.kept, ∀ ts, Sql.tableItem .mysql nest (c.tokens ++ .symbol "," :: ts) =
        .read (.column c.definition) (.symbol "," :: ts) :=
      fun c _ ts => c.tableItem_tokens nest (Or.inl rfl) ts
    obtain ⟨bound, hb⟩ := Sql.commaList_flatMap hitem (t.tailTokens ++ .symbol ")" :: rest)
    have ht := t.itemsUpTo_tailTokens nest bound rest
    rw [Sql.tableItems, bind_of_read (ho _), if_pos rfl, bind_of_read hc, if_neg Bool.false_ne_true]
    by_cases hl : t.last.Hidden
    · rw [if_pos hl] at ht
      rw [if_pos ⟨hl, fun hk => h ⟨hl, hk⟩⟩]
      exact bind_of_refused (hb.trans (bind_of_refused ht _)) _
    · rw [if_neg hl] at ht
      rw [if_neg fun hn => hl hn.1, found_eq, if_neg hl, List.map_append]
      exact bind_of_read (hb.trans (bind_of_read ht _)) _

def definition (t : BareTable) : Sql.TableDefinition :=
  ⟨[⟨t.name, none⟩], t.found.map fun c => .column c.definition⟩

/-- A word and a parenthesis leave no room for what else may stand before the items, and the word `IF` alone is
a name like any other. -/
theorem tableDefinition_name (t : BareTable) (nest : Nest) (ts : List Token) :
    Sql.tableDefinition .mysql nest (.bareWord t.name.toList :: .symbol "(" :: ts) =
      (do
        let items ← Sql.tableItems .mysql nest
        Sql.tableOptions .mysql nest
        return ⟨[⟨t.name, none⟩], items⟩ : Sql.Reader Sql.TableDefinition) (.symbol "(" :: ts) := by
  rw [Token.bareWord, String.ofList_toList]
  generalize String.ofList (Text.toUpper t.name.toList) = key
  have hif : (discard (Sql.keywords ["IF", "NOT", "EXISTS"]) : Sql.Reader Unit)
      (.word t.name key none :: .symbol "(" :: ts) =
        .read () (.word t.name key none :: .symbol "(" :: ts) := by
    by_cases hk : key = "IF"
    · subst hk
      rfl
    · have hkey : Sql.keyword "IF" (.word t.name key none :: .symbol "(" :: ts) =
          .read false (.word t.name key none :: .symbol "(" :: ts) := by
        simp [Sql.keyword, Sql.Reader.takes, Token.isKeyword, hk]
      have hr : Sql.expectKeywords ["IF", "NOT", "EXISTS"]
          (.word t.name key none :: .symbol "(" :: ts) = .refused :=
        bind_of_refused (bind_of_read hkey _) _
      have ha : Sql.Reader.attempt (Sql.expectKeywords ["IF", "NOT", "EXISTS"])
          (.word t.name key none :: .symbol "(" :: ts) =
            .read none (.word t.name key none :: .symbol "(" :: ts) := by
        rw [Sql.Reader.attempt, hr]
      have hkeys : Sql.keywords ["IF", "NOT", "EXISTS"] (.word t.name key none :: .symbol "(" :: ts) =
          .read false (.word t.name key none :: .symbol "(" :: ts) := bind_of_read ha _
      exact bind_of_read hkeys fun _ => pure ()
  exact bind_of_read hif _

theorem statement_tokens (t : BareTable) (nest : Nest) :
    Sql.statement .mysql nest t.tokens =
      if t.last.Hidden ∧ t.kept ≠ [] then .refused
      else .read (.createTable t.definition) [.symbol ";"] := by
  have hc : ∀ ts, Sql.statement .mysql nest
      (.word "CREATE" "CREATE" none :: .word "TABLE" "TABLE" none :: ts) =
        (do return .createTable (← Sql.tableDefinition .mysql nest) : Sql.Reader _) ts :=
    fun _ => rfl
  have hn := t.tableDefinition_name nest (t.itemTokens [.symbol ";"])
  have hi := t.tableItems_itemTokens nest [.symbol ";"]
  have ho : Sql.tableOptions .mysql nest [.symbol ";"] = .read () [.symbol ";"] := rfl
  rw [tokens, hc]
  split
  · next h =>
    rw [if_pos h] at hi
    exact bind_of_refused (hn.trans (bind_of_refused hi _)) _
  · next h =>
    rw [if_neg h] at hi
    exact bind_of_read (hn.trans ((bind_of_read hi _).trans (bind_of_read ho _))) _

theorem statements?_keptLines (t : BareTable) :
    Sql.statements? .mysql (Text.joinLines t.keptLines) =
      if t.last.Hidden ∧ t.kept ≠ [] then none else some [.createTable t.definition] := by
  have hl : 1 < t.tokens.length + 1 := by simp [tokens]
  have hs := t.statement_tokens (Nest.ofDepth .mysql (Sql.depthLimit - 1))
  rw [Sql.statements?, t.yields.tokens?, Option.bind_some]
  split
  · next h =>
    rw [if_pos h] at hs
    exact statementsUpTo_of_refused rfl hs _
  · next h =>
    rw [if_neg h] at hs
    exact statementsUpTo_of_read rfl hs hl

def table (t : BareTable) : Table := ⟨t.name, t.columns.map BareColumn.capitalized⟩

/-- What is left of the table is read, unless the comma behind it keeps the grammar from reading it. -/
theorem grammarTables_found (t : BareTable) : grammarTables .mysql t.text =
    if t.last.Hidden then [] else [⟨t.name, t.found.map BareColumn.capitalized⟩] := by
  have ht : tableOfStatement? (.createTable t.definition) =
      if t.found = [] then none else some ⟨t.name, t.found.map BareColumn.capitalized⟩ := by
    have hof : Table.ofDefinition t.definition = ⟨t.name, t.found.map BareColumn.capitalized⟩ := by
      simp [Table.ofDefinition, definition, Sql.TableDefinition.columns, List.filterMap_map,
        Function.comp_def, Sql.TableItem.column?, BareColumn.ofColumn_definition]
    rw [tableOfStatement?, hof]
    simp
  rw [grammarTables, tablesReadBy, fragments_clean_text, List.flatMap_singleton,
    statements?_keptLines]
  by_cases hl : t.last.Hidden
  · rw [if_pos hl]
    by_cases hk : t.kept = []
    · have hf : t.found = [] := by rw [found_eq, hk, if_pos hl]; rfl
      rw [if_neg fun h => h.2 hk, Option.getD_some, List.filterMap_cons, ht, if_pos hf]
      rfl
    · rw [if_pos ⟨hl, hk⟩]
      rfl
  · have hf : t.found ≠ [] := by rw [found_eq, if_neg hl]; simp
    rw [if_neg hl, if_neg fun h => hl h.1, Option.getD_some, List.filterMap_cons, ht, if_neg hf]
    rfl

/-- Cleaning leaves a table as it is, and the grammar finds it whole, just where no name begins like a
directive. -/
theorem grammarTables_text (t : BareTable) :
    (clean t.text.toList = t.text.toList ↔ ∀ c ∈ t.columns, ¬ c.Hidden) ∧
      (grammarTables .mysql t.text = [t.table] ↔ ∀ c ∈ t.columns, ¬ c.Hidden) ∧
      grammarTables .mysql t.text =
        if t.last.Hidden then [] else [⟨t.name, t.found.map BareColumn.capitalized⟩] := by
  have hg := t.grammarTables_found
  refine ⟨t.clean_text_eq_iff, ?_, hg⟩
  constructor
  · intro h c hc
    rw [hg] at h
    split at h
    · simp at h
    · have hf := congrArg (·.fields.length) (List.singleton_inj.mp h)
      simp only [table, List.length_map, found] at hf
      simpa using List.length_filter_eq_length_iff.mp hf c hc
  · intro h
    have hl : ¬ t.last.Hidden := h _ (by simp [columns])
    have hf : t.found = t.columns := List.filter_eq_self.mpr fun c hc => by simpa using h c hc
    rw [hg, if_neg hl, hf, table]

def revisions : BareTable where
  name := "revisions"
  init := [
    ⟨⟨"a", .bare "INT" (by decide), "INT", true, by decide +kernel, by decide +kernel⟩, 2,
      by decide +kernel, by simp, by decide +kernel⟩,
    ⟨⟨"COMMIT_ID", .bare "INT" (by decide), "INT", true, by decide +kernel, by decide +kernel⟩, 2,
      by decide +kernel, by simp, by decide +kernel⟩]
  last :=
    ⟨⟨"b", .bare "TEXT" (by decide), "TEXT", true, by decide +kernel, by decide +kernel⟩, 2,
      by decide +kernel, by simp, by decide +kernel⟩
  plain := by decide +kernel
  start := by simp

/-- A column in the middle of a table is lost without a trace. -/
theorem grammarTables_text_lost :
    revisions.text = "CREATE TABLE revisions (\n  a INT,\n  COMMIT_ID INT,\n  b TEXT\n);" ∧
      clean revisions.text.toList ≠ revisions.text.toList ∧
      grammarTables .mysql revisions.text =
        [⟨"revisions", [⟨"a", "INT", true⟩, ⟨"b", "TEXT", true⟩]⟩] ∧
      grammarTables .mysql revisions.text ≠ [revisions.table] := by
  have hg : grammarTables .mysql revisions.text =
      [⟨"revisions", [⟨"a", "INT", true⟩, ⟨"b", "TEXT", true⟩]⟩] := by
    rw [grammarTables_found]
    decide +kernel
  refine ⟨by decide +kernel, by decide +kernel, hg, ?_⟩
  rw [hg]
  decide +kernel

end BareTable

end TableLoader.Dump
