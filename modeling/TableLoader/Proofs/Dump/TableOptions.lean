import TableLoader.Proofs.Dump.CutShort
import TableLoader.Proofs.Dump.ReportedName

/-! # Options behind the columns

A statement ends with the line that closes its parenthesis, whatever options stand on it. But its body ends only
at the last parenthesis of that line, so options with parentheses are read as more clauses. -/
namespace TableLoader.Dump

open Text (block)

/-- No parenthesis is closed that was not opened before, and none stays open. -/
structure WellNested (cs : List Char) : Prop where
  nonneg : ∀ p, p <+: cs → 0 ≤ nesting p
  settled : nesting cs = 0

instance (cs : List Char) : Decidable (WellNested cs) :=
  decidable_of_iff ((∀ p ∈ cs.inits, 0 ≤ nesting p) ∧ nesting cs = 0)
    ⟨fun h => ⟨fun p hp => h.1 p ((List.mem_inits _ _).mpr hp), h.2⟩,
      fun h => ⟨fun p hp => h.nonneg p ((List.mem_inits _ _).mp hp), h.settled⟩⟩

/-- What stands in front of the parenthesis that closes one opened earlier, from a given depth on. -/
def beforeMatch? : Int → List Char → Option (List Char)
  | _, [] => none
  | depth, c :: cs =>
    if depth + nesting [c] < 0 then some []
    else (beforeMatch? (depth + nesting [c]) cs).map (c :: ·)

/-- What stands between the first opening parenthesis and the one that closes it. -/
def matched? (statement : List Char) : Option (List Char) :=
  match statement.dropWhile (· != '(') with
  | [] => none
  | _ :: rest => beforeMatch? 0 rest

theorem beforeMatch?_append {depth : Int} {cs : List Char} (h : ∀ p, p <+: cs → 0 ≤ depth + nesting p)
    (rest : List Char) :
    beforeMatch? depth (cs ++ rest) = (beforeMatch? (depth + nesting cs) rest).map (cs ++ ·) := by
  induction cs generalizing depth with
  | nil => cases hs : beforeMatch? depth rest <;> simp [hs]
  | cons c cs ih =>
    have hc : ¬ depth + nesting [c] < 0 := Int.not_lt.mpr (h [c] (by simp))
    have hcs : ∀ p, p <+: cs → 0 ≤ depth + nesting [c] + nesting p := by
      intro p hp
      rw [add_assoc, ← nesting_cons]
      exact h (c :: p) (List.cons_prefix_cons.mpr ⟨rfl, hp⟩)
    rw [List.cons_append, beforeMatch?, if_neg hc, ih hcs, nesting_cons c cs, add_assoc, Option.map_map]
    rfl

theorem WellNested.beforeMatch?_close {cs : List Char} (h : WellNested cs) (rest : List Char) :
    beforeMatch? 0 (cs ++ ')' :: rest) = some cs := by
  have hclose : (0 : Int) + nesting [')'] < 0 := by decide
  rw [beforeMatch?_append (by simpa using h.nonneg), h.settled, zero_add, beforeMatch?, if_pos hclose]
  simp

theorem matched?_append_cons {front : List Char} (hf : '(' ∉ front) (rest : List Char) :
    matched? (front ++ '(' :: rest) = beforeMatch? 0 rest := by
  rw [matched?, dropWhile_append_cons hf]

theorem nesting_block (ls : List Line) : nesting (block ls) = nesting ls.flatten := by
  induction ls with
  | nil => rfl
  | cons line ls ih =>
    have hbreak : nesting ['\n'] = 0 := rfl
    rw [block, List.flatMap_cons, ← block, nesting_append, nesting_append, hbreak, ih, add_zero,
      List.flatten_cons, nesting_append]

theorem nesting_flatten_map_dropReturn (ls : List Line) :
    nesting (ls.map Text.dropReturn).flatten = nesting ls.flatten := by
  induction ls with
  | nil => rfl
  | cons line ls ih =>
    rw [List.map_cons, List.flatten_cons, List.flatten_cons, nesting_append, nesting_append,
      nesting_dropReturn, ih]

structure Framed where
  heading : Heading
  columns : List Line
  lines : ∀ line ∈ columns, '\n' ∉ line ∧ isHeader line = false
  nested : WellNested (block columns)

namespace Framed

variable (t : Framed)

def header : Line := t.heading.front ++ ['(']

def closing (options : List Char) : Line := ')' :: (options ++ [';'])

def text (options : List Char) : List Char := t.header ++ '\n' :: (block t.columns ++ closing options)

theorem newline_notMem_header : '\n' ∉ t.header := by
  have hfront : '\n' ∉ t.heading.front := t.heading.notMem_front (by simp)
  simp [header, hfront]

theorem lines_text {options : List Char} (hl : '\n' ∉ options) : Text.lines (t.text options) =
    t.header :: (t.columns.map Text.dropReturn ++ [closing options]) := by
  have hjoin : t.text options = Text.joinLines ((t.header :: t.columns) ++ [closing options]) := by
    rw [List.cons_append, Text.joinLines_cons (by simp), Text.joinLines_append_singleton, text]
  have hlast : t.header.getLast? ≠ some '\r' := by simp [header]
  have hwhole : ∀ line ∈ (t.header :: t.columns) ++ [closing options], '\n' ∉ line := by
    intro line hline
    rcases List.mem_append.mp hline with hline | hline
    · rcases List.mem_cons.mp hline with rfl | hline
      · exact t.newline_notMem_header
      · exact (t.lines line hline).1
    · rw [List.mem_singleton.mp hline]
      simp [closing, hl]
  rw [hjoin, Text.lines_joinLines hwhole, Text.finishLines_append_of_ne_nil _ (by simp), List.map_cons,
    Text.dropReturn_eq_self hlast]
  rfl

/-- The parentheses of the columns keep the statement open up to its closing line. -/
theorem nesting_nonneg {front : List Line} (h : front <+: t.columns.map Text.dropReturn) :
    0 ≤ nesting front.flatten := by
  obtain ⟨n, rfl⟩ : ∃ n, front = (t.columns.take n).map Text.dropReturn :=
    ⟨front.length, by rw [List.map_take]; exact List.prefix_iff_eq_take.mp h⟩
  have hblock : block (t.columns.take n) <+: block t.columns :=
    ⟨block (t.columns.drop n), by rw [block, block, ← List.flatMap_append, List.take_append_drop, block]⟩
  rw [nesting_flatten_map_dropReturn, ← nesting_block]
  exact t.nested.nonneg _ hblock

theorem fragments_text {options : List Char} (hl : '\n' ∉ options)
    (hc : isHeader (closing options) = false) :
    fragments .parenthesis (t.text options) =
      [t.header ++ '\n' :: (block (t.columns.map Text.dropReturn) ++ closing options)] := by
  have hheader : isHeader t.header = true := t.heading.isHeader_front []
  have hnesting : nesting t.header = 1 :=
    nesting_append_open (t.heading.notMem_front (by simp)) (t.heading.notMem_front (by simp))
  have hone : ¬ (1 : Int) = 0 := by decide
  have hcolumns : ∀ line ∈ t.columns.map Text.dropReturn, isHeader line = false := by
    intro line hline
    obtain ⟨column, hcolumn, rfl⟩ := List.mem_map.mp hline
    rw [isHeader_dropReturn]
    exact (t.lines column hcolumn).2
  have hopen : ∀ front, front <+: t.columns.map Text.dropReturn → 1 + nesting front.flatten ≠ 0 := by
    intro front hfront
    have hnonneg := t.nesting_nonneg hfront
    omega
  have hscan : scan .parenthesis [] 0 (Text.lines (t.text options)) =
      [t.header :: (t.columns.map Text.dropReturn ++ [closing options])] := by
    rw [t.lines_text hl, scan, if_pos hheader, hnesting, if_neg (fun hz => hone hz.1),
      scan_open hcolumns (by simp) hopen, scan, if_neg (by simp [hc]), if_neg (by simp)]
    simp [scan, flush]
  rw [fragments, hscan, List.map_singleton, Text.joinLines_cons (by simp), Text.joinLines_append_singleton]

theorem closing_cases (options : List Char) :
    (')' ∉ options ∧ beforeLast? ')' (closing options) = some []) ∨
      ∃ p q, options = p ++ ')' :: q ∧ beforeLast? ')' (closing options) = some (')' :: p) := by
  by_cases h : ')' ∈ options
  · obtain ⟨q, p, hsplit, hq⟩ := List.eq_append_cons_of_mem (List.mem_reverse.mpr h)
    have hoptions : options = p.reverse ++ ')' :: q.reverse := by
      rw [← options.reverse_reverse, hsplit]
      simp
    have hback : ')' ∉ q.reverse ++ [';'] := by simpa using hq
    refine Or.inr ⟨p.reverse, q.reverse, hoptions, ?_⟩
    rw [closing, hoptions, List.append_assoc, List.cons_append, ← List.cons_append]
    exact beforeLast?_append _ hback
  · have hback : ')' ∉ options ++ [';'] := by simpa using h
    exact Or.inl ⟨h, beforeLast?_append [] hback⟩

/-- What the body takes in of the closing line. -/
def reach (options : List Char) : List Char := (beforeLast? ')' (closing options)).getD []

theorem beforeLast?_closing (options : List Char) :
    beforeLast? ')' (closing options) = some (reach options) := by
  rcases closing_cases options with ⟨-, h⟩ | ⟨p, q, -, h⟩ <;> rw [reach, h, Option.getD_some]

theorem reach_eq_nil_iff (options : List Char) : reach options = [] ↔ ')' ∉ options := by
  rcases closing_cases options with ⟨hnot, h⟩ | ⟨p, q, rfl, h⟩
  · simp [reach, h, hnot]
  · simp [reach, h]

theorem body?_framed (columns : List Line) (options : List Char) :
    body? (t.header ++ '\n' :: (block columns ++ closing options)) =
      some ('\n' :: (block columns ++ reach options)) := by
  have hopen : '(' ∉ t.heading.front := t.heading.notMem_front (by simp)
  have hbody := beforeLast?_append_left (beforeLast?_closing options) ('\n' :: block columns)
  rw [header, List.append_assoc, List.singleton_append, body?_append_cons hopen, ← List.cons_append, hbody,
    List.cons_append]

theorem matched?_text (options : List Char) :
    matched? (t.text options) = some ('\n' :: block t.columns) := by
  have hopen : '(' ∉ t.heading.front := t.heading.notMem_front (by simp)
  have hbreak : ∀ p, p <+: ['\n'] → 0 ≤ (0 : Int) + nesting p := by
    intro p hp
    rcases List.prefix_cons_iff.mp hp with rfl | ⟨q, rfl, hq⟩
    · decide
    · rw [List.prefix_nil.mp hq]
      decide
  have hfirst := beforeMatch?_append hbreak (block t.columns ++ closing options)
  rw [show (0 : Int) + nesting ['\n'] = 0 by decide, closing, t.nested.beforeMatch?_close] at hfirst
  rw [text, header, List.append_assoc, List.singleton_append, matched?_append_cons hopen]
  exact hfirst

theorem body?_text_eq_matched?_iff (options : List Char) :
    body? (t.text options) = matched? (t.text options) ↔ ')' ∉ options := by
  rw [text, t.body?_framed, ← text, t.matched?_text, ← reach_eq_nil_iff, Option.some_inj, List.cons.injEq]
  simp

end Framed

theorem fieldsOf_append_newline (a b : List Char) :
    fieldsOf (a ++ '\n' :: b) = fieldsOf a ++ fieldsOf b := by
  rw [fieldsOf, clauses_append_newline, List.filterMap_append]
  rfl

theorem fieldsOf_block_append (ls : List Line) (more : List Char) :
    fieldsOf (block ls ++ more) = ls.flatMap fieldsOf ++ fieldsOf more := by
  induction ls with
  | nil => rfl
  | cons line ls ih =>
    have hcons : block (line :: ls) ++ more = line ++ '\n' :: (block ls ++ more) := by
      simp [block]
    rw [hcons, fieldsOf_append_newline, ih, List.flatMap_cons, List.append_assoc]

theorem fieldsOf_dropReturn {line : Line} (h : '\n' ∉ line) :
    fieldsOf (Text.dropReturn line) = fieldsOf line := by
  have hd : '\n' ∉ Text.dropReturn line := fun hm => h (Text.dropReturn_subset line hm)
  rw [fieldsOf, fieldsOf, clauses_of_notMem hd, clauses_of_notMem h, lineClauses_dropReturn]

namespace Framed

variable (t : Framed)

def fields : List Field := t.columns.flatMap fieldsOf

def phantoms (options : List Char) : List Field := fieldsOf (reach options)

def tables (name : List Char) (fields : List Field) : List Table :=
  if fields = [] then [] else [⟨String.ofList name, fields⟩]

theorem tables_inj {name : List Char} {a b : List Field} : tables name a = tables name b ↔ a = b := by
  constructor
  · intro h
    unfold tables at h
    split_ifs at h with ha hb hb
    · rw [ha, hb]
    · exact congrArg Table.fields (List.cons.inj h).1
  · rintro rfl
    rfl

theorem mysqlTables_text_eq {name : List Char} (hf : t.heading.found? = some name) {options : List Char}
    (hl : '\n' ∉ options) (hc : isHeader (closing options) = false) :
    mysqlTables (String.ofList (t.text options)) = tables name (t.fields ++ phantoms options) := by
  have hname : findName? backtickName?
      (t.header ++ '\n' :: (block (t.columns.map Text.dropReturn) ++ closing options)) = some name := by
    rw [header, List.append_assoc, List.singleton_append]
    exact t.heading.findName?_front hf
  have hfields : fieldsOf ('\n' :: (block (t.columns.map Text.dropReturn) ++ reach options)) =
      t.fields ++ phantoms options := by
    have hcolumns : (t.columns.map Text.dropReturn).flatMap fieldsOf = t.fields := by
      rw [List.flatMap_map, fields]
      exact List.flatMap_congr fun line hline => fieldsOf_dropReturn (t.lines line hline).1
    rw [← List.nil_append ('\n' :: _), fieldsOf_append_newline, fieldsOf_block_append, hcolumns]
    rfl
  rw [mysqlTables, tablesBy, String.toList_ofList, t.fragments_text hl hc, List.filterMap_cons,
    List.filterMap_nil, tableOf?, hname, t.body?_framed]
  simp only [Option.bind_eq_bind, Option.bind_some, hfields, tables]
  by_cases he : t.fields ++ phantoms options = []
  · rw [if_pos he, if_pos he]
  · rw [if_neg he, if_neg he]
    rfl

end Framed

/-- A closing parenthesis, a blank, and an opening parenthesis further on. -/
def Detached (b : Char) (cs : List Char) : Prop := ∃ u v, cs = ')' :: b :: (u ++ '(' :: v)

namespace Detached

variable {b : Char} {cs : List Char}

theorem trim (h : Detached b cs) : Detached b (Text.trim cs) := by
  obtain ⟨u, v, rfl⟩ := h
  have hsplit : ')' :: b :: (u ++ '(' :: v) = ((')' :: b :: u) ++ ['(']) ++ v := by simp
  have htrim : Text.trim (')' :: b :: (u ++ '(' :: v)) = Text.trimEnd (')' :: b :: (u ++ '(' :: v)) := rfl
  rw [htrim, hsplit, Text.trimEnd_append List.getLast?_concat (by decide)]
  exact ⟨u, Text.trimEnd v, by simp⟩

theorem dropComma (h : Detached b cs) : Detached b (Dump.dropComma cs) := by
  obtain ⟨u, v, rfl⟩ := h
  rw [Dump.dropComma]
  split
  · next hlast =>
    rcases List.eq_nil_or_concat' v with rfl | ⟨init, c, rfl⟩
    · have hsplit : ')' :: b :: (u ++ ['(']) = (')' :: b :: u) ++ ['('] := rfl
      rw [hsplit, List.getLast?_concat] at hlast
      exact absurd (Option.some.inj hlast) (by decide)
    · have hsplit : ')' :: b :: (u ++ '(' :: (init ++ [c])) =
          (')' :: b :: (u ++ '(' :: init)) ++ [c] := by simp
      rw [hsplit, List.dropLast_concat]
      exact ⟨u, init, rfl⟩
  · exact ⟨u, v, rfl⟩

theorem bare (hb : Text.isBlank b = true) (h : Detached b cs) : Detached b (Dump.bare cs) := by
  obtain ⟨u, v, hcs⟩ := h.trim.dropComma
  have hbt : (b != '\x60') = true := by
    rw [bne_iff_ne]
    rintro rfl
    exact absurd hb (by decide)
  refine ⟨u.filter (· != '\x60'), v.filter (· != '\x60'), ?_⟩
  rw [Dump.bare, hcs]
  simp [hbt]

theorem exists_fieldOf? (hb : Text.isBlank b = true) (h : Detached b cs) : ∃ f, fieldOf? cs = some f := by
  have hconstraint : isConstraint cs = false := by
    obtain ⟨u, v, htrim⟩ := h.trim
    rw [isConstraint, htrim]
    rfl
  obtain ⟨u, v, hbare⟩ := h.bare hb
  have hparen : ∀ c ∈ [')'], Text.isBlank c = false := List.forall_mem_singleton.mpr rfl
  have hwords := Text.words_append_blank (List.cons_ne_nil ')' []) hparen hb (u ++ '(' :: v)
  have hmore : Text.words (u ++ '(' :: v) ≠ [] :=
    Text.words_ne_nil (List.mem_append_right u List.mem_cons_self) (by decide)
  obtain ⟨second, more, hsecond⟩ := List.exists_cons_of_ne_nil hmore
  rw [List.singleton_append, hsecond] at hwords
  rw [fieldOf?, hconstraint, if_neg Bool.false_ne_true, hbare, hwords]
  exact ⟨_, rfl⟩

end Detached

theorem segments_ne_nil (depth : Int) (cs : List Char) : segments depth cs ≠ [] := by
  rw [segments_eq_pieces]
  exact pieces_ne_nil [','] depth cs

/-- Below depth zero no comma separates before the next parenthesis is opened. -/
theorem exists_segments_of_neg {depth : Int} (hd : depth < 0) {cs : List Char} (h : '(' ∈ cs) :
    ∃ u v more, segments depth cs = (u ++ '(' :: v) :: more := by
  induction cs generalizing depth with
  | nil => simp at h
  | cons c cs ih =>
    have hn : ¬ (c = ',' ∧ depth = 0) := fun hc => hd.ne hc.2
    rw [segments, if_neg hn]
    by_cases hc : c = '('
    · obtain ⟨first, more, hs⟩ := List.exists_cons_of_ne_nil (segments_ne_nil (depth + nesting [c]) cs)
      exact ⟨[], first, more, by rw [hs, hc]; rfl⟩
    · have hcs : '(' ∈ cs := by
        rcases List.mem_cons.mp h with rfl | hcs
        · exact absurd rfl hc
        · exact hcs
      -- Only an opening parenthesis leads back up to depth zero, where a comma would separate.
      have hdeep : depth + nesting [c] < 0 := by
        have hzero : [c].count '(' = 0 := List.count_eq_zero.mpr (by simpa using Ne.symm hc)
        rw [nesting, hzero]
        omega
      obtain ⟨u, v, more, hs⟩ := ih hdeep hcs
      exact ⟨c :: u, v, more, by rw [hs]; rfl⟩

/-- The first clause of a line that begins so begins so as well. -/
theorem Detached.fieldsOf_ne_nil {b : Char} (hb : Text.isBlank b = true) {line : Line} (h : Detached b line)
    (hl : '\n' ∉ line) : fieldsOf line ≠ [] := by
  obtain ⟨u, v, htrim⟩ := h.trim
  -- The parenthesis in front takes the depth below zero, so the first segment goes on to the next one.
  have hbc : ¬ (b = ',' ∧ (0 : Int) + nesting [')'] = 0) := fun hz => absurd hz.2 (by decide)
  have hnb : nesting [b] = 0 := nesting_of_blanks (List.forall_mem_singleton.mpr hb)
  have hneg : (0 : Int) + nesting [')'] + nesting [b] < 0 := by
    rw [hnb]
    decide
  have hopen : '(' ∈ u ++ '(' :: v := by simp
  obtain ⟨u', v', more, hs⟩ := exists_segments_of_neg hneg hopen
  have hsegments : segments 0 (Text.trim line) = (')' :: b :: (u' ++ '(' :: v')) :: more := by
    rw [htrim, segments, if_neg (by decide), segments, if_neg hbc, hs]
    rfl
  have hfirst : Detached b (Text.trim (')' :: b :: (u' ++ '(' :: v'))) := Detached.trim ⟨u', v', rfl⟩
  obtain ⟨f, hf⟩ := hfirst.exists_fieldOf? hb
  have hclause : Text.trim (')' :: b :: (u' ++ '(' :: v')) ∈ lineClauses line := by
    obtain ⟨_, _, hne⟩ := hfirst
    rw [lineClauses, splitTopLevel, hsegments]
    simp [hne]
  have hmem : f ∈ fieldsOf line := by
    rw [fieldsOf, clauses_of_notMem hl]
    exact List.mem_filterMap.mpr ⟨_, hclause, hf⟩
  exact List.ne_nil_of_mem hmem

namespace Framed

variable (t : Framed)

/-- Options apart from the parenthesis declare no field just where they hold no parenthesis. -/
theorem phantoms_eq_nil_iff {options : List Char} (hl : '\n' ∉ options) (hn : WellNested options)
    (hb : ∀ b ∈ options.head?, Text.isBlank b = true) : phantoms options = [] ↔ ')' ∉ options := by
  rw [← reach_eq_nil_iff]
  rcases closing_cases options with ⟨-, h⟩ | ⟨p, q, rfl, h⟩
  · have hreach : reach options = [] := by rw [reach, h, Option.getD_some]
    rw [phantoms, hreach]
    exact iff_of_true rfl rfl
  · have hreach : reach (p ++ ')' :: q) = ')' :: p := by rw [reach, h, Option.getD_some]
    have hopen : '(' ∈ p := by
      by_contra hp
      have hprefix : p ++ [')'] <+: p ++ ')' :: q := ⟨q, by simp⟩
      have hnonneg := hn.nonneg _ hprefix
      rw [nesting, List.count_append, List.count_append, List.count_eq_zero.mpr hp] at hnonneg
      simp at hnonneg
      omega
    obtain ⟨b, p, rfl⟩ := List.exists_cons_of_ne_nil (List.ne_nil_of_mem hopen)
    have hblank : Text.isBlank b = true := hb b rfl
    have hrest : '(' ∈ p := by
      rcases List.mem_cons.mp hopen with rfl | hp
      · exact absurd hblank (by decide)
      · exact hp
    obtain ⟨u, v, rfl⟩ := List.append_of_mem hrest
    have hdetached : Detached b (')' :: b :: (u ++ '(' :: v)) := ⟨u, v, rfl⟩
    have hline : '\n' ∉ ')' :: b :: (u ++ '(' :: v) := by
      intro hm
      rcases List.mem_cons.mp hm with hm | hm
      · exact absurd hm (by decide)
      · exact hl (List.mem_append_left _ hm)
    rw [phantoms, hreach]
    exact iff_of_false (hdetached.fieldsOf_ne_nil hblank hline) (List.cons_ne_nil _ _)

/-- The body ends at the parenthesis that matches the first one where the options close none, and the table is
the same as without options where they declare no field. -/
theorem mysqlTables_text {name : List Char} (hf : t.heading.found? = some name) {options : List Char}
    (hl : '\n' ∉ options) (hc : isHeader (closing options) = false) :
    (body? (t.text options) = matched? (t.text options) ↔ ')' ∉ options) ∧
      mysqlTables (String.ofList (t.text options)) = tables name (t.fields ++ phantoms options) ∧
      (mysqlTables (String.ofList (t.text options)) = mysqlTables (String.ofList (t.text [])) ↔
        phantoms options = []) ∧
      (WellNested options → (∀ b ∈ options.head?, Text.isBlank b = true) →
        (mysqlTables (String.ofList (t.text options)) = mysqlTables (String.ofList (t.text [])) ↔
          ')' ∉ options)) := by
  have hbare : isHeader (closing []) = false := by decide +kernel
  have hnone : phantoms [] = [] := by decide +kernel
  have hwith := t.mysqlTables_text_eq hf hl hc
  have hwithout := t.mysqlTables_text_eq hf List.not_mem_nil hbare
  have hsame : mysqlTables (String.ofList (t.text options)) = mysqlTables (String.ofList (t.text [])) ↔
      phantoms options = [] := by
    rw [hwith, hwithout, tables_inj, hnone, List.append_nil]
    exact List.append_right_eq_self
  refine ⟨t.body?_text_eq_matched?_iff options, hwith, hsame, ?_⟩
  intro hn hb
  rw [hsame, phantoms_eq_nil_iff hl hn hb]

def prices : Framed where
  heading := ⟨true, none, .quoted "prices".toList (by decide) (by simp)⟩
  columns := ["  \x60id\x60 int(11) NOT NULL,\r".toList, "  \x60price\x60 decimal(10,2)".toList]
  lines := by decide +kernel
  nested := by decide +kernel

def engine : List Char := " ENGINE=InnoDB DEFAULT CHARSET=utf8mb4".toList

theorem mysqlTables_text_prices :
    prices.heading.found? = some "prices".toList ∧ '\n' ∉ engine ∧
      isHeader (closing engine) = false ∧ WellNested engine ∧
      body? (prices.text engine) = matched? (prices.text engine) ∧
      mysqlTables (String.ofList (prices.text engine)) = mysqlTables (String.ofList (prices.text [])) := by
  have hf : prices.heading.found? = some "prices".toList := by decide +kernel
  have hl : '\n' ∉ engine := by decide +kernel
  have hn : WellNested engine := by decide +kernel
  have hc : isHeader (closing engine) = false := by decide +kernel
  have hparen : ')' ∉ engine := by decide +kernel
  have hblank : ∀ b ∈ engine.head?, Text.isBlank b = true := by
    rintro b ⟨rfl⟩
    decide
  obtain ⟨hbody, -, -, hsame⟩ := prices.mysqlTables_text hf hl hc
  exact ⟨hf, hl, hc, hn, hbody.mpr hparen, (hsame hn hblank).mpr hparen⟩

def plain : Framed where
  heading := ⟨false, none, .quoted "t".toList (by decide) (by simp)⟩
  columns := ["  \x60id\x60 int".toList]
  lines := by decide +kernel
  nested := by decide +kernel

/-- A partition is read as one more column, and so is a comment with a note in parentheses. -/
theorem mysqlTables_text_partition :
    String.ofList (plain.text " PARTITION BY HASH (id)".toList) =
        "CREATE TABLE \x60t\x60 (\n  \x60id\x60 int\n) PARTITION BY HASH (id);" ∧
      mysqlTables (String.ofList (plain.text " PARTITION BY HASH (id)".toList)) =
        [⟨"t", [⟨"id", "int", true⟩, ⟨")", "PARTITION", true⟩]⟩] ∧
      mysqlTables (String.ofList (plain.text " COMMENT='a (b)'".toList)) =
        [⟨"t", [⟨"id", "int", true⟩, ⟨")", "COMMENT='a", true⟩]⟩] ∧
      mysqlTables (String.ofList (plain.text [])) = [⟨"t", [⟨"id", "int", true⟩]⟩] := by
  decide +kernel

end Framed

end TableLoader.Dump
