import TableLoader.Proofs.Dump.Cuts

/-! # Bodies cut at once

The clauses of a body are found line by line, with the depth counted anew on each. Where the parentheses of every
line are balanced, one cut of the whole body at its commas and line feeds finds the same clauses. So no text of a
clause is lost or put elsewhere, and none runs on from one line to the next. A parenthesis that a later line closes
would hold its lines together only in a cut of the whole. -/
namespace TableLoader.Dump

variable {cs : List Char} {ps qs : List (List Char)}

/-- Pieces without the blanks at their ends, those that hold nothing else left out. -/
def tidy (ps : List (List Char)) : List (List Char) := (ps.map Text.trim).filter (· ≠ [])

theorem tidy_append (ps qs : List (List Char)) : tidy (ps ++ qs) = tidy ps ++ tidy qs := by
  rw [tidy, List.map_append, List.filter_append]
  rfl

theorem tidy_congr (h : ps.map Text.trim = qs.map Text.trim) : tidy ps = tidy qs := by
  rw [tidy, h]
  rfl

theorem tidy_filter (ps : List (List Char)) : tidy (ps.filter (· ≠ [])) = tidy ps := by
  induction ps with
  | nil => rfl
  | cons p ps ih =>
    by_cases hp : p = []
    · subst hp
      exact ih
    · have hcons : ∀ qs, tidy (p :: qs) = tidy [p] ++ tidy qs := fun qs => tidy_append [p] qs
      rw [List.filter_cons_of_pos (by simpa using hp), hcons ps, hcons, ih]

theorem filter_flatten_tidy (ps : List (List Char)) :
    (tidy ps).flatten.filter (!Text.isBlank ·) = ps.flatten.filter (!Text.isBlank ·) := by
  have hblank : ∀ {blanks : List Char}, (∀ c ∈ blanks, Text.isBlank c = true) →
      blanks.filter (!Text.isBlank ·) = [] := by
    intro blanks h
    rw [List.filter_eq_nil_iff]
    intro c hc
    simp [h c hc]
  rw [tidy, List.flatten_filter_ne_nil]
  induction ps with
  | nil => rfl
  | cons p ps ih =>
    obtain ⟨front, back, hf, hb, hp⟩ := Text.exists_append_trim p
    rw [List.map_cons, List.flatten_cons, List.flatten_cons, List.filter_append, List.filter_append, ih]
    conv_rhs => rw [← hp, List.filter_append, List.filter_append, hblank hf, hblank hb]
    rw [List.nil_append, List.append_nil]

theorem comma_notMem_of_blanks (h : ∀ c ∈ cs, Text.isBlank c = true) : ∀ c ∈ cs, c ∉ [','] := by
  intro c hc hm
  obtain rfl := List.mem_singleton.mp hm
  exact absurd (h ',' hc) (by decide)

/-- Blanks at the ends of a text go to its first and its last piece and are trimmed off there. -/
theorem map_trim_pieces_trim (cs : List Char) :
    (pieces [','] 0 (Text.trim cs)).map Text.trim = (pieces [','] 0 cs).map Text.trim := by
  obtain ⟨front, back, hf, hb, hcs⟩ := Text.exists_append_trim cs
  obtain ⟨init, last, htrim, happ⟩ := exists_pieces_append [','] 0 (Text.trim cs)
  have hback : pieces [','] 0 (Text.trim cs ++ back) = init ++ [last ++ back] := by
    rw [happ, pieces_of_notMem (comma_notMem_of_blanks hb)]
    rfl
  have hfront : (pieces [','] 0 cs).map Text.trim =
      (pieces [','] 0 (Text.trim cs ++ back)).map Text.trim := by
    conv_lhs => rw [← hcs]
    rw [pieces_append_of_notMem (comma_notMem_of_blanks hf), nesting_of_blanks hf, zero_add]
    cases pieces [','] 0 (Text.trim cs ++ back) with
    | nil => rfl
    | cons first rest => rw [List.modifyHead_cons, List.map_cons, Text.trim_append_of_blank hf]; rfl
  rw [hfront, hback, htrim, List.map_append, List.map_append, List.map_singleton, List.map_singleton,
    Text.trim_append_blanks hb]

/-- The clauses of a line are its pieces, cut with the blanks at its ends still there. -/
theorem lineClauses_eq_tidy (line : List Char) : lineClauses line = tidy (pieces [','] 0 line) := by
  have htidy : lineClauses line = tidy (splitTopLevel (Text.trim line)) := rfl
  rw [htidy, splitTopLevel_eq_filter, tidy_filter]
  exact tidy_congr (map_trim_pieces_trim line)

/-- One line after another, a cut of all lines at once finds the clauses of each. -/
theorem tidy_pieces_joinLines {ls : List (List Char)} (hn : ∀ line ∈ ls, '\n' ∉ line)
    (hb : ∀ line ∈ ls, nesting line = 0) :
    tidy (pieces [',', '\n'] 0 (Text.joinLines ls)) = ls.flatMap lineClauses := by
  have hone : ∀ {line : List Char}, '\n' ∉ line →
      tidy (pieces [',', '\n'] 0 line) = lineClauses line := by
    intro line hl
    have hc : ∀ c ∈ line, c ∈ [',', '\n'] ↔ c ∈ [','] := by
      intro c hm
      have hne : c ≠ '\n' := fun h => hl (h ▸ hm)
      simp [hne]
    rw [pieces_congr hc, lineClauses_eq_tidy]
  induction ls with
  | nil => rfl
  | cons line ls ih =>
    obtain ⟨hline, hls⟩ := List.forall_mem_cons.mp hn
    obtain ⟨hbal, hbals⟩ := List.forall_mem_cons.mp hb
    by_cases he : ls = []
    · subst he
      rw [List.flatMap_singleton, ← hone hline]
      simp [Text.joinLines]
    · have hzero : (0 : Int) + nesting line = 0 := by rw [hbal, add_zero]
      rw [Text.joinLines_cons he, pieces_append_stop (by simp) rfl hzero, tidy_append, hone hline,
        ih hls hbals, List.flatMap_cons]

/-- A body whose lines are balanced is cut at once into the clauses that are found line by line. Each of them stands
on one line, and together they are the body without its cuts, blanks apart. -/
theorem clauses_wholeBody {body : List Char}
    (h : ∀ line ∈ Text.lines body, line.count '(' = line.count ')') :
    clauses body = ((pieces [',', '\n'] 0 body).map Text.trim).filter (· ≠ []) ∧
      (∀ clause ∈ clauses body, ∃ line ∈ Text.lines body, clause <:+: line) ∧
      (clauses body).flatten.filter (!Text.isBlank ·) =
        (uncut [',', '\n'] 0 body).filter (!Text.isBlank ·) := by
  have hwhole : clauses body = tidy (pieces [',', '\n'] 0 body) := by
    obtain ⟨ls, hn, rfl⟩ := Text.exists_joinLines body
    have hzero : ∀ line ∈ ls, nesting line = 0 := by
      rw [Text.lines_joinLines hn] at h
      apply Text.forall_mem_of_finishLines (p := fun line => nesting line = 0) nesting_nil
      · intro line hl
        rwa [nesting_dropReturn] at hl
      · intro line hl
        rw [nesting, h line hl, sub_self]
    rw [clauses_joinLines hn, tidy_pieces_joinLines hn hzero]
  refine ⟨hwhole, ?_, ?_⟩
  · intro clause hc
    rw [clauses_eq_flatMap, List.mem_flatMap] at hc
    obtain ⟨line, hl, hc⟩ := hc
    rw [lineClauses_eq_tidy] at hc
    obtain ⟨piece, hp, rfl⟩ := List.mem_map.mp (List.mem_of_mem_filter hc)
    exact ⟨line, hl, (Text.trim_infix piece).trans (infix_of_mem_pieces hp)⟩
  · rw [hwhole, filter_flatten_tidy, flatten_pieces]

/-- Lines that close before they open, empty pieces and carriage returns. -/
theorem clauses_wholeBody_ragged :
    (∀ line ∈ Text.lines "  a INT,\r\n)x,y( ,, b DECIMAL(10,2)\r\n,\n\n c TEXT,d\tINT\r".toList,
      line.count '(' = line.count ')') ∧
    clauses "  a INT,\r\n)x,y( ,, b DECIMAL(10,2)\r\n,\n\n c TEXT,d\tINT\r".toList =
      ["a INT".toList, ")x,y(".toList, "b DECIMAL(10,2)".toList, "c TEXT".toList, "d\tINT".toList] ∧
    ((pieces [',', '\n'] 0 "  a INT,\r\n)x,y( ,, b DECIMAL(10,2)\r\n,\n\n c TEXT,d\tINT\r".toList).map
        Text.trim).filter (· ≠ []) =
      ["a INT".toList, ")x,y(".toList, "b DECIMAL(10,2)".toList, "c TEXT".toList, "d\tINT".toList] := by
  have hlines : ∀ line ∈ Text.lines "  a INT,\r\n)x,y( ,, b DECIMAL(10,2)\r\n,\n\n c TEXT,d\tINT\r".toList,
      line.count '(' = line.count ')' := by decide +kernel
  have hclauses : clauses "  a INT,\r\n)x,y( ,, b DECIMAL(10,2)\r\n,\n\n c TEXT,d\tINT\r".toList =
      ["a INT".toList, ")x,y(".toList, "b DECIMAL(10,2)".toList, "c TEXT".toList, "d\tINT".toList] := by
    decide +kernel
  exact ⟨hlines, hclauses, (clauses_wholeBody hlines).1.symm.trans hclauses⟩

end TableLoader.Dump
