import TableLoader.Import
import TableLoader.Proofs.Dump.Concatenation

/-! # Comment lines

Lines of comments put between the lines of a dump. Cleaning drops them, so the grammar never sees them. The
patterns read the dump as it is: they pass over a comment only where no statement is open and only if it does
not look like a header. -/
namespace TableLoader.Dump

inductive DumpLine where
  | own (line : Line) (newline : '\n' ∉ line)
  | comment (line : Line) (newline : '\n' ∉ line) (marked : "-- ".toList <+: Text.trim line)

namespace DumpLine

def line : DumpLine → Line
  | own line _ => line
  | comment line .. => line

def own? : DumpLine → Option Line
  | own line _ => some line
  | comment .. => none

theorem newline_notMem (l : DumpLine) : '\n' ∉ l.line := by
  cases l with
  | own line newline => exact newline
  | comment line newline marked => exact newline

end DumpLine

theorem isDirective_dropReturn_comment {line : Line} (h : "-- ".toList <+: Text.trim line) :
    isDirective (Text.dropReturn line) = true := by
  have hp : "--".toList.isPrefixOf (Text.trim line) = true := by
    rw [List.isPrefixOf_iff_prefix]
    exact (show "--".toList <+: "-- ".toList by decide).trans h
  rw [isDirective, Text.trim_dropReturn, Bool.or_eq_true, List.any_eq_true]
  exact Or.inr ⟨"--", by simp [directiveStarts], hp⟩

/-- The nesting of the statement that is open behind a line, if one is, given that before the line. -/
def openAfter (e : Ending) (before : Option Int) (line : Line) : Option Int :=
  (if isHeader line then some (nesting line) else before.map (· + nesting line)).bind fun depth =>
    if depth = 0 ∧ e.allows line then none else some depth

/-- Whether comments stand only where no statement is open, and none of them looks like a header. -/
def Quiet (e : Ending) : Option Int → List DumpLine → Prop
  | _, [] => True
  | before, .own line _ :: ls => Quiet e (openAfter e before (Text.dropReturn line)) ls
  | before, .comment line .. :: ls => before = none ∧ isHeader line = false ∧ Quiet e before ls

def openNow (current : List Line) (depth : Int) : Option Int := if current = [] then none else some depth

theorem scan_outside_depth (e : Ending) (depth : Int) (ls : List Line) :
    scan e [] depth ls = scan e [] 0 ls := by
  cases ls with
  | nil => rfl
  | cons line ls => simp [scan]

theorem scan_congr {e : Ending} {line : Line} {current : List Line} {depth : Int} {as bs : List Line}
    (h : ∀ current' depth', openNow current' depth' = openAfter e (openNow current depth) line →
      scan e current' depth' as = scan e current' depth' bs) :
    scan e current depth (line :: as) = scan e current depth (line :: bs) := by
  simp only [scan]
  by_cases hh : isHeader line = true
  · simp only [hh, if_true]
    split
    · next hd => rw [h [] 0 (by simp [openNow, openAfter, hh, hd])]
    · next hd => rw [h [line] (nesting line) (by simp [openNow, openAfter, hh, hd])]
  · by_cases hc : current = []
    · rw [if_neg hh, if_neg hh, if_pos hc, if_pos hc]
      exact h [] 0 (by simp [openNow, openAfter, hh, hc])
    · rw [if_neg hh, if_neg hh, if_neg hc, if_neg hc]
      split
      · next hd => rw [h [] 0 (by simp [openNow, openAfter, hh, hc, hd])]
      · next hd => exact h _ _ (by simp [openNow, openAfter, hh, hc, hd])

theorem scan_comments {e : Ending} {ls : List DumpLine} {current : List Line} {depth : Int}
    (h : Quiet e (openNow current depth) ls) (rest : List Line) :
    scan e current depth (ls.map (fun l => Text.dropReturn l.line) ++ rest) =
      scan e current depth ((ls.filterMap DumpLine.own?).map Text.dropReturn ++ rest) := by
  -- Over the lines, from any state: a quiet comment leaves the scanner outside, where the depth does not count.
  induction ls generalizing current depth with
  | nil => rfl
  | cons l ls ih =>
    cases l with
    | comment line newline marked =>
      obtain ⟨hnone, hh, hq⟩ := h
      have hc : current = [] := by
        by_contra hc
        simp [openNow, hc] at hnone
      subst hc
      have hrest := ih (show Quiet e (openNow [] depth) ls from hq)
      rw [List.map_cons, List.cons_append, DumpLine.line, scan_outside_depth,
        scan_skip ((isHeader_dropReturn line).trans hh), ← scan_outside_depth e depth, hrest]
      rfl
    | own line newline => exact scan_congr fun current' depth' ho => ih (ho ▸ h)

/-- A dump with comments between its lines. The last line is the dump's own, and empty if the dump ends with a
line feed. -/
structure CommentedDump where
  lines : List DumpLine
  last : Line
  newline : '\n' ∉ last

namespace CommentedDump

def text (d : CommentedDump) : String :=
  String.ofList (Text.joinLines (d.lines.map DumpLine.line ++ [d.last]))

def bare (d : CommentedDump) : String :=
  String.ofList (Text.joinLines (d.lines.filterMap DumpLine.own? ++ [d.last]))

def Quiet (d : CommentedDump) : Prop := Dump.Quiet .parenthesis none d.lines

theorem lines_text (d : CommentedDump) : Text.lines d.text.toList =
    d.lines.map (fun l => Text.dropReturn l.line) ++ Text.finishLines [d.last] := by
  have hn : ∀ line ∈ d.lines.map DumpLine.line ++ [d.last], '\n' ∉ line := by
    rw [List.forall_mem_append, List.forall_mem_map, List.forall_mem_singleton]
    exact ⟨fun l _ => l.newline_notMem, d.newline⟩
  rw [text, String.toList_ofList, Text.lines_joinLines hn,
    Text.finishLines_append_of_ne_nil _ (List.cons_ne_nil _ _), List.map_map]
  rfl

theorem lines_bare (d : CommentedDump) : Text.lines d.bare.toList =
    (d.lines.filterMap DumpLine.own?).map Text.dropReturn ++ Text.finishLines [d.last] := by
  have hn : ∀ line ∈ d.lines.filterMap DumpLine.own? ++ [d.last], '\n' ∉ line := by
    rw [List.forall_mem_append, List.forall_mem_singleton]
    refine ⟨fun line hm => ?_, d.newline⟩
    obtain ⟨l, -, hl⟩ := List.mem_filterMap.mp hm
    cases l with
    | comment line newline marked => simp [DumpLine.own?] at hl
    | own line newline => exact Option.some.inj hl ▸ newline
  rw [bare, String.toList_ofList, Text.lines_joinLines hn,
    Text.finishLines_append_of_ne_nil _ (List.cons_ne_nil _ _)]

theorem clean_text (d : CommentedDump) : clean d.text.toList = clean d.bare.toList := by
  have hk : (d.lines.map fun l => Text.dropReturn l.line).filter (!isDirective ·) =
      ((d.lines.filterMap DumpLine.own?).map Text.dropReturn).filter (!isDirective ·) := by
    induction d.lines with
    | nil => rfl
    | cons l ls ih =>
      cases l with
      | comment line newline marked =>
        have hd := isDirective_dropReturn_comment marked
        rw [List.map_cons, List.filter_cons_of_neg (by simp [DumpLine.line, hd]), ih]
        rfl
      | own line newline =>
        have hs : DumpLine.own? (.own line newline) = some line := rfl
        rw [List.map_cons, List.filterMap_cons_some hs, List.map_cons, List.filter_cons,
          List.filter_cons, ih]
        rfl
  rw [clean, clean, lines_text, lines_bare, List.filter_append, List.filter_append, hk]

theorem fragments_text (d : CommentedDump) (h : d.Quiet) :
    fragments .parenthesis d.text.toList = fragments .parenthesis d.bare.toList := by
  have hq : Dump.Quiet .parenthesis (openNow [] 0) d.lines := h
  have hscan := scan_comments hq (Text.finishLines [d.last])
  rw [fragments, fragments, lines_text, lines_bare, hscan]

theorem tablesReadBy_text (read? : List Char → Option (List Sql.Statement)) (d : CommentedDump) :
    tablesReadBy read? d.text = tablesReadBy read? d.bare := by
  rw [tablesReadBy, tablesReadBy, clean_text]

theorem tablesBy_text (i : Importer) (d : CommentedDump) (h : d.Quiet) (s : Strategy) :
    i.tablesBy d.text s = i.tablesBy d.bare s := by
  cases s with
  | grammar => exact tablesReadBy_text i.read? d
  | postgres =>
    rw [Importer.tablesBy, postgresTables, Dump.tablesBy, fragments_text d h]
    rfl
  | mysql =>
    rw [Importer.tablesBy, mysqlTables, Dump.tablesBy, fragments_text d h]
    rfl

/-- Comments change nothing if the grammar finds a table, or if they stand between statements and none of them
looks like a header. -/
theorem find?_text (i : Importer) (d : CommentedDump)
    (h : i.tablesBy d.bare .grammar ≠ [] ∨ d.Quiet) :
    i.find? d.text = i.find? d.bare ∧ i.tables d.text = i.tables d.bare := by
  have hfind : i.find? d.text = i.find? d.bare := by
    rcases h with h | h
    · have hg : i.tablesBy d.text .grammar = i.tablesBy d.bare .grammar :=
        tablesReadBy_text i.read? d
      simp only [Importer.find?, Strategy.order, Importer.firstFound?, hg, if_neg h]
    · rw [Importer.find?, Importer.find?, funext (tablesBy_text i d h)]
  refine ⟨hfind, ?_⟩
  rw [Importer.tables, Importer.tables, hfind]

def finished : CommentedDump where
  lines := [
    .own "CREATE TABLE t (".toList (by decide), .own "  id INT".toList (by decide),
    .own ") ENGINE = ;".toList (by decide),
    .comment "-- Dump completed (t, id)".toList (by decide) (by decide +kernel)]
  last := []
  newline := by simp

theorem find?_text_finished :
    finished.Quiet ∧
      (Importer.ofDialect .mysql).find? finished.text =
        some ⟨[⟨"t", [⟨"id", "INT", true⟩]⟩], .postgres⟩ ∧
      (Importer.ofDialect .mysql).find? finished.text =
        (Importer.ofDialect .mysql).find? finished.bare ∧
      (Importer.ofDialect .mysql).tables finished.text =
        (Importer.ofDialect .mysql).tables finished.bare := by
  have hq : finished.Quiet := by
    refine ⟨rfl, by decide +kernel, trivial⟩
  exact ⟨hq, by decide +kernel, find?_text _ _ (Or.inr hq)⟩

def annotated : CommentedDump where
  lines := [
    .comment "-- CREATE TABLE old (id INT);".toList (by decide) (by decide +kernel),
    .own "CREATE TABLE t (".toList (by decide), .own "  id INT,".toList (by decide),
    .comment "  -- the name".toList (by decide) (by decide +kernel),
    .own "  name TEXT".toList (by decide)]
  last := ") ENGINE = ;".toList
  newline := by decide

/-- A comment is taken for a table, and another one for a column. -/
theorem find?_text_annotated :
    annotated.bare = "CREATE TABLE t (\n  id INT,\n  name TEXT\n) ENGINE = ;" ∧
      (Importer.ofDialect .mysql).tables annotated.bare =
        [⟨"t", [⟨"id", "INT", true⟩, ⟨"name", "TEXT", true⟩]⟩] ∧
      (Importer.ofDialect .mysql).tables annotated.text =
        [⟨"old", [⟨"id", "INT", true⟩]⟩,
          ⟨"t", [⟨"id", "INT", true⟩, ⟨"--", "the", true⟩, ⟨"name", "TEXT", true⟩]⟩] := by
  decide +kernel

end CommentedDump

end TableLoader.Dump
