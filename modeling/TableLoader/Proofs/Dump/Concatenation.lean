import TableLoader.Import
import TableLoader.Proofs.Dump.Scanner

/-! # Dumps put together

A dump that begins with a header is read the same way whatever dump of whole lines stands before it, however
malformed that is: the scanner starts anew at a header, cleaning drops each line for itself, and a fragment that
the grammar refuses costs no other. -/
namespace TableLoader.Dump

/-- A header ends whatever is in progress, so the scanner finds from there on what it finds from there alone. -/
theorem scan_append (e : Ending) (current : List Line) (depth : Int) (ls : List Line) {rest : List Line}
    (h : rest.head?.any isHeader = true) :
    scan e current depth (ls ++ rest) = scan e current depth ls ++ scan e [] 0 rest := by
  induction ls generalizing current depth with
  | nil =>
    cases rest with
    | nil => simp at h
    | cons header rest =>
      have hh : isHeader header = true := by simpa using h
      simp only [List.nil_append, scan, if_pos hh]
      rfl
  | cons line ls ih =>
    rw [List.cons_append, scan, scan]
    by_cases hh : isHeader line = true
    · rw [if_pos hh, if_pos hh, List.append_assoc]
      by_cases hc : nesting line = 0 ∧ e.allows line = true
      · rw [if_pos hc, if_pos hc, ih, List.cons_append]
      · rw [if_neg hc, if_neg hc, ih]
    · rw [if_neg hh, if_neg hh]
      by_cases hn : current = []
      · rw [if_pos hn, if_pos hn, ih]
      · rw [if_neg hn, if_neg hn]
        by_cases hc : depth + nesting line = 0 ∧ e.allows line = true
        · rw [if_pos hc, if_pos hc, ih, List.cons_append]
        · rw [if_neg hc, if_neg hc, ih]

theorem fragments_append (e : Ending) {a b : List Char} (ha : a = [] ∨ a.getLast? = some '\n')
    (hb : (Text.lines b).head?.any isHeader = true) :
    fragments e (a ++ b) = fragments e a ++ fragments e b := by
  rw [fragments, Text.lines_append ha, scan_append e [] 0 _ hb, List.map_append]
  rfl

theorem ne_nil_of_not_isDirective {line : List Char} (h : isDirective line = false) : line ≠ [] := by
  rintro rfl
  simp [isDirective, Text.trim, Text.trimStart, Text.trimEnd] at h

def kept (dump : List Char) : List Line := (Text.lines dump).filter (!isDirective ·)

theorem newline_notMem_kept (dump : List Char) : ∀ line ∈ kept dump, '\n' ∉ line :=
  fun _ hl hc => (Text.mem_of_mem_lines (List.mem_of_mem_filter hl) hc).2 rfl

theorem lines_clean (dump : List Char) :
    Text.lines (clean dump) = Text.finishLines (kept dump) :=
  Text.lines_joinLines (newline_notMem_kept dump)

theorem lines_clean_append {a b : List Char} (ha : a = [] ∨ a.getLast? = some '\n') (hr : '\r' ∉ a) :
    Text.lines (clean (a ++ b)) = Text.lines (clean a) ++ Text.lines (clean b) := by
  have hw : ∀ line ∈ kept a, line ≠ [] ∧ line.getLast? ≠ some '\r' := by
    intro line hl
    obtain ⟨hl, hd⟩ := List.mem_filter.mp hl
    refine ⟨ne_nil_of_not_isDirective (by simpa using hd), fun he => ?_⟩
    exact hr (Text.mem_of_mem_lines hl (List.mem_of_getLast? he)).1
  have hk : kept (a ++ b) = kept a ++ kept b := by
    rw [kept, Text.lines_append ha, List.filter_append]
    rfl
  rw [lines_clean, lines_clean, lines_clean, hk, Text.finishLines_append hw,
    Text.finishLines_eq_self hw]

theorem head?_lines_clean {b : List Char} (hb : (Text.lines b).head?.any isHeader = true)
    (hd : (Text.lines b).head?.any isDirective = false) :
    (Text.lines (clean b)).head?.any isHeader = true := by
  rw [lines_clean, kept]
  cases hl : Text.lines b with
  | nil => simp [hl] at hb
  | cons line ls =>
    rw [hl] at hb hd
    have hb : isHeader line = true := by simpa using hb
    have hd : isDirective line = false := by simpa using hd
    rw [List.filter_cons_of_pos (by simp [hd])]
    by_cases hr : ls.filter (!isDirective ·) = []
    · rw [hr, Text.finishLines, if_neg (ne_nil_of_not_isDirective hd)]
      simpa using hb
    · rw [Text.finishLines_cons hr]
      simpa [isHeader_dropReturn] using hb

theorem tablesBy_append (name? : List Char → Option (List Char)) {s₁ s₂ : String}
    (h₁ : s₁ = "" ∨ s₁.toList.getLast? = some '\n')
    (h₂ : (Text.lines s₂.toList).head?.any isHeader = true) :
    tablesBy name? (s₁ ++ s₂) = tablesBy name? s₁ ++ tablesBy name? s₂ := by
  have ha : s₁.toList = [] ∨ s₁.toList.getLast? = some '\n' := by simpa using h₁
  rw [tablesBy, String.toList_append, fragments_append _ ha h₂, List.filterMap_append]
  rfl

theorem tablesReadBy_append (read? : List Char → Option (List Sql.Statement)) {s₁ s₂ : String}
    (h₁ : s₁ = "" ∨ s₁.toList.getLast? = some '\n')
    (h₂ : (Text.lines s₂.toList).head?.any isHeader = true) (hr : '\r' ∉ s₁.toList)
    (hd : (Text.lines s₂.toList).head?.any isDirective = false) :
    tablesReadBy read? (s₁ ++ s₂) = tablesReadBy read? s₁ ++ tablesReadBy read? s₂ := by
  have ha : s₁.toList = [] ∨ s₁.toList.getLast? = some '\n' := by simpa using h₁
  rw [tablesReadBy, String.toList_append, fragments, lines_clean_append ha hr,
    scan_append _ [] 0 _ (head?_lines_clean h₂ hd), List.map_append, List.flatMap_append]
  rfl

end TableLoader.Dump

namespace TableLoader.Importer

open Dump (isHeader isDirective fragments postgresTables mysqlTables tablesReadBy)

theorem tables_eq_of_grammar {i : Importer} {dump : String} (h : tablesReadBy i.read? dump ≠ []) :
    i.tables dump = tablesReadBy i.read? dump := by
  have hf : i.tablesBy dump .grammar ≠ [] := h
  rw [tables, find?, Strategy.order, firstFound?, if_neg hf]
  rfl

/-- Behind whole lines a dump that begins with a header is read as if it stood alone, by the scanner and by each
strategy. The grammar reads cleaned lines, so for it the header must survive cleaning, and a carriage return
before a line feed must not be lost on joining only one of the two. -/
theorem tables_append_of_header (i : Importer) {s₁ s₂ : String}
    (h₁ : s₁ = "" ∨ s₁.toList.getLast? = some '\n')
    (h₂ : (Text.lines s₂.toList).head?.any isHeader = true) :
    (∀ e, fragments e (s₁ ++ s₂).toList = fragments e s₁.toList ++ fragments e s₂.toList) ∧
    postgresTables (s₁ ++ s₂) = postgresTables s₁ ++ postgresTables s₂ ∧
    mysqlTables (s₁ ++ s₂) = mysqlTables s₁ ++ mysqlTables s₂ ∧
    ('\r' ∉ s₁.toList → (Text.lines s₂.toList).head?.any isDirective = false →
      tablesReadBy i.read? (s₁ ++ s₂) = tablesReadBy i.read? s₁ ++ tablesReadBy i.read? s₂ ∧
      (tablesReadBy i.read? s₁ ≠ [] ∨ tablesReadBy i.read? s₂ ≠ [] →
        i.tables (s₁ ++ s₂) = tablesReadBy i.read? s₁ ++ tablesReadBy i.read? s₂)) := by
  have ha : s₁.toList = [] ∨ s₁.toList.getLast? = some '\n' := by simpa using h₁
  refine ⟨fun e => ?_, Dump.tablesBy_append _ h₁ h₂, Dump.tablesBy_append _ h₁ h₂, fun hr hd => ?_⟩
  · rw [String.toList_append, Dump.fragments_append e ha h₂]
  · have hg := Dump.tablesReadBy_append i.read? h₁ h₂ hr hd
    refine ⟨hg, fun hne => ?_⟩
    have hw : tablesReadBy i.read? (s₁ ++ s₂) ≠ [] := by
      rw [hg]
      simpa [or_iff_not_imp_left] using hne
    rw [tables_eq_of_grammar hw, hg]

def broken : String := "CREATE TABLE broken (id INT NOT NULL DEFAULT ((;\n"

def sound : String := "create table t (\r\n  id INT,\n  note VARCHAR(9) NOT NULL\n);"

theorem tables_broken_sound :
    (broken.toList.getLast? = some '\n' ∧ (Text.lines sound.toList).head?.any isHeader = true ∧
      '\r' ∉ broken.toList ∧ (Text.lines sound.toList).head?.any isDirective = false) ∧
    tablesReadBy (ofDialect .mysql).read? sound ≠ [] ∧
    (∀ e, fragments e (broken ++ sound).toList =
      fragments e broken.toList ++ fragments e sound.toList) ∧
    mysqlTables (broken ++ sound) = mysqlTables broken ++ mysqlTables sound ∧
    (ofDialect .mysql).tables (broken ++ sound) =
      tablesReadBy (ofDialect .mysql).read? broken ++ tablesReadBy (ofDialect .mysql).read? sound := by
  have hl : broken.toList.getLast? = some '\n' := by decide +kernel
  have hh : (Text.lines sound.toList).head?.any isHeader = true := by decide +kernel
  have hr : '\r' ∉ broken.toList := by decide +kernel
  have hd : (Text.lines sound.toList).head?.any isDirective = false := by decide +kernel
  have hne : tablesReadBy (ofDialect .mysql).read? sound ≠ [] := by decide +kernel
  obtain ⟨hf, -, hm, hg⟩ := tables_append_of_header (ofDialect .mysql) (Or.inr hl) hh
  obtain ⟨-, ht⟩ := hg hr hd
  exact ⟨⟨hl, hh, hr, hd⟩, hne, hf, hm, ht (Or.inr hne)⟩

end TableLoader.Importer
