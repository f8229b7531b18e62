import TableLoader.Proofs.Request.Alignment

/-! # Strings under the standard rule

Standard SQL knows no escapes: in a string a doubled quote is a quote and everything else stands for itself.
Read so, every string of a statement still ends where it was meant to end, but what was written as an escape
stays two characters. -/
namespace TableLoader.Insert

open Literal (IsLiteral)

/-- What stands before the quote that closes a string, and what follows it. Only a quote takes the next
character with it. -/
def takeStandard : List Char → Option (List Char × List Char)
  | [] => none
  | '\'' :: '\'' :: cs => (takeStandard cs).map fun (inner, rest) => ('\'' :: '\'' :: inner, rest)
  | '\'' :: cs => some ([], cs)
  | c :: cs => (takeStandard cs).map fun (inner, rest) => (c :: inner, rest)

def undouble : List Char → List Char
  | '\'' :: '\'' :: cs => '\'' :: undouble cs
  | c :: cs => c :: undouble cs
  | [] => []

def readStandard : List Char → Option (Lexeme × List Char)
  | '\'' :: cs => (takeStandard cs).map fun (inner, rest) => (.string inner, rest)
  | cs => readLiteral cs

/-- What a character of a cell comes to by the standard rule, to which an escape is two characters. -/
def standardChar : Char → List Char
  | '\\' => ['\\', '\\']
  | '\x00' => []
  | '\n' => ['\\', 'n']
  | '\r' => ['\\', 'r']
  | '\t' => ['\\', 't']
  | c => [c]

theorem takeStandard_cons {c : Char} (hc : c ≠ '\'') (cs : List Char) :
    takeStandard (c :: cs) = (takeStandard cs).map fun (inner, rest) => (c :: inner, rest) := by
  rw [takeStandard] <;> simp_all

theorem undouble_cons {c : Char} (hc : c ≠ '\'') (cs : List Char) :
    undouble (c :: cs) = c :: undouble cs := by
  rw [undouble]
  simp_all

theorem takeStandard_quoteChar (c : Char) (cs : List Char) :
    takeStandard (Literal.quoteChar c ++ cs) =
      (takeStandard cs).map fun (inner, rest) => (Literal.quoteChar c ++ inner, rest) := by
  unfold Literal.quoteChar
  split
  case h_2 => simp [takeStandard]
  case h_7 hq _ _ _ _ => exact takeStandard_cons hq cs
  all_goals simp [takeStandard_cons, Function.comp_def]

theorem undouble_quoteChar (c : Char) (cs : List Char) :
    undouble (Literal.quoteChar c ++ cs) = standardChar c ++ undouble cs := by
  unfold Literal.quoteChar
  split
  case h_2 => simp [undouble, standardChar]
  case h_7 hq _ _ _ _ =>
    rw [List.singleton_append, undouble_cons hq]
    simp_all [standardChar]
  all_goals simp [undouble_cons, standardChar]

def standard : StringRule where
  take := takeStandard
  take_quoteChar := takeStandard_quoteChar
  take_closing := by
    intro cs h
    cases cs with
    | nil => rfl
    | cons c cs =>
      have hc : c ≠ '\'' := by simpa using h
      simp [takeStandard, hc]

theorem takeStandard_flatMap (cs : List Char) {rest : List Char} (h : rest.head? ≠ some '\'') :
    takeStandard (cs.flatMap Literal.quoteChar ++ '\'' :: rest) =
      some (cs.flatMap Literal.quoteChar, rest) :=
  (standard.take_closed_iff cs rest).mpr h

theorem undouble_flatMap (cs : List Char) :
    undouble (cs.flatMap Literal.quoteChar) = cs.flatMap standardChar := by
  induction cs with
  | nil => rfl
  | cons c cs ih => rw [List.flatMap_cons, undouble_quoteChar, ih, List.flatMap_cons]

theorem standardChar_cases (c : Char) :
    (c ∈ ['\\', '\n', '\r', '\t'] ∧ (standardChar c).length = 2) ∨
      (c ∉ ['\\', '\n', '\r', '\t'] ∧ standardChar c = [c].filter (· != '\x00')) := by
  unfold standardChar
  split <;> simp_all

theorem length_filter_le_flatMap (cs : List Char) :
    (cs.filter (· != '\x00')).length ≤ (cs.flatMap standardChar).length := by
  induction cs with
  | nil => exact le_rfl
  | cons c cs ih =>
    have hc : ([c].filter (· != '\x00')).length ≤ (standardChar c).length := by
      rcases standardChar_cases c with ⟨-, h⟩ | ⟨-, h⟩
      · have hone := List.length_filter_le (· != '\x00') [c]
        rw [List.length_singleton] at hone
        omega
      · rw [h]
    rw [← List.singleton_append, List.filter_append, List.flatMap_append, List.length_append,
      List.length_append, List.flatMap_singleton]
    omega

/-- The text is the one that was meant just where nothing in it is written as an escape. -/
theorem flatMap_standardChar_eq_iff (cs : List Char) :
    cs.flatMap standardChar = cs.filter (· != '\x00') ↔
      ∀ c ∈ cs, c ∉ ['\\', '\n', '\r', '\t'] := by
  induction cs with
  | nil => simp
  | cons c cs ih =>
    rw [List.forall_mem_cons, ← ih, List.flatMap_cons, ← List.singleton_append, List.filter_append]
    rcases standardChar_cases c with ⟨hc, hl⟩ | ⟨hc, hs⟩
    -- An escape is longer than its character, and no other character makes up for it.
    · refine iff_of_false (fun he => ?_) fun h => h.1 hc
      have hlen := congrArg List.length he
      have hone := List.length_filter_le (· != '\x00') [c]
      have hle := length_filter_le_flatMap cs
      rw [List.length_singleton] at hone
      rw [List.length_append, List.length_append, hl] at hlen
      omega
    · rw [hs, List.append_cancel_left_eq]
      exact (and_iff_right hc).symm

theorem readStandard_append {cs rest : List Char} (h : IsLiteral cs) (hr : EndsLiteral rest) :
    readStandard (cs ++ rest) = some (.ofLiteral cs, rest) := by
  rcases h with ⟨hne, h⟩ | ⟨s, rfl⟩
  · obtain ⟨c, more, rfl⟩ := List.exists_cons_of_ne_nil hne
    have hc : c ≠ '\'' := by
      rintro rfl
      exact Bool.false_ne_true (not_isWordChar_quote.symm.trans (h '\'' List.mem_cons_self))
    have hword : readStandard (c :: (more ++ rest)) = readLiteral (c :: (more ++ rest)) := by
      rw [readStandard]
      simp_all
    rw [ofLiteral_word h, List.cons_append, hword]
    exact readLiteral_word hne h hr
  · have hq : rest.head? ≠ some '\'' := by rcases hr with hr | hr <;> simp [hr]
    simp only [Literal.quote, List.cons_append, List.append_assoc, List.nil_append, readStandard]
    rw [takeStandard_flatMap s hq]
    exact congrArg (fun l => some (l, rest)) (ofLiteral_quote s).symm

/-- What a tuple holds for a row by the standard rule: the text of every string with its escapes as they are
written, which is the text of the cell but for NUL just where it needs no escape. -/
structure DenotesRow (cols : List Field) (row : Row) (tuple : List Lexeme) : Prop where
  length : tuple.length = max row.length cols.length
  text : ∀ i l, tuple[i]? = some l → l.text = Literal.format (typeAt cols i) (cellAt row i)
  value : ∀ i inner, tuple[i]? = some (.string inner) →
    undouble inner = (cellAt row i).trimmed.flatMap standardChar
  kept : ∀ i inner, tuple[i]? = some (.string inner) →
    (undouble inner = (cellAt row i).trimmed.filter (· != '\x00') ↔
      ∀ c ∈ (cellAt row i).trimmed, c ∉ ['\\', '\n', '\r', '\t'])

theorem denotesRow_rowLexemes (cols : List Field) (row : Row) :
    DenotesRow cols row (rowLexemes cols row) := by
  have hvalue : ∀ i inner, (rowLexemes cols row)[i]? = some (.string inner) →
      undouble inner = (cellAt row i).trimmed.flatMap standardChar := by
    intro i inner h
    rw [getElem?_rowLexemes] at h
    split at h
    · rw [inner_of_format (Option.some.inj h), undouble_flatMap]
    · simp at h
  refine ⟨(recoversRow_rowLexemes cols row).length, (recoversRow_rowLexemes cols row).text, hvalue, ?_⟩
  intro i inner h
  rw [hvalue i inner h, flatMap_standardChar_eq_iff]

end TableLoader.Insert

namespace TableLoader.Request

open TableLoader.Insert

/-- By the standard rule a statement has the same literals, whatever the style of its names; its strings denote
their cells just where these need no escape. -/
theorem generate_read_standard {s : Settings} {r : Request} {sql : String}
    (h : r.generate s = .ok sql) :
    ∃ reading, readStatementBy readStandard s.identifierQuote sql = some reading ∧
      readStatement s.identifierQuote sql = some reading ∧
      List.Forall₂ (DenotesRow (columns r.fields r.mapping)) r.rows reading.tuples := by
  obtain ⟨-, -, -, hb⟩ := generate_eq_ok_iff.mp h
  obtain ⟨hr, hc, rfl⟩ := build_eq_ok_iff.mp hb
  refine ⟨_, readStatementBy_statement (fun _ hl _ he => readStandard_append hl he) _ _ hc hr,
    readStatement_statement _ _ hc hr, ?_⟩
  rw [List.forall₂_map_right_iff]
  exact List.forall₂_same.mpr fun row _ => denotesRow_rowLexemes _ row

def noteRequest : Request where
  table := "notes"
  mapping := ⟨[("A", "id"), ("B", "note")], by decide⟩
  rows := [[.text "7", .text " it's\x00 here "]]
  fields := [⟨"id", "INT", false⟩, ⟨"note", "TEXT", true⟩]

theorem generate_read_standard_noteRequest :
    ∃ sql, noteRequest.generate { identifierQuote := .double } = .ok sql ∧
      ∃ reading, readStatementBy readStandard .double sql = some reading ∧
        readStatement .double sql = some reading ∧
        List.Forall₂ (DenotesRow (columns noteRequest.fields noteRequest.mapping)) noteRequest.rows
          reading.tuples := by
  have h : noteRequest.generate { identifierQuote := .double } =
      .ok "INSERT INTO \"notes\" (\"id\", \"note\") VALUES\n(7, 'it''s here');" := by decide +kernel
  exact ⟨_, h, generate_read_standard h⟩

def pathRequest : Request where
  table := "t"
  mapping := ⟨[("A", "p")], by decide⟩
  rows := [[.text "C:\\tmp"]]
  fields := [⟨"p", "TEXT", true⟩]

/-- A backslash is doubled whatever the style of the names, and the standard rule reads two of them. -/
theorem generate_read_standard_pathRequest :
    pathRequest.generate { identifierQuote := .double } =
        .ok "INSERT INTO \"t\" (\"p\") VALUES\n('C:\\\\tmp');" ∧
      readStatementBy readStandard .double "INSERT INTO \"t\" (\"p\") VALUES\n('C:\\\\tmp');" =
        some ⟨['t'], [['p']], [[.string "C:\\\\tmp".toList]]⟩ ∧
      undouble "C:\\\\tmp".toList ≠ (Cell.text "C:\\tmp").trimmed.filter (· != '\x00') := by
  have hc : pathRequest.fields ≠ [] := List.cons_ne_nil _ _
  have hr : pathRequest.rows ≠ [] := List.cons_ne_nil _ _
  have hread :=
    readStatementBy_statement (fun _ hl _ he => readStandard_append hl he) .double "t" hc hr
  refine ⟨by decide +kernel, ?_, by decide +kernel⟩
  have hsql : String.ofList (statement .double "t" pathRequest.fields pathRequest.rows) =
      "INSERT INTO \"t\" (\"p\") VALUES\n('C:\\\\tmp');" := by decide +kernel
  rw [← hsql, hread]
  decide +kernel

end TableLoader.Request
