import TableLoader.Proofs.Cell.Checking
import TableLoader.Proofs.Request.Answers
import TableLoader.Proofs.Text.Lines

/-! # Typed cells and their texts

A cell may be replaced by its own text, with blanks around it: it stays as empty as it was, and unless it is empty
it keeps its trimmed content, on which alone the check and the literal depend. So rows that come typed and the same
rows that come as texts are answered alike. -/
namespace TableLoader

/-- One cell is the other, or the text that shows it with blanks around. -/
inductive Cell.Respelled : Cell → Cell → Prop where
  | kept (c : Cell) : Respelled c c
  | shown (c : Cell) (s : String) (front back : List Char) :
      (∀ ch ∈ front, Text.isBlank ch = true) → (∀ ch ∈ back, Text.isBlank ch = true) →
      s.toList = front ++ c.display ++ back → Respelled c (.text s)

namespace Cell

theorem trimmed?_shown {c : Cell} {s : String} {front back : List Char}
    (hf : ∀ ch ∈ front, Text.isBlank ch = true) (hb : ∀ ch ∈ back, Text.isBlank ch = true)
    (hs : s.toList = front ++ c.display ++ back) :
    (Cell.text s).trimmed? = some (Text.trim c.display) := by
  rw [trimmed?, content?, Option.map_some, hs, Text.trim_append_blanks hb,
    Text.trim_append_of_blank hf]

namespace Respelled

variable {c d : Cell}

theorem isNullLike_eq (h : Respelled c d) : d.isNullLike = c.isNullLike := by
  cases h with
  | kept => rfl
  | shown s front back hf hb hs =>
    rw [isNullLike, trimmed?_shown hf hb hs]
    cases c with
    | null => decide +kernel
    | _ => rfl

/-- `null` alone has no content, but its text is as empty as it is. -/
theorem trimmed_eq (h : Respelled c d) (hn : c.isNullLike = false) : d.trimmed = c.trimmed := by
  cases h with
  | kept => rfl
  | shown s front back hf hb hs =>
    rw [trimmed, trimmed?_shown hf hb hs]
    cases c with
    | null => exact absurd hn (by decide)
    | _ => rfl

theorem format_eq (h : Respelled c d) (t : SqlType) : Literal.format t d = Literal.format t c := by
  rw [Literal.format_eq, Literal.format_eq, h.isNullLike_eq]
  cases hn : c.isNullLike with
  | true => rfl
  | false => rw [h.trimmed_eq hn]

theorem checkCell_eq (h : Respelled c d) (field : Field) (t : SqlType) :
    checkCell d field t = checkCell c field t := by
  rw [checkCell, checkCell, h.isNullLike_eq]
  cases hn : c.isNullLike with
  | true => rfl
  | false => rw [h.trimmed_eq hn]

end Respelled

end Cell

abbrev Row.Respelled : Row → Row → Prop := List.Forall₂ Cell.Respelled

theorem rowLiterals_respelled {row row' : Row} (h : row.Respelled row') (types : List SqlType) :
    Insert.rowLiterals types row' = Insert.rowLiterals types row := by
  induction h generalizing types with
  | nil => rfl
  | cons hc hr ih =>
    cases types with
    | nil =>
      have htail := ih []
      simp only [Insert.rowLiterals] at htail
      simp only [Insert.rowLiterals, List.map_cons, hc.format_eq, htail]
    | cons t types => rw [Insert.rowLiterals, Insert.rowLiterals, hc.format_eq, ih]

theorem checkRow_respelled {row row' : Row} (h : row.Respelled row') (number : Nat)
    (fields : List Field) : checkRow number row' fields = checkRow number row fields := by
  induction h generalizing fields with
  | nil => rfl
  | cons hc hr ih =>
    cases fields with
    | nil => rfl
    | cons field fields =>
      have htail := ih fields
      simp only [checkRow] at htail
      simp only [checkRow, List.zip_cons_cons, List.filterMap_cons, hc.checkCell_eq, htail]

theorem checkRowsFrom_respelled {rows rows' : List Row} (h : List.Forall₂ Row.Respelled rows rows')
    (fields : List Field) (number : Nat) :
    checkRowsFrom fields number rows' = checkRowsFrom fields number rows := by
  induction h generalizing number with
  | nil => rfl
  | cons hr hrs ih => rw [checkRowsFrom, checkRowsFrom, checkRow_respelled hr, ih]

theorem build_respelled {rows rows' : List Row} (h : List.Forall₂ Row.Respelled rows rows')
    (quote : IdentifierQuote) (table : String) (mapping : Mapping) (fields : List Field) :
    Insert.build quote table mapping fields rows' = Insert.build quote table mapping fields rows := by
  have htuples : ∀ types : List SqlType,
      rows'.map (fun row => Insert.tuple (Insert.rowLiterals types row)) =
        rows.map fun row => Insert.tuple (Insert.rowLiterals types row) := by
    intro types
    induction h with
    | nil => rfl
    | cons hr hrs ih => rw [List.map_cons, List.map_cons, rowLiterals_respelled hr, ih]
  have hempty : rows'.isEmpty = rows.isEmpty := by cases h <;> rfl
  rw [Insert.build, Insert.build, hempty, Insert.statement, Insert.statement, htuples]

namespace Request

/-- Two requests that differ in the spelling of their cells alone. -/
structure Respelled (r r' : Request) : Prop where
  table : r'.table = r.table
  mapping : r'.mapping = r.mapping
  fields : r'.fields = r.fields
  rows : List.Forall₂ Row.Respelled r.rows r'.rows

variable {r r' : Request}

theorem Respelled.faults_eq (h : Respelled r r') : r'.faults = r.faults := by
  rw [faults, faults, h.fields]
  exact checkRowsFrom_respelled h.rows r.fields 1

theorem Respelled.generate_eq (h : Respelled r r') (s : Settings) : r'.generate s = r.generate s := by
  have hnil : r'.rows = [] ↔ r.rows = [] := by
    rw [← List.length_eq_zero_iff, ← List.length_eq_zero_iff, h.rows.length_eq]
  rw [generate, generate, h.faults_eq, h.table, h.mapping, h.fields, build_respelled h.rows]
  simp only [hnil]

/-- A cell and its text are written and checked alike under every type, and a request is answered alike however its
cells are spelled. -/
theorem respelled_alike :
    (∀ c d : Cell, c.Respelled d → ∀ (t : SqlType) (field : Field),
      Literal.format t d = Literal.format t c ∧ checkCell d field t = checkCell c field t) ∧
    ∀ r r' : Request, Respelled r r' →
      r'.verdict = r.verdict ∧ ∀ s, r'.generate s = r.generate s := by
  constructor
  · intro c d h t field
    exact ⟨h.format_eq t, h.checkCell_eq field t⟩
  · intro r r' h
    refine ⟨?_, h.generate_eq⟩
    rw [verdict, verdict, h.faults_eq]

def typedRequest : Request where
  table := "t"
  mapping := ⟨[("A", "ok"), ("B", "n"), ("C", "note")], by decide⟩
  rows := [[.bool true, .number (.negative ⟨6, by decide⟩), .null], [.bool false, .bool true, .text "null"]]
  fields := [⟨"ok", "BOOLEAN", true⟩, ⟨"n", "INT", true⟩, ⟨"note", "TEXT", false⟩]

def textRequest : Request := { typedRequest with
  rows := [[.text "true", .text " -7\t", .text "\u00A0null\u2003"],
    [.text "\nfalse", .bool true, .text "null"]] }

theorem respelled_textRequest :
    Respelled typedRequest textRequest ∧
      textRequest.verdict = typedRequest.verdict ∧
      textRequest.generate {} = .error (.validationFailed [⟨1, "note", .nullNotAllowed⟩,
        ⟨2, "n", .notNumeric "true"⟩, ⟨2, "note", .nullNotAllowed⟩]) := by
  have h : Respelled typedRequest textRequest := by
    have hblank : ∀ b, Text.isBlank b = true → ∀ ch ∈ [b], Text.isBlank ch = true :=
      fun _ hb => List.forall_mem_singleton.mpr hb
    refine ⟨rfl, rfl, rfl, ?_⟩
    refine .cons (.cons ?_ (.cons ?_ (.cons ?_ .nil)))
      (.cons (.cons ?_ (.cons (.kept _) (.cons (.kept _) .nil))) .nil)
    · exact .shown _ _ [] [] (by simp) (by simp) rfl
    · exact .shown _ _ [' '] ['\t'] (hblank _ rfl) (hblank _ rfl) (by decide +kernel)
    · exact .shown _ _ ['\u00A0'] ['\u2003'] (hblank _ rfl) (hblank _ rfl) rfl
    · exact .shown _ _ ['\n'] [] (hblank _ rfl) (by simp) rfl
  obtain ⟨hv, hg⟩ := respelled_alike.2 _ _ h
  refine ⟨h, hv, ?_⟩
  rw [hg]
  decide +kernel

end Request

end TableLoader
