import TableLoader.Dump.Grammar
import TableLoader.Proofs.Dump.RoundTrip
import TableLoader.Proofs.Sql.PlainType

/-! # Plain tables

Tables with columns of plain types and nothing else, one column on each line, as both strategies for MySQL
can read them. -/
namespace TableLoader.Dump

open Sql (PlainType)

structure PlainColumn where
  name : String
  type : PlainType
  word : String
  nullable : Bool
  isName : IsQuotedName name.toList
  cased : Text.equalsIgnoringCase word.toList type.name.toList = true

theorem isQuotedName_of_isAlphanum {cs : List Char} (hne : cs ≠ [])
    (h : ∀ c ∈ cs, c.isAlphanum = true) : IsQuotedName cs where
  ne_nil := hne
  plain := by
    intro c hc
    exact ⟨Text.isBlank_of_isAlphanum (h c hc), Sql.notMem_of_isAlphanum (h c hc) (by decide)⟩

theorem isQuotedName_natText (n : ℕ) : IsQuotedName (natText n) := by
  refine isQuotedName_of_isAlphanum (natText_ne_nil n) fun c hc => ?_
  simp [Char.isAlphanum, natText_digits n c hc]

theorem IsQuotedName.isDeclaredType {cs : List Char} (h : IsQuotedName cs) : IsDeclaredType cs where
  ne_nil := h.ne_nil
  plain := by
    intro c hc
    exact ⟨(h.plain c hc).1, fun he => (h.plain c hc).2 (by simp [he])⟩
  balanced := (h.inert 0).balanced
  commas := (h.inert 0).commas

theorem isDeclaredType_grouped {w inner : List Char} (hw : IsQuotedName w) (hi : Inert 1 inner)
    (hp : ∀ c ∈ inner, Text.isBlank c = false ∧ c ≠ '\x60') :
    IsDeclaredType (grouped w inner []) where
  ne_nil := grouped_ne_nil _ _ _
  plain := by
    have hd := hw.isDeclaredType.plain
    intro c hc
    simp only [grouped, List.mem_append, List.mem_cons, List.not_mem_nil, or_false] at hc
    rcases hc with hc | rfl | hc | rfl
    · exact hd c hc
    · decide
    · exact hp c hc
    · decide
  balanced := ((hw.inert 0).grouped hi (Inert.nil 0)).balanced
  commas := ((hw.inert 0).grouped hi (Inert.nil 0)).commas

namespace PlainColumn

def declared (c : PlainColumn) : List Char := c.word.toList ++ c.type.measureText

def field (c : PlainColumn) : Field := ⟨c.name, String.ofList c.declared, c.nullable⟩

theorem upper_word (c : PlainColumn) :
    Text.toUpper c.word.toList = c.type.name.toList ∧ ∀ x ∈ c.word.toList, x.isAlpha = true :=
  Text.toUpper_of_equalsIgnoringCase c.type.isUpper_name c.cased

theorem isQuotedName_word (c : PlainColumn) : IsQuotedName c.word.toList := by
  have hl := congrArg List.length (eq_of_beq c.cased)
  have ht := c.type.length_name
  simp only [List.length_map] at hl
  refine isQuotedName_of_isAlphanum (List.ne_nil_of_length_pos (by omega)) fun x hx => ?_
  simp [Char.isAlphanum, c.upper_word.2 x hx]

theorem isDeclaredType (c : PlainColumn) : IsDeclaredType c.declared := by
  have hw := c.isQuotedName_word
  have hnum : ∀ n, IsDeclaredType (grouped c.word.toList (natText n) []) := fun n =>
    isDeclaredType_grouped hw ((isQuotedName_natText n).inert 1)
      (isQuotedName_natText n).isDeclaredType.plain
  unfold declared
  cases c.type with
  | bare => simpa [PlainType.measureText] using hw.isDeclaredType
  | sized name n => exact hnum n
  | decimal p s =>
    have hi := ((isQuotedName_natText p).inert 1).join ((isQuotedName_natText s).inert 1)
      (Or.inr ⟨rfl, by decide⟩)
    have hd := isDeclaredType_grouped hw hi ?_
    · simpa [PlainType.measureText, grouped] using hd
    · intro x hx
      rcases List.mem_append.mp hx with hx | hx
      · exact (isQuotedName_natText p).isDeclaredType.plain x hx
      · rcases List.mem_cons.mp hx with rfl | hx
        · decide
        · exact (isQuotedName_natText s).isDeclaredType.plain x hx

theorem unambiguous (c : PlainColumn) : ¬ "NULL".toList <+: Text.toUpper c.declared := by
  have hn : ∀ name ∈ Sql.typeNames, name.toList.head? ≠ some 'N' := by decide +kernel
  have hne : c.type.name.toList ≠ [] :=
    List.ne_nil_of_length_pos (lt_trans Nat.zero_lt_one c.type.length_name)
  obtain ⟨x, xs, hx⟩ := List.exists_cons_of_ne_nil hne
  have hh := hn c.type.name c.type.name_mem
  rw [declared, Text.toUpper_append, c.upper_word.1, hx]
  rw [hx] at hh
  intro h
  have he : 'N' = x := (List.cons_prefix_cons.mp h).1
  exact hh (by rw [he]; rfl)

def column (c : PlainColumn) : Column where
  field := c.field
  defaulted := false
  name := c.isName
  declared := by simpa [field] using c.isDeclaredType
  unambiguous := by
    intro _ h
    exact c.unambiguous (by simpa [field] using h.2)

end PlainColumn

/-- A table with any number of columns, also none. -/
structure PlainTable where
  name : String
  columns : List PlainColumn
  name_ne : name ≠ ""
  name_plain : name.toList.all (fun c => c.isAlphanum || c == '_') = true

namespace PlainTable

def table (t : PlainTable) : Table := ⟨t.name, t.columns.map PlainColumn.field⟩

def items (t : PlainTable) : List Item := t.columns.map fun c => c.column.item

def header (t : PlainTable) : Line := createMark ++ quoted [] t.name.toList [' ', '(']

def closing : Line := [')', ';']

def framed (t : PlainTable) (columns : List Column) (h : columns ≠ []) : TableText :=
  ⟨t.name, false, columns, [], t.name_ne, t.name_plain, h⟩

def frame (t : PlainTable) : TableText :=
  t.framed [⟨⟨"id", "INT", true⟩, false, by decide +kernel, by decide +kernel, by decide +kernel⟩]
    (List.cons_ne_nil _ _)

theorem header_eq (t : PlainTable) : t.header = t.frame.front ++ ['('] := by
  simp [header, TableText.front, TableText.guard, frame, framed, quoted]

def text (t : PlainTable) : List Char :=
  t.header ++ '\n' :: (Text.joinLines (itemLines t.items) ++ '\n' :: (closing ++ ['\n']))

end PlainTable

def plainDump (tables : List PlainTable) : String := String.ofList (tables.flatMap PlainTable.text)

end TableLoader.Dump
