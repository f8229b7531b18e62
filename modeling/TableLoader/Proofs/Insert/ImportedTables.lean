import TableLoader.Proofs.Dump.CutShort
import TableLoader.Proofs.Dump.ReportedName
import TableLoader.Proofs.Request.Alignment
import TableLoader.Proofs.Request.Answers

/-! # Imported tables

A table that the pattern strategies find in a dump has words for its name and for the names and types of its
fields: no blank and no backtick stands in them. So it is written back as it was found, its name and its fields
between backticks unchanged. -/
namespace TableLoader

/-- A text that stands between backticks unchanged and is one word everywhere else. -/
structure IsBareWord (cs : List Char) : Prop where
  ne_nil : cs ≠ []
  plain : ∀ c ∈ cs, Text.isBlank c = false ∧ c ≠ '\x60'

/-- A table all of whose texts are words, with a field to write. -/
structure Table.Exportable (t : Table) : Prop where
  name : IsBareWord t.name.toList
  fields_ne_nil : t.fields ≠ []
  field : ∀ f ∈ t.fields, IsBareWord f.name.toList ∧ IsBareWord f.declaredType.toList

namespace Dump

theorem isBareWord_of_isNameChar {cs : List Char} (hne : cs ≠ [])
    (h : ∀ c ∈ cs, isNameChar c = true) : IsBareWord cs := by
  refine ⟨hne, ?_⟩
  intro c hc
  have hn := h c hc
  constructor
  · simp only [isNameChar, Bool.or_eq_true, beq_iff_eq] at hn
    rcases hn with ((hn | rfl) | rfl) | rfl
    · exact Text.isBlank_of_isAlphanum hn
    all_goals decide
  · rintro rfl
    exact absurd hn (by decide)

theorem isBareWord_of_takeName {cs rest name : List Char} (h : takeName cs = some (name, rest)) :
    IsBareWord name := by
  simp only [takeName] at h
  split at h
  · simp at h
  · next hne =>
    obtain ⟨rfl, -⟩ := Prod.mk.inj (Option.some.inj h)
    exact isBareWord_of_isNameChar hne fun c hc => List.mem_takeWhile_imp hc

theorem isBareWord_of_nameBeforeParenthesis? {cs name : List Char}
    (h : nameBeforeParenthesis? cs = some name) : IsBareWord name := by
  obtain ⟨⟨taken, rest⟩, ht, h⟩ := Option.bind_eq_some_iff.mp h
  dsimp only at h
  split at h
  · obtain rfl := Option.some.inj h
    exact isBareWord_of_takeName ht
  · simp at h

theorem isBareWord_of_schemaName? {cs name : List Char} (h : schemaName? cs = some name) :
    IsBareWord name := by
  unfold schemaName? at h
  split at h <;> exact isBareWord_of_nameBeforeParenthesis? h

theorem isBareWord_of_backtickName? {cs name : List Char} (h : backtickName? cs = some name) :
    IsBareWord name := by
  obtain ⟨⟨taken, rest⟩, ht, rfl⟩ := Option.map_eq_some_iff.mp h
  exact isBareWord_of_takeName ht

theorem exists_of_findName? {name? : List Char → Option (List Char)} {cs name : List Char}
    (h : findName? name? cs = some name) : ∃ rest, name? rest = some name := by
  induction cs with
  | nil => simp [findName?] at h
  | cons c cs ih =>
    rcases Option.or_eq_some_iff.mp h with h | ⟨-, h⟩
    · obtain ⟨rest, -, h⟩ := Option.bind_eq_some_iff.mp h
      rcases Option.or_eq_some_iff.mp h with h | ⟨-, h⟩
      · obtain ⟨guarded, -, h⟩ := Option.bind_eq_some_iff.mp h
        exact ⟨guarded, h⟩
      · exact ⟨rest, h⟩
    · exact ih h

theorem backtick_notMem_bare (clause : List Char) : '\x60' ∉ bare clause := by
  intro hm
  simpa using (List.mem_filter.mp hm).2

theorem isBareWord_of_fieldOf? {clause : List Char} {f : Field} (h : fieldOf? clause = some f) :
    IsBareWord f.name.toList ∧ IsBareWord f.declaredType.toList := by
  have hword : ∀ w ∈ Text.words (bare clause), IsBareWord w := by
    intro w hw
    obtain ⟨hne, hmem⟩ := Text.mem_of_mem_words hw
    refine ⟨hne, ?_⟩
    intro c hc
    refine ⟨(hmem c hc).2, ?_⟩
    rintro rfl
    exact backtick_notMem_bare clause (hmem _ hc).1
  unfold fieldOf? at h
  split at h
  · simp at h
  · split at h
    · next name declared others hw =>
      obtain rfl := Option.some.inj h
      rw [String.toList_ofList, String.toList_ofList]
      exact ⟨hword name (by simp [hw]), hword declared (by simp [hw])⟩
    · simp at h

theorem exportable_of_tableOf? {name? : List Char → Option (List Char)}
    (hname : ∀ {cs name}, name? cs = some name → IsBareWord name) {statement : List Char} {t : Table}
    (h : tableOf? name? statement = some t) : t.Exportable := by
  obtain ⟨name, body, hn, -, hf, rfl⟩ := tableOf?_eq_some_iff.mp h
  obtain ⟨rest, hr⟩ := exists_of_findName? hn
  constructor
  · rw [String.toList_ofList]
    exact hname hr
  · exact hf
  · intro f hm
    obtain ⟨clause, -, hc⟩ := List.mem_filterMap.mp hm
    exact isBareWord_of_fieldOf? hc

theorem exportable_of_mem {dump : String} {t : Table}
    (h : t ∈ postgresTables dump ∨ t ∈ mysqlTables dump) : t.Exportable := by
  rcases h with h | h
  · obtain ⟨statement, -, ht⟩ := List.mem_filterMap.mp h
    exact exportable_of_tableOf? isBareWord_of_schemaName? ht
  · obtain ⟨statement, -, ht⟩ := List.mem_filterMap.mp h
    exact exportable_of_tableOf? isBareWord_of_backtickName? ht

end Dump

namespace Insert

open Dump (quoted)

/-- The first line of a statement for all fields of a table, each name between backticks as it stands. -/
def unchangedHeader (t : Table) : List Char :=
  intoMark ++ (quoted [] t.name.toList [] ++ (columnsMark ++
    (separator.intercalate (t.fields.map fun f => quoted [] f.name.toList []) ++ valuesMark)))

theorem quoteName_of_isBareWord {name : List Char} (h : IsBareWord name) :
    quoteName .backtick name = quoted [] name [] := by
  have hs : strip .backtick name = name := by
    apply List.filter_eq_self.mpr
    intro c hc
    have hb := (h.plain c hc).2
    simpa [IdentifierQuote.delimiters] using hb
  rw [quoteName, hs]
  rfl

theorem hasTarget_of_isBareWord {m : Mapping} {name : String} (h : IsBareWord name.toList)
    (hm : name ∈ m.targets) : m.hasTarget name = true := by
  refine Mapping.hasTarget_iff.mpr ⟨?_, hm⟩
  rintro rfl
  exact h.ne_nil rfl

/-- A table whose texts are words is written with all its fields, whatever its rows hold. -/
theorem exists_build_of_exportable {t : Table} (ht : t.Exportable) {mapping : Mapping}
    (hm : ∀ f ∈ t.fields, f.name ∈ mapping.targets) {rows : List Row} (hr : rows ≠ []) :
    ∃ sql, build .backtick t.name mapping t.fields rows = .ok sql ∧
      unchangedHeader t <+: sql.toList := by
  have hcols : columns t.fields mapping = t.fields := by
    apply Request.columns_eq_self_iff.mpr
    intro f hf
    exact hasTarget_of_isBareWord (ht.field f hf).1 (hm f hf)
  have hnames : (t.fields.map Field.name).map (fun n => quoteName .backtick n.toList) =
      t.fields.map fun f => quoted [] f.name.toList [] := by
    rw [List.map_map]
    apply List.map_congr_left
    intro f hf
    exact quoteName_of_isBareWord (ht.field f hf).1
  refine ⟨_, build_eq_ok_iff.mpr ⟨hr, by rw [hcols]; exact ht.fields_ne_nil, rfl⟩, ?_⟩
  rw [String.toList_ofList, hcols, statement_eq, hnames, quoteName_of_isBareWord ht.name]
  exact ⟨tupleLines (t.fields.map Field.sqlType) rows, by simp [unchangedHeader]⟩

/-- What the pattern strategies find is written back without loss. -/
theorem build_imported {dump : String} {t : Table}
    (h : t ∈ Dump.postgresTables dump ∨ t ∈ Dump.mysqlTables dump) :
    t.Exportable ∧ ∀ (mapping : Mapping) (rows : List Row), rows ≠ [] →
      (∀ f ∈ t.fields, f.name ∈ mapping.targets) →
      ∃ sql, build .backtick t.name mapping t.fields rows = .ok sql ∧
        unchangedHeader t <+: sql.toList := by
  have ht := Dump.exportable_of_mem h
  refine ⟨ht, ?_⟩
  intro mapping rows hr hm
  exact exists_build_of_exportable ht hm hr

/-- A name that folds to ASCII, a backtick within a name, a blank beyond ASCII, a comment taken for a field. -/
theorem build_imported_kelvin :
    let dump := "create table \x60\u212Aelvin\x60 (\n  \x60na\x60me\u00A0INT(3) NOT NULL,\n  -- degrees\n);"
    let t : Table := ⟨"\u212Aelvin", [⟨"name", "INT(3)", false⟩, ⟨"--", "degrees", true⟩]⟩
    let mapping : Mapping := ⟨[("A", "--"), ("B", "name")], by decide⟩
    let rows : List Row := [[.text "7", .null]]
    t ∈ Dump.mysqlTables dump ∧ rows ≠ [] ∧ (∀ f ∈ t.fields, f.name ∈ mapping.targets) ∧
      t.Exportable ∧ ∃ sql, build .backtick t.name mapping t.fields rows = .ok sql ∧
        unchangedHeader t <+: sql.toList := by
  intro dump t mapping rows
  have h : t ∈ Dump.mysqlTables dump := by decide +kernel
  have hr : rows ≠ [] := List.cons_ne_nil _ _
  have hm : ∀ f ∈ t.fields, f.name ∈ mapping.targets := by decide
  obtain ⟨ht, hbuild⟩ := build_imported (Or.inr h)
  exact ⟨h, hr, hm, ht, hbuild mapping rows hr hm⟩

end Insert

end TableLoader
