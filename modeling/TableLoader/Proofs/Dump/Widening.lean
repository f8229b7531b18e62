import TableLoader.Proofs.Dump.Fallback

/-! # The last strategy finds what the one before it finds

Where a plain name with a parenthesis behind it can be read, a name that may stand between backticks can be read
too. So the pattern for MySQL recognises every statement that the one for PostgreSQL recognises, and since the
fields of a statement do not depend on how its name is read, no table is lost between the two strategies. -/
namespace TableLoader.Dump

/-- One pattern recognises whatever another one does. -/
def Covers (wide narrow : List Char → Option (List Char)) : Prop :=
  ∀ cs, (narrow cs).isSome = true → (wide cs).isSome = true

theorem isSome_takeName_of_schemaName? {cs : List Char} (h : (schemaName? cs).isSome = true) :
    (takeName cs).isSome = true := by
  unfold schemaName? at h
  split at h
  · next he => rw [he]; rfl
  · exact Option.isSome_of_isSome_bind h

theorem isSome_backtickName?_of_takeName {cs : List Char} (h : (takeName cs).isSome = true) :
    (backtickName? cs).isSome = true := by
  unfold backtickName?
  rw [Option.isSome_map]
  split
  · next rest =>
    have hn : takeName ('\x60' :: rest) = none := rfl
    rw [hn] at h
    exact absurd h (by decide)
  · exact h

theorem covers_schemaName? : Covers backtickName? schemaName? := by
  intro cs h
  exact isSome_backtickName?_of_takeName (isSome_takeName_of_schemaName? h)

namespace Covers

variable {wide narrow : List Char → Option (List Char)}

theorem nameHere? (h : Covers wide narrow) : Covers (nameHere? wide) (nameHere? narrow) := by
  intro cs hs
  unfold Dump.nameHere? at hs ⊢
  cases hw : afterWords ["create", "table"] cs with
  | none =>
    rw [hw] at hs
    exact absurd hs (by simp)
  | some rest =>
    rw [hw, Option.bind_some, Option.isSome_or, Bool.or_eq_true] at hs
    rw [Option.bind_some, Option.isSome_or, Bool.or_eq_true]
    -- Each reading of the guard, as a guard or as the name itself, is covered by the same reading.
    rcases hs with hguarded | hplain
    · cases hg : afterWords ["if", "not", "exists"] rest with
      | none =>
        rw [hg] at hguarded
        exact absurd hguarded (by simp)
      | some named =>
        rw [hg, Option.bind_some] at hguarded
        exact Or.inl (h named hguarded)
    · exact Or.inr (h rest hplain)

theorem findName? (h : Covers wide narrow) : Covers (findName? wide) (findName? narrow) := by
  intro cs
  induction cs with
  | nil => exact id
  | cons c cs ih =>
    intro hs
    rw [Dump.findName?, Option.isSome_or, Bool.or_eq_true] at hs ⊢
    exact hs.imp (h.nameHere? (c :: cs)) ih

/-- The fields are read off the body, so they are the same under both names. -/
theorem exists_tableOf? (h : Covers wide narrow) {statement : List Char} {t : Table}
    (ht : tableOf? narrow statement = some t) :
    ∃ name, tableOf? wide statement = some ⟨name, t.fields⟩ := by
  obtain ⟨name, body, hn, hb, hf, rfl⟩ := tableOf?_eq_some_iff.mp ht
  obtain ⟨other, ho⟩ := Option.isSome_iff_exists.mp (h.findName? statement (by rw [hn]; rfl))
  exact ⟨String.ofList other, tableOf?_eq_some_iff.mpr ⟨other, body, ho, hb, hf, rfl⟩⟩

theorem fields_sublist (h : Covers wide narrow) (statements : List (List Char)) :
    ((statements.filterMap (tableOf? narrow)).map Table.fields).Sublist
      ((statements.filterMap (tableOf? wide)).map Table.fields) := by
  induction statements with
  | nil => exact List.Sublist.refl []
  | cons statement statements ih =>
    cases ht : tableOf? narrow statement with
    | none =>
      rw [List.filterMap_cons_none ht]
      cases hw : tableOf? wide statement with
      | none =>
        rw [List.filterMap_cons_none hw]
        exact ih
      | some other =>
        rw [List.filterMap_cons_some hw, List.map_cons]
        exact ih.cons other.fields
    | some t =>
      obtain ⟨name, hw⟩ := h.exists_tableOf? ht
      rw [List.filterMap_cons_some ht, List.filterMap_cons_some hw, List.map_cons, List.map_cons]
      exact ih.cons_cons t.fields

end Covers

theorem postgresTables_eq_nil {dump : String} (h : mysqlTables dump = []) : postgresTables dump = [] := by
  have hs := covers_schemaName?.fields_sublist (fragments .parenthesis dump.toList)
  change ((postgresTables dump).map Table.fields).Sublist ((mysqlTables dump).map Table.fields) at hs
  rw [h, List.map_nil, List.sublist_nil, List.map_eq_nil_iff] at hs
  exact hs

end TableLoader.Dump

namespace TableLoader.Importer

/-- Every statement that the plain pattern recognises is recognised by the other one, with the same fields, so the
tables of the one strategy come in the order of the other one's. An import finds nothing just where the grammar and
the last strategy find nothing. -/
theorem mysqlTables_widen (i : Importer) (dump : String) :
    (∀ statement, (Dump.findName? Dump.schemaName? statement).isSome = true →
      (Dump.findName? Dump.backtickName? statement).isSome = true) ∧
    (∀ statement t, Dump.tableOf? Dump.schemaName? statement = some t →
      ∃ name, Dump.tableOf? Dump.backtickName? statement = some ⟨name, t.fields⟩) ∧
    ((Dump.postgresTables dump).map Table.fields).Sublist
      ((Dump.mysqlTables dump).map Table.fields) ∧
    (i.run dump = .error .noTablesFound ↔
      Readable i dump ∧ i.tablesBy dump .grammar = [] ∧ Dump.mysqlTables dump = []) := by
  refine ⟨?_, ?_, ?_, ?_⟩
  · exact Dump.covers_schemaName?.findName?
  · intro statement t ht
    exact Dump.covers_schemaName?.exists_tableOf? ht
  · exact Dump.covers_schemaName?.fields_sublist _
  · rw [(run_firstOutcome i dump).1.noTablesFound]
    constructor
    · rintro ⟨hr, hg, -, hm⟩
      exact ⟨hr, hg, hm⟩
    · rintro ⟨hr, hg, hm⟩
      exact ⟨hr, hg, Dump.postgresTables_eq_nil hm, hm⟩

/-- A table between backticks is found by the last strategy alone, one under a schema by both, though not by the
same name. -/
example :
    let dump := "CREATE TABLE \x60log\x60 (\n  a int\n);\nCREATE TABLE shop.bill (\n  b int\n);"
    Dump.postgresTables dump = [⟨"bill", [⟨"b", "int", true⟩]⟩] ∧
      Dump.mysqlTables dump = [⟨"log", [⟨"a", "int", true⟩]⟩, ⟨"shop", [⟨"b", "int", true⟩]⟩] := by
  decide +kernel

end TableLoader.Importer
