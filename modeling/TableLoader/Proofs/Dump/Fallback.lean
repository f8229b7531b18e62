import Mathlib
import TableLoader.Service

/-! # The outcome of an import

A dump is refused when it is empty, too large or without tables, in this order, and is otherwise read by the
first strategy that finds a table. All tables come from that one strategy, and every table has a field. -/
namespace TableLoader.Dump

theorem fields_ne_nil_of_tableOf? {name? : List Char → Option (List Char)} {statement : List Char}
    {t : Table} (h : tableOf? name? statement = some t) : t.fields ≠ [] := by
  obtain ⟨-, body, -, -, hf, rfl⟩ := tableOf?_eq_some_iff.mp h
  exact hf

theorem fields_ne_nil_of_tableOfStatement? {statement : Sql.Statement} {t : Table}
    (h : tableOfStatement? statement = some t) : t.fields ≠ [] := by
  cases statement with
  | other => simp [tableOfStatement?] at h
  | createTable definition =>
    rw [tableOfStatement?] at h
    split at h
    · simp at h
    · next hf =>
      obtain rfl := Option.some.inj h
      exact hf

end TableLoader.Dump

namespace TableLoader.Importer

/-- Whatever strategy finds a table, and whatever statements the grammar reads, the table has a field. -/
theorem fields_ne_nil_of_mem_tablesBy {i : Importer} {dump : String} {s : Strategy} {t : Table}
    (h : t ∈ i.tablesBy dump s) : t.fields ≠ [] := by
  cases s with
  | grammar =>
    obtain ⟨fragment, -, ht⟩ := List.mem_flatMap.mp h
    obtain ⟨statement, -, hs⟩ := List.mem_filterMap.mp ht
    exact Dump.fields_ne_nil_of_tableOfStatement? hs
  | postgres =>
    obtain ⟨fragment, -, ht⟩ := List.mem_filterMap.mp h
    exact Dump.fields_ne_nil_of_tableOf? ht
  | mysql =>
    obtain ⟨fragment, -, ht⟩ := List.mem_filterMap.mp h
    exact Dump.fields_ne_nil_of_tableOf? ht

/-- An import is what the first of some strategies finds that finds anything. -/
structure FoundFirst (tablesOf : Strategy → List Table) (order : List Strategy) (found : Import) :
    Prop where
  own : found.tables = tablesOf found.strategy
  nonempty : found.tables ≠ []
  first : ∃ before after, order = before ++ found.strategy :: after ∧
    ∀ s ∈ before, tablesOf s = []

theorem firstFound?_eq_none_iff {tablesOf : Strategy → List Table} {order : List Strategy} :
    firstFound? tablesOf order = none ↔ ∀ s ∈ order, tablesOf s = [] := by
  induction order with
  | nil => simp [firstFound?]
  | cons s order ih =>
    rw [firstFound?, List.forall_mem_cons]
    by_cases h : tablesOf s = []
    · rw [if_pos h, ih]
      simp [h]
    · rw [if_neg h]
      simp [h]

theorem foundFirst_cons {tablesOf : Strategy → List Table} {s : Strategy} {order : List Strategy}
    (h : tablesOf s = []) {found : Import} :
    FoundFirst tablesOf (s :: order) found ↔ FoundFirst tablesOf order found := by
  constructor
  · rintro ⟨own, nonempty, before, after, he, hb⟩
    cases before with
    | nil =>
      obtain ⟨rfl, -⟩ := List.cons.inj he
      exact absurd (own.trans h) nonempty
    | cons b before =>
      obtain ⟨-, rfl⟩ := List.cons.inj he
      exact ⟨own, nonempty, before, after, rfl, fun s hs => hb s (List.mem_cons_of_mem b hs)⟩
  · rintro ⟨own, nonempty, before, after, rfl, hb⟩
    exact ⟨own, nonempty, s :: before, after, rfl, List.forall_mem_cons.mpr ⟨h, hb⟩⟩

theorem firstFound?_eq_some_iff {tablesOf : Strategy → List Table} {order : List Strategy}
    {found : Import} :
    firstFound? tablesOf order = some found ↔ FoundFirst tablesOf order found := by
  induction order with
  | nil =>
    constructor
    · intro h
      simp [firstFound?] at h
    · rintro ⟨-, -, before, after, he, -⟩
      simp at he
  | cons s order ih =>
    rw [firstFound?]
    by_cases h : tablesOf s = []
    · rw [if_pos h, ih, foundFirst_cons h]
    · rw [if_neg h, Option.some.injEq]
      constructor
      · rintro rfl
        exact ⟨rfl, h, [], order, rfl, by simp⟩
      · rintro ⟨own, -, before, after, he, hb⟩
        cases before with
        | nil =>
          obtain ⟨rfl, -⟩ := List.cons.inj he
          rw [← own]
        | cons b before =>
          obtain ⟨rfl, -⟩ := List.cons.inj he
          exact absurd (hb s List.mem_cons_self) h

structure Readable (i : Importer) (dump : String) : Prop where
  nonempty : dump.utf8ByteSize ≠ 0
  bounded : dump.utf8ByteSize ≤ i.maxInputSize

/-- The outcomes of an import, one rule for each. -/
inductive Outcome (i : Importer) (dump : String) : Except ImportFault Import → Prop where
  | emptyInput : dump.utf8ByteSize = 0 → Outcome i dump (.error .emptyInput)
  | inputTooLarge : dump.utf8ByteSize ≠ 0 → i.maxInputSize < dump.utf8ByteSize →
      Outcome i dump (.error (.inputTooLarge dump.utf8ByteSize i.maxInputSize))
  | noTablesFound : Readable i dump → (∀ s ∈ Strategy.order, i.tablesBy dump s = []) →
      Outcome i dump (.error .noTablesFound)
  | found (found) : Readable i dump → FoundFirst (i.tablesBy dump) Strategy.order found →
      Outcome i dump (.ok found)

theorem outcome_run (i : Importer) (dump : String) : Outcome i dump (i.run dump) := by
  unfold run
  split
  · next h =>
    subst h
    exact .emptyInput rfl
  · next h =>
    have hne : dump.utf8ByteSize ≠ 0 := by simpa using h
    split
    · next hl => exact .inputTooLarge hne hl
    · next hl =>
      have hr : Readable i dump := ⟨hne, not_lt.mp hl⟩
      cases hf : i.find? dump with
      | some found => exact .found found hr (firstFound?_eq_some_iff.mp hf)
      | none => exact .noTablesFound hr (firstFound?_eq_none_iff.mp hf)

/-- Each outcome arises exactly where its reason is the first to hold. -/
structure FirstOutcome (i : Importer) (dump : String) (outcome : Except ImportFault Import) :
    Prop where
  emptyInput : outcome = .error .emptyInput ↔ dump.utf8ByteSize = 0
  inputTooLarge : ∀ size max, outcome = .error (.inputTooLarge size max) ↔
    dump.utf8ByteSize ≠ 0 ∧ i.maxInputSize < dump.utf8ByteSize ∧
      size = dump.utf8ByteSize ∧ max = i.maxInputSize
  noTablesFound : outcome = .error .noTablesFound ↔
    Readable i dump ∧ i.tablesBy dump .grammar = [] ∧ i.tablesBy dump .postgres = [] ∧
      i.tablesBy dump .mysql = []
  found : ∀ found, outcome = .ok found ↔
    Readable i dump ∧ FoundFirst (i.tablesBy dump) [.grammar, .postgres, .mysql] found
  fields : ∀ found, outcome = .ok found → ∀ t ∈ found.tables, t.fields ≠ []

theorem FoundFirst.unique {tablesOf : Strategy → List Table} {order : List Strategy}
    {found other : Import} (h : FoundFirst tablesOf order found)
    (h' : FoundFirst tablesOf order other) : found = other :=
  Option.some.inj ((firstFound?_eq_some_iff.mpr h).symm.trans (firstFound?_eq_some_iff.mpr h'))

theorem FoundFirst.not_all_nil {tablesOf : Strategy → List Table} {order : List Strategy}
    {found : Import} (h : FoundFirst tablesOf order found) : ¬ ∀ s ∈ order, tablesOf s = [] := by
  obtain ⟨own, nonempty, before, after, rfl, -⟩ := h
  intro hall
  exact nonempty (own.trans (hall found.strategy (by simp)))

theorem forall_mem_order {p : Strategy → Prop} :
    (∀ s ∈ Strategy.order, p s) ↔ p .grammar ∧ p .postgres ∧ p .mysql := by
  simp [Strategy.order]

theorem Outcome.firstOutcome {i : Importer} {dump : String} {outcome : Except ImportFault Import}
    (h : Outcome i dump outcome) : FirstOutcome i dump outcome := by
  cases h with
  | emptyInput he =>
    have hr : ¬ Readable i dump := fun hr => hr.nonempty he
    constructor <;> simp [he, hr]
  | inputTooLarge hne hl =>
    have hr : ¬ Readable i dump := fun hr => absurd hr.bounded (not_le.mpr hl)
    constructor
    · simp [hne]
    · intro size max
      constructor
      · intro he
        obtain ⟨rfl, rfl⟩ := ImportFault.inputTooLarge.inj (Except.error.inj he)
        exact ⟨hne, hl, rfl, rfl⟩
      · rintro ⟨-, -, rfl, rfl⟩
        rfl
    · simp [hr]
    · simp [hr]
    · simp
  | noTablesFound hr hnone =>
    have hnot : ∀ found, ¬ FoundFirst (i.tablesBy dump) Strategy.order found :=
      fun found hf => hf.not_all_nil hnone
    have hall := forall_mem_order.mp hnone
    constructor
    · simp [hr.nonempty]
    · simp [not_lt.mpr hr.bounded]
    · exact iff_of_true rfl ⟨hr, hall⟩
    · exact fun found => iff_of_false (by simp) fun hf => hnot found hf.2
    · simp
  | found found hr hf =>
    have hnot := fun hall => hf.not_all_nil (forall_mem_order.mpr hall)
    constructor
    · simp [hr.nonempty]
    · simp [not_lt.mpr hr.bounded]
    · exact iff_of_false (by simp) fun hn => hnot hn.2
    · intro other
      constructor
      · intro he
        obtain rfl := Except.ok.inj he
        exact ⟨hr, hf⟩
      · rintro ⟨-, ho⟩
        rw [hf.unique ho]
    · intro other he t ht
      obtain rfl := Except.ok.inj he
      rw [hf.own] at ht
      exact fields_ne_nil_of_mem_tablesBy ht

/-- What the other two ways to read a dump answer, given the outcome of its import: the tables alone, whatever
the size of the dump, and the schema that a user is shown. -/
structure Follows (i : Importer) (dump : String) (outcome : Except ImportFault Import) : Prop where
  tables : ∀ found, outcome = .ok found → i.tables dump = found.tables
  noTables : outcome = .error .noTablesFound → i.tables dump = []
  unlimited : ∀ limit, ({ i with maxInputSize := limit } : Importer).tables dump = i.tables dump
  schema : ∀ schema, Schema.ofDump i dump = .ok schema ↔
    ∃ found, outcome = .ok found ∧ schema.tables = found.tables
  failure : ∀ failure, Schema.ofDump i dump = .error failure ↔
    (outcome = .error .emptyInput ∧ failure = .emptyFile) ∨
    (∃ size max, outcome = .error (.inputTooLarge size max) ∧ failure = .fileTooLarge size max) ∨
    (outcome = .error .noTablesFound ∧ failure = .noTablesFound)

theorem find?_eq_some_of_run {i : Importer} {dump : String} {found : Import}
    (h : i.run dump = .ok found) : i.find? dump = some found :=
  firstFound?_eq_some_iff.mpr ((outcome_run i dump).firstOutcome.found found |>.mp h).2

theorem find?_eq_none_of_run {i : Importer} {dump : String} (h : i.run dump = .error .noTablesFound) :
    i.find? dump = none :=
  firstFound?_eq_none_iff.mpr
    (forall_mem_order.mpr ((outcome_run i dump).firstOutcome.noTablesFound.mp h).2)

theorem follows_run (i : Importer) (dump : String) : Follows i dump (i.run dump) := by
  constructor
  · intro found h
    rw [tables, find?_eq_some_of_run h]
  · intro h
    rw [tables, find?_eq_none_of_run h]
  · intro limit
    have hby : ({ i with maxInputSize := limit } : Importer).tablesBy dump = i.tablesBy dump := by
      funext s
      cases s <;> rfl
    rw [tables, tables, find?, find?, hby]
  · intro schema
    unfold Schema.ofDump
    cases i.run dump with
    | ok found =>
      cases schema
      simp [eq_comm]
    | error fault => simp
  · intro failure
    unfold Schema.ofDump
    cases i.run dump with
    | ok found => simp
    | error fault => cases fault <;> simp [Failure.ofImportFault, eq_comm]

/-- An import ends by the first reason that holds, or with the tables of the first strategy that finds any. The
tables alone and the schema follow from it. -/
theorem run_firstOutcome (i : Importer) (dump : String) :
    FirstOutcome i dump (i.run dump) ∧ Follows i dump (i.run dump) :=
  ⟨(outcome_run i dump).firstOutcome, follows_run i dump⟩

end TableLoader.Importer
