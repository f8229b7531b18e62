import TableLoader.Proofs.Request.Alignment
import TableLoader.Proofs.Request.Answers

/-! # Batches of rows

Rows may be sent in one request or in two. The faults of the second batch are found as many rows further down as
the first one has, both batches get a statement exactly when their union gets one, and its tuples are theirs. -/
namespace TableLoader

/-- The fault as it is found with `k` more rows in front. -/
def RowFault.later (k : Nat) (fault : RowFault) : RowFault := { fault with row := fault.row + k }

theorem checkRow_add (number k : Nat) (row : Row) (fields : List Field) :
    checkRow (number + k) row fields = (checkRow number row fields).map (RowFault.later k) := by
  simp only [checkRow, List.map_filterMap, Option.map_map]
  rfl

theorem checkRowsFrom_add (fields : List Field) (number k : Nat) (rows : List Row) :
    checkRowsFrom fields (number + k) rows =
      (checkRowsFrom fields number rows).map (RowFault.later k) := by
  induction rows generalizing number with
  | nil => rfl
  | cons row rows ih =>
    rw [checkRowsFrom, checkRowsFrom, checkRow_add, List.map_append, ← ih, Nat.add_right_comm]

theorem checkRowsFrom_append (fields : List Field) (number : Nat) (a b : List Row) :
    checkRowsFrom fields number (a ++ b) =
      checkRowsFrom fields number a ++ checkRowsFrom fields (number + a.length) b := by
  induction a generalizing number with
  | nil => rfl
  | cons row a ih =>
    rw [List.cons_append, checkRowsFrom, checkRowsFrom, ih, List.append_assoc, List.length_cons,
      Nat.add_assoc, Nat.add_comm 1]

theorem checkRows_append (a b : List Row) (fields : List Field) :
    checkRows (a ++ b) fields =
      checkRows a fields ++ (checkRows b fields).map (RowFault.later a.length) := by
  rw [checkRows, checkRowsFrom_append, checkRowsFrom_add]
  rfl

theorem Insert.intercalate_append {sep : List Char} {a b : List (List Char)} (ha : a ≠ [])
    (hb : b ≠ []) : sep.intercalate (a ++ b) = sep.intercalate a ++ sep ++ sep.intercalate b := by
  induction a with
  | nil => exact absurd rfl ha
  | cons first a ih =>
    by_cases h : a = []
    · subst h
      rw [List.singleton_append, List.intercalate_cons_of_ne_nil hb, List.intercalate_singleton]
    · rw [List.cons_append, List.intercalate_cons_of_ne_nil (by simp [h]), ih h,
        List.intercalate_cons_of_ne_nil h]
      simp only [List.append_assoc]

namespace Request

def withRows (r : Request) (rows : List Row) : Request := { r with rows := rows }

def head (s : Settings) (r : Request) : String :=
  String.ofList (Insert.header s.identifierQuote r.table
    ((Insert.columns r.fields r.mapping).map Field.name)) ++ "\n"

def tuples (r : Request) (rows : List Row) : String :=
  String.ofList ([',', '\n'].intercalate (rows.map fun row =>
    Insert.tuple (Insert.rowLiterals ((Insert.columns r.fields r.mapping).map Field.sqlType) row)))

theorem tuples_append (r : Request) {a b : List Row} (ha : a ≠ []) (hb : b ≠ []) :
    r.tuples (a ++ b) = r.tuples a ++ ",\n" ++ r.tuples b := by
  have h : String.ofList [',', '\n'] = ",\n" := rfl
  rw [tuples, List.map_append, Insert.intercalate_append (by simp [ha]) (by simp [hb]),
    String.ofList_append, String.ofList_append, h]
  rfl

section Rows

variable {s : Settings} {r : Request} {rows : List Row}

theorem generate_withRows_eq_ok {sql : String} (h : (r.withRows rows).generate s = .ok sql) :
    sql = r.head s ++ r.tuples rows ++ ";" := by
  obtain ⟨-, -, -, hb⟩ := generate_eq_ok_iff.mp h
  obtain ⟨-, -, rfl⟩ := Insert.build_eq_ok_iff.mp hb
  apply String.toList_injective
  simp [Insert.statement, head, tuples, withRows]

theorem complete_withRows_iff (hr : rows ≠ []) :
    Complete (r.withRows rows) ↔ r.table ≠ "" ∧ r.mapping.entries ≠ [] := by
  constructor
  · intro h
    exact ⟨h.table, h.mapping⟩
  · rintro ⟨ht, hm⟩
    exact ⟨ht, hm, hr⟩

theorem generate_of_refused (hc : Complete r) (hv : Refused s r) :
    r.generate s = .error (.validationFailed r.faults) := by
  have h := answers_generate s r
  obtain ⟨faults, hf⟩ := h.firstReason.validationFailed.mpr ⟨hc, hv⟩
  rw [hf] at h ⊢
  cases h
  rfl

theorem faults_withRows_append (r : Request) (a b : List Row) :
    (r.withRows (a ++ b)).faults =
      (r.withRows a).faults ++ (r.withRows b).faults.map (RowFault.later a.length) :=
  checkRows_append a b r.fields

theorem refused_withRows_append {a b : List Row} :
    Refused s (r.withRows (a ++ b)) ↔ Refused s (r.withRows a) ∨ Refused s (r.withRows b) := by
  simp only [Refused, valid_eq_false_iff, faults_withRows_append, ne_eq, List.append_eq_nil_iff,
    List.map_eq_nil_iff, ← and_or_left, not_and_or]

end Rows

/-- How the answer for two batches together follows from the answers for each. -/
structure Batched (s : Settings) (r : Request) (a b : List Row) : Prop where
  faults : checkRows (a ++ b) r.fields =
    checkRows a r.fields ++ (checkRows b r.fields).map (RowFault.later a.length)
  written : (∃ sql, (r.withRows (a ++ b)).generate s = .ok sql) ↔
    (∃ sql, (r.withRows a).generate s = .ok sql) ∧ ∃ sql, (r.withRows b).generate s = .ok sql
  statement : ∀ first second, (r.withRows a).generate s = .ok first →
    (r.withRows b).generate s = .ok second →
    ∃ tuples₁ tuples₂, first = r.head s ++ tuples₁ ++ ";" ∧ second = r.head s ++ tuples₂ ++ ";" ∧
      (r.withRows (a ++ b)).generate s = .ok (r.head s ++ tuples₁ ++ ",\n" ++ tuples₂ ++ ";")
  refused : ∀ faults, (r.withRows a).generate s = .error (.validationFailed faults) ∨
      (r.withRows b).generate s = .error (.validationFailed faults) →
    (r.withRows (a ++ b)).generate s = .error (.validationFailed
      (checkRows a r.fields ++ (checkRows b r.fields).map (RowFault.later a.length)))
  otherwise : ∀ failure, (∀ faults, failure ≠ .validationFailed faults) →
    (r.withRows a).generate s = .error failure → (r.withRows b).generate s = .error failure →
    (r.withRows (a ++ b)).generate s = .error failure

theorem written_append {s : Settings} {r : Request} {a b : List Row} (ha : a ≠ []) (hb : b ≠ []) :
    (∃ sql, (r.withRows (a ++ b)).generate s = .ok sql) ↔
      (∃ sql, (r.withRows a).generate s = .ok sql) ∧ ∃ sql, (r.withRows b).generate s = .ok sql := by
  have hab : a ++ b ≠ [] := by simp [ha]
  have hf : ∀ rows, Targeted (r.withRows rows) ↔ Targeted r := fun _ => Iff.rfl
  have hw : ∀ rows, rows ≠ [] → ((∃ sql, (r.withRows rows).generate s = .ok sql) ↔
      (r.table ≠ "" ∧ r.mapping.entries ≠ []) ∧ ¬ Refused s (r.withRows rows) ∧ Targeted r) := by
    intro rows hr
    rw [(generate_firstReason s (r.withRows rows)).1.written, complete_withRows_iff hr, hf]
  rw [hw _ hab, hw _ ha, hw _ hb, refused_withRows_append]
  tauto

theorem refused_append {s : Settings} {r : Request} {a b : List Row} (ha : a ≠ []) (hb : b ≠ [])
    {faults : List RowFault}
    (h : (r.withRows a).generate s = .error (.validationFailed faults) ∨
      (r.withRows b).generate s = .error (.validationFailed faults)) :
    (r.withRows (a ++ b)).generate s = .error (.validationFailed (r.withRows (a ++ b)).faults) := by
  have hv : ∀ rows, rows ≠ [] →
      (r.withRows rows).generate s = .error (.validationFailed faults) →
      (r.table ≠ "" ∧ r.mapping.entries ≠ []) ∧ Refused s (r.withRows rows) := by
    intro rows hr he
    obtain ⟨hc, hv⟩ :=
      (generate_firstReason s (r.withRows rows)).1.validationFailed.mp ⟨faults, he⟩
    exact ⟨(complete_withRows_iff hr).mp hc, hv⟩
  have hab : a ++ b ≠ [] := by simp [ha]
  rcases h with h | h
  · obtain ⟨hc, hv⟩ := hv a ha h
    exact generate_of_refused ((complete_withRows_iff hab).mpr hc)
      (refused_withRows_append.mpr (Or.inl hv))
  · obtain ⟨hc, hv⟩ := hv b hb h
    exact generate_of_refused ((complete_withRows_iff hab).mpr hc)
      (refused_withRows_append.mpr (Or.inr hv))

/-- Whatever else is against a request is not up to its rows. -/
theorem failure_append {s : Settings} {r : Request} {a b : List Row} (ha : a ≠ []) {failure : Failure}
    (hne : ∀ faults, failure ≠ .validationFailed faults)
    (h₁ : (r.withRows a).generate s = .error failure)
    (h₂ : (r.withRows b).generate s = .error failure) :
    (r.withRows (a ++ b)).generate s = .error failure := by
  have hab := (generate_firstReason s (r.withRows (a ++ b))).1
  have h := answers_generate s (r.withRows a)
  rw [h₁] at h
  -- What stops the first batch before its rows are looked at stops both; and where no column is
  -- targeted, the second batch has no faults either, for these would have stopped it first.
  cases h with
  | missingTableName ht => exact hab.missingTableName.mpr ht
  | missingMapping ht hm => exact hab.missingMapping.mpr ⟨ht, hm⟩
  | missingData ht hm hr => exact absurd hr ha
  | validationFailed hc hv => exact absurd rfl (hne _)
  | generationFailed hc hv hf =>
    obtain ⟨-, hv₂, -⟩ := (generate_firstReason s (r.withRows b)).1.generationFailed.mp h₂
    refine hab.generationFailed.mpr ⟨⟨hc.table, hc.mapping, ?_⟩, ?_, hf⟩
    · exact List.append_ne_nil_of_left_ne_nil ha b
    · rw [refused_withRows_append]
      exact not_or.mpr ⟨hv, hv₂⟩

/-- Rows that are split in two batches have the same faults, and the same answer but for what a batch has of its
own: its first line, its semicolon and its numbering of rows. -/
theorem generate_batched (s : Settings) (r : Request) {a b : List Row} (ha : a ≠ []) (hb : b ≠ []) :
    Batched s r a b := by
  constructor
  · exact checkRows_append a b r.fields
  · exact written_append ha hb
  · intro first second h₁ h₂
    refine ⟨_, _, generate_withRows_eq_ok h₁, generate_withRows_eq_ok h₂, ?_⟩
    obtain ⟨sql, h⟩ := (written_append ha hb).mpr ⟨⟨first, h₁⟩, second, h₂⟩
    rw [h, generate_withRows_eq_ok h, tuples_append r ha hb]
    simp only [String.append_assoc]
  · intro faults h
    rw [refused_append ha hb h, faults_withRows_append]
    rfl
  · exact fun failure hne => failure_append ha hne

def peopleRequest : Request where
  table := "people"
  mapping := ⟨[("A", "id"), ("B", "name")], by decide⟩
  rows := []
  fields := [⟨"id", "TINYINT", false⟩, ⟨"name", "VARCHAR(3)", true⟩]

theorem batched_peopleRequest :
    let good : List Row := [[.text "1", .text "Ada"], [.text "2"]]
    let bad : List Row := [[.text "3", .text "Bob"], [.null, .text "Zo\u00EB's"]]
    (good ≠ [] ∧ bad ≠ []) ∧
      (∃ sql, (peopleRequest.withRows (good ++ good)).generate {} = .ok sql) ∧
      (peopleRequest.withRows (good ++ bad)).generate {} = .error (.validationFailed
        [⟨4, "id", .nullNotAllowed⟩, ⟨4, "name", .tooLong 5 3 "VARCHAR(3)"⟩]) := by
  intro good bad
  have hg : good ≠ [] := by simp [good]
  have hb : bad ≠ [] := by simp [bad]
  have hgood : (peopleRequest.withRows good).generate {} = .ok (
      "INSERT INTO \x60people\x60 (\x60id\x60, \x60name\x60) VALUES\n(1, 'Ada'),\n(2, NULL);") := by
    decide +kernel
  have hbad : (peopleRequest.withRows bad).generate {} = .error (.validationFailed
      [⟨2, "id", .nullNotAllowed⟩, ⟨2, "name", .tooLong 5 3 "VARCHAR(3)"⟩]) := by decide +kernel
  refine ⟨⟨hg, hb⟩, ?_, ?_⟩
  · exact (generate_batched {} peopleRequest hg hg).written.mpr ⟨⟨_, hgood⟩, _, hgood⟩
  · rw [(generate_batched {} peopleRequest hg hb).refused _ (Or.inr hbad)]
    decide +kernel

end Request

end TableLoader
