import TableLoader.Proofs.Insert.Assembly
import TableLoader.Service

/-! # The answer to a request

A request is refused for the first of five reasons that holds, and is answered with its statement when none
does. The check alone and the check on the way to a statement find the same faults and word them the same way. -/
namespace TableLoader.Insert

theorem columns_ne_nil_iff {fields : List Field} {mapping : Mapping} :
    columns fields mapping ≠ [] ↔ ∃ f ∈ fields, mapping.hasTarget f.name = true := by
  simp [columns, List.filter_eq_nil_iff]

theorem build_eq_error (quote : IdentifierQuote) (table : String) (rows : List Row)
    {mapping : Mapping} {fields : List Field} (h : ¬ ∃ f ∈ fields, mapping.hasTarget f.name = true) :
    ∃ fault, build quote table mapping fields rows = .error fault := by
  cases hb : build quote table mapping fields rows with
  | ok sql => exact absurd (columns_ne_nil_iff.mp (build_eq_ok_iff.mp hb).2.1) h
  | error fault => exact ⟨fault, rfl⟩

theorem intoMark_prefix (quote : IdentifierQuote) (table : String) (cols : List Field)
    (rows : List Row) : intoMark <+: statement quote table cols rows := by
  rw [statement_eq]
  exact List.prefix_append _ _

end TableLoader.Insert

namespace TableLoader.Mapping

theorem hasTarget_iff {m : Mapping} {name : String} :
    m.hasTarget name = true ↔ name ≠ "" ∧ name ∈ m.targets := by
  simp only [hasTarget, List.any_eq_true, Bool.and_eq_true, bne_iff_ne, beq_iff_eq]
  constructor
  · rintro ⟨target, hm, hne, rfl⟩
    exact ⟨hne, hm⟩
  · intro h
    exact ⟨name, h.2, h.1, rfl⟩

end TableLoader.Mapping

namespace TableLoader.Request

structure Complete (r : Request) : Prop where
  table : r.table ≠ ""
  mapping : r.mapping.entries ≠ []
  rows : r.rows ≠ []

/-- The check is on and finds a fault. -/
def Refused (s : Settings) (r : Request) : Prop :=
  s.validateBeforeGenerate = true ∧ r.verdict.valid = false

def Targeted (r : Request) : Prop := ∃ f ∈ r.fields, f.name ≠ "" ∧ f.name ∈ r.mapping.targets

/-- The answers to a request, one rule for each. A rule for a later reason asks that no earlier one holds. -/
inductive Answers (s : Settings) (r : Request) : Except Failure String → Prop where
  | missingTableName : r.table = "" → Answers s r (.error .missingTableName)
  | missingMapping : r.table ≠ "" → r.mapping.entries = [] → Answers s r (.error .missingMapping)
  | missingData : r.table ≠ "" → r.mapping.entries ≠ [] → r.rows = [] →
      Answers s r (.error .missingData)
  | validationFailed : Complete r → Refused s r → Answers s r (.error (.validationFailed r.faults))
  | generationFailed : Complete r → ¬ Refused s r → ¬ Targeted r →
      Answers s r (.error .generationFailed)
  | statement (sql) : Complete r → ¬ Refused s r → Targeted r →
      Insert.build s.identifierQuote r.table r.mapping r.fields r.rows = .ok sql →
      Answers s r (.ok sql)

theorem valid_eq_false_iff {r : Request} : r.verdict.valid = false ↔ r.faults ≠ [] := by
  simp [verdict, Verdict.valid]

theorem faults_of_fields_eq_nil {r : Request} (h : r.fields = []) : r.faults = [] := by
  rw [faults, checkRows, h]
  generalize 1 = number
  induction r.rows generalizing number with
  | nil => rfl
  | cons row rows ih => simp [checkRowsFrom, checkRow, ih]

theorem refused_iff {s : Settings} {r : Request} :
    Refused s r ↔ s.validateBeforeGenerate = true ∧ r.fields ≠ [] ∧ r.faults ≠ [] := by
  rw [Refused, valid_eq_false_iff]
  constructor
  · rintro ⟨hs, hf⟩
    exact ⟨hs, fun h => hf (faults_of_fields_eq_nil h), hf⟩
  · rintro ⟨hs, -, hf⟩
    exact ⟨hs, hf⟩

theorem targeted_iff {r : Request} :
    Targeted r ↔ ∃ f ∈ r.fields, r.mapping.hasTarget f.name = true := by
  simp only [Targeted, Mapping.hasTarget_iff]

theorem answers_generate (s : Settings) (r : Request) : Answers s r (r.generate s) := by
  unfold generate
  split
  · next ht => exact .missingTableName ht
  · next ht =>
    split
    · next hm => exact .missingMapping ht (List.isEmpty_iff.mp hm)
    · next hm =>
      have hm : r.mapping.entries ≠ [] := fun h => hm (List.isEmpty_iff.mpr h)
      split
      · next hr => exact .missingData ht hm hr
      · next hr =>
        have hc : Complete r := ⟨ht, hm, hr⟩
        split
        · next hv => exact .validationFailed hc (refused_iff.mpr hv)
        · next hv =>
          have hv : ¬ Refused s r := fun h => hv (refused_iff.mp h)
          by_cases hf : Targeted r
          · have hcols := Insert.columns_ne_nil_iff.mpr (targeted_iff.mp hf)
            have hb : Insert.build s.identifierQuote r.table r.mapping r.fields r.rows = .ok _ :=
              Insert.build_eq_ok_iff.mpr ⟨hr, hcols, rfl⟩
            rw [hb]
            exact .statement _ hc hv hf hb
          · obtain ⟨fault, hb⟩ := Insert.build_eq_error s.identifierQuote r.table r.rows
              fun h => hf (targeted_iff.mpr h)
            rw [hb]
            exact .generationFailed hc hv hf

/-- Each answer is given exactly where its reason is the first to hold, and a statement where none holds. What
a refusal reports is what the check alone finds. -/
structure FirstReason (s : Settings) (r : Request) (answer : Except Failure String) : Prop where
  missingTableName : answer = .error .missingTableName ↔ r.table = ""
  missingMapping : answer = .error .missingMapping ↔ r.table ≠ "" ∧ r.mapping.entries = []
  missingData : answer = .error .missingData ↔
    r.table ≠ "" ∧ r.mapping.entries ≠ [] ∧ r.rows = []
  validationFailed : (∃ faults, answer = .error (.validationFailed faults)) ↔
    Complete r ∧ Refused s r
  reported : ∀ faults, answer = .error (.validationFailed faults) →
    (Failure.validationFailed faults).report.errors = r.verdict.errors ∧ r.verdict.errors ≠ []
  generationFailed : answer = .error .generationFailed ↔ Complete r ∧ ¬ Refused s r ∧ ¬ Targeted r
  written : (∃ sql, answer = .ok sql) ↔ Complete r ∧ ¬ Refused s r ∧ Targeted r
  statement : ∀ sql, answer = .ok sql →
    Insert.build s.identifierQuote r.table r.mapping r.fields r.rows = .ok sql ∧
      r.insertStatement s = sql ∧ "INSERT INTO ".toList <+: sql.toList

theorem insertStatement_of_build {s : Settings} {r : Request} {sql : String}
    (h : Insert.build s.identifierQuote r.table r.mapping r.fields r.rows = .ok sql) :
    r.insertStatement s = sql ∧ "INSERT INTO ".toList <+: sql.toList := by
  constructor
  · rw [insertStatement, Insert.buildOrEmpty, h]
  · obtain ⟨-, -, rfl⟩ := Insert.build_eq_ok_iff.mp h
    change Insert.intoMark <+: _
    rw [String.toList_ofList]
    exact Insert.intoMark_prefix ..

theorem errors_of_refused {s : Settings} {r : Request} (h : Refused s r) :
    (Failure.validationFailed r.faults).report.errors = r.verdict.errors ∧
      r.verdict.errors ≠ [] := by
  constructor
  · rfl
  · simpa [verdict] using valid_eq_false_iff.mp h.2

theorem Answers.firstReason {s : Settings} {r : Request} {answer : Except Failure String}
    (h : Answers s r answer) : FirstReason s r answer := by
  cases h with
  | missingTableName ht =>
    have hc : ¬ Complete r := fun hc => hc.table ht
    constructor <;> simp [ht, hc]
  | missingMapping ht hm =>
    have hc : ¬ Complete r := fun hc => hc.mapping hm
    constructor <;> simp [ht, hm, hc]
  | missingData ht hm hr =>
    have hc : ¬ Complete r := fun hc => hc.rows hr
    constructor <;> simp [ht, hm, hr, hc]
  | validationFailed hc hv =>
    have he := errors_of_refused hv
    constructor <;> simp_all [hc.table, hc.mapping, hc.rows]
  | generationFailed hc hv hf =>
    constructor <;> simp [hc, hv, hf, hc.table, hc.mapping, hc.rows]
  | statement sql hc hv hf hb =>
    have hi := insertStatement_of_build hb
    constructor <;> simp_all [hc.table, hc.mapping, hc.rows]

/-- A request is refused for the first reason that holds, with the faults that the check alone finds, and is
answered with its statement when none holds. Without fields there is nothing to check. -/
theorem generate_firstReason (s : Settings) (r : Request) :
    FirstReason s r (r.generate s) ∧
      (r.fields = [] →
        r.verdict.valid = true ∧ ∀ faults, r.generate s ≠ .error (.validationFailed faults)) := by
  have h := (answers_generate s r).firstReason
  refine ⟨h, fun hf => ?_⟩
  have hv : r.verdict.valid = true := by simp [verdict, Verdict.valid, faults_of_fields_eq_nil hf]
  refine ⟨hv, fun faults he => ?_⟩
  obtain ⟨-, -, hn⟩ := h.validationFailed.mp ⟨faults, he⟩
  rw [hv] at hn
  exact Bool.noConfusion hn

def fieldlessRequest : Request where
  table := "t"
  mapping := ⟨[("A", "a")], by decide⟩
  rows := [[.null]]
  fields := []

def faultyRequest : Request where
  table := "t"
  mapping := ⟨[("A", "a"), ("B", "")], by decide⟩
  rows := [[.text " ", .text "x"]]
  fields := [⟨"a", "INT", false⟩, ⟨"b", "INT", true⟩]

theorem firstReason_fieldless_faulty :
    (fieldlessRequest.fields = [] ∧ fieldlessRequest.verdict.valid = true ∧
      (∀ faults, fieldlessRequest.generate {} ≠ .error (.validationFailed faults)) ∧
      fieldlessRequest.generate {} = .error .generationFailed) ∧
    ∃ faults, faultyRequest.generate {} = .error (.validationFailed faults) ∧
      (Failure.validationFailed faults).report.errors = ["Row 1: Field 'a' cannot be NULL",
        "Row 1, Field 'b': expected numeric value, got 'x'"] := by
  obtain ⟨hfirst, hnone⟩ := generate_firstReason {} fieldlessRequest
  obtain ⟨hvalid, hno⟩ := hnone rfl
  refine ⟨⟨rfl, hvalid, hno, ?_⟩, ?_⟩
  · apply hfirst.generationFailed.mpr
    exact ⟨by constructor <;> decide, by simp [Refused, hvalid], by simp [Targeted, fieldlessRequest]⟩
  · have h := (generate_firstReason {} faultyRequest).1
    have hc : Complete faultyRequest := by constructor <;> decide
    have hv : Refused {} faultyRequest := ⟨rfl, by decide +kernel⟩
    obtain ⟨faults, hf⟩ := h.validationFailed.mpr ⟨hc, hv⟩
    refine ⟨faults, hf, ?_⟩
    rw [(h.reported faults hf).1]
    decide +kernel

end TableLoader.Request
