import TableLoader.Proofs.Request.Answers

/-! # The targets of a mapping

Of a mapping only the names matter that it targets and some field has. Two mappings that agree on these list the same
columns, and a request is answered alike under both: with the same statement, or refused for the same reason. -/
namespace TableLoader

/-- The names that some source of the mapping is written to. -/
def Mapping.named (m : Mapping) : Set String := {name | name ≠ "" ∧ name ∈ m.targets}

def fieldNames (fields : List Field) : Set String := {name | ∃ f ∈ fields, f.name = name}

/-- Two mappings that target the same of the fields' names. -/
def SameTargets (fields : List Field) (m m' : Mapping) : Prop :=
  m.named ∩ fieldNames fields = m'.named ∩ fieldNames fields

theorem Mapping.mem_named_iff {m : Mapping} {name : String} :
    name ∈ m.named ↔ m.hasTarget name = true := Mapping.hasTarget_iff.symm

theorem sameTargets_iff {fields : List Field} {m m' : Mapping} :
    SameTargets fields m m' ↔ ∀ f ∈ fields, m.hasTarget f.name = m'.hasTarget f.name := by
  constructor
  · intro h f hf
    have hname : f.name ∈ fieldNames fields := ⟨f, hf, rfl⟩
    rw [Bool.eq_iff_iff, ← Mapping.mem_named_iff, ← Mapping.mem_named_iff]
    constructor
    · intro hm
      exact (h.subset ⟨hm, hname⟩).1
    · intro hm
      exact (h.symm.subset ⟨hm, hname⟩).1
  · intro h
    ext name
    constructor
    · rintro ⟨hm, f, hf, rfl⟩
      rw [Mapping.mem_named_iff, h f hf] at hm
      exact ⟨Mapping.mem_named_iff.mpr hm, f, hf, rfl⟩
    · rintro ⟨hm, f, hf, rfl⟩
      rw [Mapping.mem_named_iff, ← h f hf] at hm
      exact ⟨Mapping.mem_named_iff.mpr hm, f, hf, rfl⟩

namespace Insert

theorem mem_columns_iff {fields : List Field} {m : Mapping} {f : Field} :
    f ∈ columns fields m ↔ f ∈ fields ∧ m.hasTarget f.name = true := List.mem_filter

theorem columns_eq_iff {fields : List Field} {m m' : Mapping} :
    columns fields m = columns fields m' ↔ SameTargets fields m m' := by
  rw [sameTargets_iff]
  constructor
  · intro h f hf
    have hmem : f ∈ columns fields m ↔ f ∈ columns fields m' := by rw [h]
    rw [mem_columns_iff, mem_columns_iff, and_iff_right hf, and_iff_right hf] at hmem
    exact Bool.eq_iff_iff.mpr hmem
  · intro h
    exact List.filter_congr h

/-- The columns of a mapping: fields in their order, each as often as it stands among them where its name is
targeted, and not at all elsewhere. -/
structure Lists (fields : List Field) (m : Mapping) (cols : List Field) : Prop where
  order : cols.Sublist fields
  targeted : ∀ f, f.name ∈ m.named → cols.count f = fields.count f
  untargeted : ∀ f, f.name ∉ m.named → f ∉ cols

theorem lists_columns (fields : List Field) (m : Mapping) : Lists fields m (columns fields m) := by
  constructor
  · exact List.filter_sublist
  · intro f hf
    exact List.count_filter (Mapping.mem_named_iff.mp hf)
  · intro f hf hmem
    exact hf (Mapping.mem_named_iff.mpr (mem_columns_iff.mp hmem).2)

theorem build_eq_of_sameTargets {fields : List Field} {m m' : Mapping} (h : SameTargets fields m m')
    (quote : IdentifierQuote) (table : String) (rows : List Row) :
    build quote table m fields rows = build quote table m' fields rows := by
  rw [build, build, columns_eq_iff.mpr h]

end Insert

namespace Request

theorem generate_eq_of_sameTargets {fields : List Field} {m m' : Mapping} (hm : m.isEmpty = m'.isEmpty)
    (h : SameTargets fields m m') (s : Settings) (table : String) (rows : List Row) :
    generate s ⟨table, m, rows, fields⟩ = generate s ⟨table, m', rows, fields⟩ := by
  have hfaults : faults ⟨table, m, rows, fields⟩ = faults ⟨table, m', rows, fields⟩ := rfl
  have hbuild := Insert.build_eq_of_sameTargets h s.identifierQuote table rows
  simp only [generate, hm, hfaults, hbuild]

/-- Mappings that are not empty list the same columns just where they target the same of the fields' names, and then
every request is answered alike under both. -/
theorem generate_targets {fields : List Field} {m m' : Mapping} (hm : m.entries ≠ []) (hm' : m'.entries ≠ []) :
    (Insert.columns fields m = Insert.columns fields m' ↔ SameTargets fields m m') ∧
    (SameTargets fields m m' → ∀ (table : String) (rows : List Row),
      (∀ s, generate s ⟨table, m, rows, fields⟩ = generate s ⟨table, m', rows, fields⟩) ∧
      ∀ quote, Insert.build quote table m fields rows = Insert.build quote table m' fields rows) ∧
    Insert.Lists fields m (Insert.columns fields m) := by
  refine ⟨Insert.columns_eq_iff, ?_, Insert.lists_columns fields m⟩
  intro h table rows
  have hempty : m.isEmpty = m'.isEmpty := by
    rw [Mapping.isEmpty, Mapping.isEmpty, List.isEmpty_eq_false_iff.mpr hm, List.isEmpty_eq_false_iff.mpr hm']
  constructor
  · intro s
    exact generate_eq_of_sameTargets hempty h s table rows
  · intro quote
    exact Insert.build_eq_of_sameTargets h quote table rows

/-- Other sources in another order, a target that is named twice, one without a name and one that no field has; two
fields of one name, and one that is left out. -/
theorem generate_targets_tidied :
    let fields : List Field :=
      [⟨"id", "INT", false⟩, ⟨"gap", "INT", true⟩, ⟨"name", "TEXT", true⟩, ⟨"id", "INT", false⟩]
    let tidy : Mapping := ⟨[("A", "id"), ("B", "name")], by decide⟩
    let untidy : Mapping :=
      ⟨[("p", "name"), ("q", ""), ("r", "id"), ("s", "id"), ("t", "gone")], by decide⟩
    let rows : List Row := [[.text "1", .text "Ada", .text "2"]]
    tidy.entries ≠ [] ∧ untidy.entries ≠ [] ∧ SameTargets fields tidy untidy ∧
      generate { validateBeforeGenerate := false } ⟨"t", tidy, rows, fields⟩ =
        .ok "INSERT INTO \x60t\x60 (\x60id\x60, \x60name\x60, \x60id\x60) VALUES\n(1, 'Ada', 2);" ∧
      generate { validateBeforeGenerate := false } ⟨"t", untidy, rows, fields⟩ =
        .ok "INSERT INTO \x60t\x60 (\x60id\x60, \x60name\x60, \x60id\x60) VALUES\n(1, 'Ada', 2);" := by
  intro fields tidy untidy rows
  have ht : tidy.entries ≠ [] := by decide
  have hu : untidy.entries ≠ [] := by decide
  have hcols : Insert.columns fields tidy = Insert.columns fields untidy := by decide +kernel
  have hsame := (generate_targets ht hu).1.mp hcols
  have hanswer : generate { validateBeforeGenerate := false } ⟨"t", tidy, rows, fields⟩ =
      .ok "INSERT INTO \x60t\x60 (\x60id\x60, \x60name\x60, \x60id\x60) VALUES\n(1, 'Ada', 2);" := by
    decide +kernel
  refine ⟨ht, hu, hsame, hanswer, ?_⟩
  rw [← ((generate_targets ht hu).2.1 hsame "t" rows).1]
  exact hanswer

end Request

end TableLoader
