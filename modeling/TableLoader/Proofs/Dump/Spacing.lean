import TableLoader.Proofs.Dump.TableConstraints

/-! # Blanks within a clause

A column takes its name and its type from the first two words of its clause, whatever blanks stand between them,
but the words of a constraint and of `NOT NULL` are known only with one space between them. So a clause keeps its
field, when one space replaces each run of blanks, unless longer gaps or other blanks hide those words. -/
namespace TableLoader.Dump

open Text (BlankClass)

/-- Where the words that begin a constraint stand a gap apart, they stand one space apart. -/
def KeepsStart (k : BlankClass) (clause : List Char) : Prop :=
  ∀ start ∈ spacedStarts, ∀ gap, k.IsGap gap →
    start.1.toList ++ (gap ++ start.2.toList) <+: Text.toUpper (Text.trim clause) →
      start.1.toList ++ ' ' :: start.2.toList <+: Text.toUpper (Text.trim clause)

/-- If a clause says `NOT NULL` with some gap, it says so with one space. -/
def KeepsNull (k : BlankClass) (clause : List Char) : Prop :=
  ∀ gap, k.IsGap gap → "NOT".toList ++ (gap ++ "NULL".toList) <:+: Text.toUpper (bare clause) →
    "NOT NULL".toList <:+: Text.toUpper (bare clause)

variable {k : BlankClass} {clause : List Char}

theorem dropComma_squeeze (cs : List Char) : dropComma (k.squeeze cs) = k.squeeze (dropComma cs) := by
  rcases List.eq_nil_or_concat cs with rfl | ⟨init, c, rfl⟩
  · rfl
  · rw [dropComma, dropComma, List.concat_eq_append, List.getLast?_concat]
    cases hc : k.has c with
    | true =>
      obtain ⟨more, hm⟩ := BlankClass.exists_squeeze_concat hc init
      have hcomma : some c ≠ some ',' := by
        rintro ⟨⟩
        exact absurd (k.blank ',' hc) (by decide)
      rw [if_neg hcomma, hm, List.getLast?_concat]
      exact if_neg (by decide)
    | false =>
      have hs : k.squeeze (init ++ [c]) = k.squeeze init ++ [c] := BlankClass.squeeze_append_cons hc init []
      rw [hs, List.getLast?_concat]
      split
      · rw [List.dropLast_concat, List.dropLast_concat]
      · exact hs.symm

theorem bare_squeeze (h : '\x60' ∉ clause) : bare (k.squeeze clause) = k.squeeze (bare clause) := by
  have hbare : '\x60' ∉ dropComma (Text.trim clause) := by
    intro hm
    exact h (Text.trim_subset clause (dropComma_subset _ hm))
  have hsqueezed : '\x60' ∉ k.squeeze (dropComma (Text.trim clause)) := by
    intro hm
    exact hbare ((BlankClass.mem_of_mem_squeeze hm).resolve_left (by decide))
  rw [bare, bare, BlankClass.trim_squeeze, dropComma_squeeze, filter_backtick hbare, filter_backtick hsqueezed]

section Constraint

/-- Squeezed, a clause is a constraint where the words of one begin it with any gap between them. -/
theorem isConstraint_squeeze_iff : isConstraint (k.squeeze clause) = true ↔
    (∃ start ∈ wholeStarts, start.toList <+: Text.toUpper (Text.trim clause)) ∨
      ∃ start ∈ spacedStarts, ∃ gap, k.IsGap gap ∧
        start.1.toList ++ (gap ++ start.2.toList) <+: Text.toUpper (Text.trim clause) := by
  have hsecond : ∀ start ∈ spacedStarts, ∀ c ∈ start.2.toList, Text.isBlank c = false := by
    simp [spacedStarts, Text.isBlank]
  obtain ⟨hwhole, hspaced⟩ := isUpper_starts
  rw [isConstraint_eq_startsConstraint, BlankClass.trim_squeeze, startsConstraint_iff,
    BlankClass.toUpper_squeeze]
  apply or_congr
  · refine exists_congr fun start => and_congr_right fun hs => ?_
    exact BlankClass.prefix_squeeze_iff fun c hc => BlankClass.has_eq_false_of_isUpper (hwhole start hs c hc)
  · refine exists_congr fun start => and_congr_right fun hs => ?_
    exact BlankClass.spaced_prefix_squeeze_iff
      (fun c hc => BlankClass.has_eq_false_of_isUpper (hspaced start hs c hc))
      fun c hc => BlankClass.has_eq_false (hsecond start hs c hc)

theorem isConstraint_squeeze (h : isConstraint clause = true) : isConstraint (k.squeeze clause) = true := by
  refine isConstraint_squeeze_iff.mpr ((startsConstraint_iff.mp h).imp_right ?_)
  rintro ⟨start, hs, hp⟩
  exact ⟨start, hs, [' '], BlankClass.isGap_space, hp⟩

/-- The words that begin a constraint announce one only with the space that they ask for. -/
theorem space_prefix_of_announces {start : String × String} (hs : start ∈ spacedStarts) (g : Gap)
    {rest : List Char} (h : Announces start.1.toList (g.text ++ (start.2.toList ++ rest))) :
    ' ' :: start.2.toList <+: g.text ++ (start.2.toList ++ rest) := by
  have hk : Text.isBlank 'K' = false := by decide
  have hp : Text.isBlank '(' = false := by decide
  simp only [spacedStarts, List.mem_cons, List.not_mem_nil, or_false] at hs
  rcases hs with rfl | rfl | rfl | rfl | rfl | rfl <;>
    simpa [Announces, wholeStarts, spacedStarts, g.space_prefix_iff hk, g.space_prefix_iff hp] using h

theorem isConstraint_squeeze_eq_iff :
    isConstraint (k.squeeze clause) = isConstraint clause ↔ KeepsStart k clause := by
  rw [Bool.eq_iff_iff, isConstraint_squeeze_iff, isConstraint_eq_startsConstraint, startsConstraint_iff]
  constructor
  · intro h start hs gap hg hp
    have hc := h.mp (Or.inr ⟨start, hs, gap, hg, hp⟩)
    obtain ⟨rest, hrest⟩ := hp
    rw [← hrest, List.append_assoc, List.append_assoc] at hc ⊢
    have hb : ' ' ∉ start.1.toList := notMem_of_isUpper (isUpper_starts.2 start hs) (by decide)
    let g : Gap := ⟨gap, hg.1, fun c hm => k.blank c (hg.2 c hm)⟩
    have hannounced := (starts_append_iff hb (g.isUpper_head?_append _)).mp hc
    exact (List.prefix_append_right_inj _).mpr (space_prefix_of_announces hs g hannounced)
  · intro h
    refine or_congr_right ⟨?_, ?_⟩
    · rintro ⟨start, hs, gap, hg, hp⟩
      exact ⟨start, hs, h start hs gap hg hp⟩
    · rintro ⟨start, hs, hp⟩
      exact ⟨start, hs, [' '], BlankClass.isGap_space, hp⟩

end Constraint

section Null

theorem holds_bare_squeeze_iff (h : '\x60' ∉ clause) :
    Text.holds "NOT NULL".toList (Text.toUpper (bare (k.squeeze clause))) = true ↔
      ∃ gap, k.IsGap gap ∧ "NOT".toList ++ (gap ++ "NULL".toList) <:+: Text.toUpper (bare clause) := by
  have hwords : "NOT NULL".toList = "NOT".toList ++ ' ' :: "NULL".toList := by simp
  have hupper : ∀ c ∈ "NOT".toList ++ "NULL".toList, c.isUpper = true := by simp
  obtain ⟨hnot, hnull⟩ :=
    List.forall_mem_append.mp fun c hc => BlankClass.has_eq_false_of_isUpper (k := k) (hupper c hc)
  rw [Text.holds_iff_infix, bare_squeeze h, BlankClass.toUpper_squeeze, hwords,
    BlankClass.spaced_infix_squeeze_iff hnot hnull]

theorem holds_bare_squeeze (h : '\x60' ∉ clause)
    (hn : Text.holds "NOT NULL".toList (Text.toUpper (bare clause)) = true) :
    Text.holds "NOT NULL".toList (Text.toUpper (bare (k.squeeze clause))) = true :=
  (holds_bare_squeeze_iff h).mpr ⟨[' '], BlankClass.isGap_space, Text.holds_iff_infix.mp hn⟩

theorem holds_bare_squeeze_eq_iff (h : '\x60' ∉ clause) :
    Text.holds "NOT NULL".toList (Text.toUpper (bare (k.squeeze clause))) =
      Text.holds "NOT NULL".toList (Text.toUpper (bare clause)) ↔ KeepsNull k clause := by
  rw [Bool.eq_iff_iff, holds_bare_squeeze_iff h, Text.holds_iff_infix]
  constructor
  · intro he gap hg hi
    exact he.mp ⟨gap, hg, hi⟩
  · intro hk
    refine ⟨?_, fun hn => ⟨[' '], BlankClass.isGap_space, hn⟩⟩
    rintro ⟨gap, hg, hi⟩
    exact hk gap hg hi

end Null

/-- A clause keeps its field, when one space replaces each run of blanks, just where it is a single word or no gap
hides the words that begin a constraint or, in a column, those that forbid `NULL`. The name and the type are kept
in any case. -/
theorem fieldOf?_squeeze_eq_iff (k : BlankClass) {clause : List Char} (h : '\x60' ∉ clause) :
    (fieldOf? (k.squeeze clause) = fieldOf? clause ↔ Text.SingleWord (bare clause) ∨
      (KeepsStart k clause ∧ (isConstraint clause = false → KeepsNull k clause))) ∧
    ∀ g, fieldOf? (k.squeeze clause) = some g → ∃ f, fieldOf? clause = some f ∧
      f.name = g.name ∧ f.declaredType = g.declaredType ∧ (g.nullable = true → f.nullable = true) := by
  have hwords : Text.words (bare (k.squeeze clause)) = Text.words (bare clause) := by
    rw [bare_squeeze h, BlankClass.words_squeeze]
  have hsingle : Text.SingleWord (bare (k.squeeze clause)) ↔ Text.SingleWord (bare clause) := by
    rw [← Text.length_words_lt_two_iff, hwords, Text.length_words_lt_two_iff]
  by_cases hs : Text.SingleWord (bare clause)
  · have hnone : fieldOf? (k.squeeze clause) = none := fieldOf?_eq_none_iff.mpr (Or.inr (hsingle.mpr hs))
    rw [hnone, fieldOf?_eq_none_iff.mpr (Or.inr hs)]
    exact ⟨iff_of_true rfl (Or.inl hs), by simp⟩
  · obtain ⟨name, declared, others, hw⟩ := Text.exists_words_of_not_singleWord hs
    rw [or_iff_right hs, ← isConstraint_squeeze_eq_iff, ← holds_bare_squeeze_eq_iff h]
    cases hc : isConstraint clause with
    | true =>
      have hk : isConstraint (k.squeeze clause) = true := isConstraint_squeeze hc
      rw [fieldOf?_eq_none_iff.mpr (Or.inl hc), fieldOf?_eq_none_iff.mpr (Or.inl hk)]
      simp [hk]
    | false =>
      rw [fieldOf?_of_words hc hw]
      cases hk : isConstraint (k.squeeze clause) with
      | true =>
        rw [fieldOf?_eq_none_iff.mpr (Or.inl hk)]
        simp
      | false =>
        rw [fieldOf?_of_words hk (hwords.trans hw)]
        refine ⟨by simp, ?_⟩
        rintro _ ⟨⟩
        refine ⟨_, rfl, rfl, rfl, ?_⟩
        intro hn
        cases hf : Text.holds "NOT NULL".toList (Text.toUpper (bare clause)) with
        | false => rfl
        | true =>
          rw [holds_bare_squeeze h hf] at hn
          exact hn

def spacesAndTabs : BlankClass where
  has c := c = ' ' || c = '\t'
  blank c h := by
    rcases Bool.or_eq_true_iff.mp h with h | h <;> rw [of_decide_eq_true h] <;> rfl
  space := rfl

theorem fieldOf?_squeeze_column :
    fieldOf? (spacesAndTabs.squeeze "id \t INT  NOT NULL".toList) = some ⟨"id", "INT", false⟩ ∧
      fieldOf? "id \t INT  NOT NULL".toList = some ⟨"id", "INT", false⟩ ∧
      KeepsStart spacesAndTabs "id \t INT  NOT NULL".toList ∧
      KeepsNull spacesAndTabs "id \t INT  NOT NULL".toList := by
  have htick : '\x60' ∉ "id \t INT  NOT NULL".toList := by simp
  have hsqueezed : fieldOf? (spacesAndTabs.squeeze "id \t INT  NOT NULL".toList) =
      some ⟨"id", "INT", false⟩ := by decide +kernel
  have hf : fieldOf? "id \t INT  NOT NULL".toList = some ⟨"id", "INT", false⟩ := by decide +kernel
  obtain ⟨hc, hs⟩ : ¬ isConstraint "id \t INT  NOT NULL".toList = true ∧
      ¬ Text.SingleWord (bare "id \t INT  NOT NULL".toList) := by
    rw [← not_or, ← fieldOf?_eq_none_iff, hf]
    exact Option.some_ne_none _
  obtain ⟨hstart, hnull⟩ :=
    ((fieldOf?_squeeze_eq_iff spacesAndTabs htick).1.mp (hsqueezed.trans hf.symm)).resolve_left hs
  exact ⟨hsqueezed, hf, hstart, hnull (Bool.eq_false_of_not_eq_true hc)⟩

/-- With one space more a constraint is a column, and a column without `NULL` may hold it. -/
theorem fieldOf?_squeeze_ne :
    fieldOf? "PRIMARY  KEY (id)".toList = some ⟨"PRIMARY", "KEY", true⟩ ∧
      fieldOf? (spacesAndTabs.squeeze "PRIMARY  KEY (id)".toList) = none ∧
      fieldOf? "id int NOT\tNULL".toList = some ⟨"id", "int", true⟩ ∧
      fieldOf? (spacesAndTabs.squeeze "id int NOT\tNULL".toList) = some ⟨"id", "int", false⟩ ∧
      ¬ ∀ clause : List Char, (∀ c ∈ clause, c ∉ ['\'', '"', '\x60']) →
        fieldOf? (spacesAndTabs.squeeze clause) = fieldOf? clause := by
  have hcolumn : fieldOf? "PRIMARY  KEY (id)".toList = some ⟨"PRIMARY", "KEY", true⟩ := by decide +kernel
  have hnone : fieldOf? (spacesAndTabs.squeeze "PRIMARY  KEY (id)".toList) = none := by decide +kernel
  refine ⟨hcolumn, hnone, by decide +kernel, by decide +kernel, ?_⟩
  intro h
  have he := h "PRIMARY  KEY (id)".toList (by simp)
  rw [hcolumn, hnone] at he
  exact absurd he (by decide)

end TableLoader.Dump
