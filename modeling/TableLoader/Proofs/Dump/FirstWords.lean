import TableLoader.Proofs.Dump.Strings

/-! # The first word of a clause

A constraint is told from a column by the first word of its clause and by what stands right behind that word.
Two of the beginnings end with the word itself; all others ask for one space and what follows it. -/
namespace TableLoader.Dump

section Beginnings

variable {u v word rest : List Char}

theorem notMem_of_isUpper (hu : ∀ c ∈ u, c.isUpper = true) {x : Char} (hx : x.isUpper = false) : x ∉ u := by
  intro hm
  exact Bool.false_ne_true (hx.symm.trans (hu x hm))

/-- Capitals at the beginning are looked for no further than the first character that is none. -/
theorem prefix_append_of_isUpper (hu : ∀ c ∈ u, c.isUpper = true)
    (hr : ∀ c ∈ rest.head?, c.isUpper = false) : u <+: word ++ rest ↔ u <+: word := by
  constructor
  · intro h
    induction word generalizing u with
    | nil =>
      cases u with
      | nil => exact List.nil_prefix
      | cons c u =>
        obtain ⟨more, hmore⟩ := h
        have hc := hr c (by rw [← List.nil_append rest, ← hmore]; rfl)
        exact absurd ((hu c List.mem_cons_self).symm.trans hc) (by decide)
    | cons d word ih =>
      cases u with
      | nil => exact List.nil_prefix
      | cons c u =>
        obtain ⟨hc, hword⟩ := List.cons_prefix_cons.mp h
        obtain ⟨-, hu⟩ := List.forall_mem_cons.mp hu
        exact List.cons_prefix_cons.mpr ⟨hc, ih hu hword⟩
  · intro h
    exact h.trans (List.prefix_append _ _)

/-- Capitals with a space behind them stand at the beginning only as the whole first word. -/
theorem prefix_append_space_iff (hu : ∀ c ∈ u, c.isUpper = true) (hw : ' ' ∉ word)
    (hr : ∀ c ∈ rest.head?, c.isUpper = false) :
    u ++ ' ' :: v <+: word ++ rest ↔ word = u ∧ ' ' :: v <+: rest := by
  constructor
  · intro h
    have hprefix : u <+: word :=
      (prefix_append_of_isUpper hu hr).mp ((List.prefix_append _ _).trans h)
    obtain ⟨more, rfl⟩ := hprefix
    rw [List.append_assoc, List.prefix_append_right_inj] at h
    cases more with
    | nil => exact ⟨List.append_nil u, h⟩
    | cons c more =>
      obtain ⟨rfl, -⟩ := List.cons_prefix_cons.mp h
      exact absurd (List.mem_append_right _ List.mem_cons_self) hw
  · rintro ⟨rfl, h⟩
    exact (List.prefix_append_right_inj _).mpr h

end Beginnings

def wholeStarts : List String := ["INDEX", "CONSTRAINT"]

/-- The beginnings that hold a space, as the word before it and what follows it. -/
def spacedStarts : List (String × String) :=
  [("PRIMARY", "KEY"), ("KEY", ""), ("UNIQUE", "KEY"), ("UNIQUE", "("), ("FOREIGN", "KEY"), ("CHECK", "")]

theorem constraintStarts_perm :
    constraintStarts.Perm (wholeStarts ++ spacedStarts.map fun start => start.1 ++ " " ++ start.2) := by
  decide +kernel

theorem isUpper_starts : (∀ start ∈ wholeStarts, ∀ c ∈ start.toList, c.isUpper = true) ∧
    ∀ start ∈ spacedStarts, ∀ c ∈ start.1.toList, c.isUpper = true := by
  simp [wholeStarts, spacedStarts]

/-- Whether a word and what follows it, both in capitals, begin a constraint. -/
def Announces (word rest : List Char) : Prop :=
  (∃ start ∈ wholeStarts, start.toList <+: word) ∨
    ∃ start ∈ spacedStarts, word = start.1.toList ∧ ' ' :: start.2.toList <+: rest

theorem announces_check {rest : List Char} : Announces "CHECK".toList rest ↔ [' '] <+: rest := by
  simp [Announces, wholeStarts, spacedStarts]

theorem announces_unique {rest : List Char} : Announces "UNIQUE".toList rest ↔
    ' ' :: "KEY".toList <+: rest ∨ [' ', '('] <+: rest := by
  simp [Announces, wholeStarts, spacedStarts]

theorem startsConstraint_iff {cs : List Char} : startsConstraint cs = true ↔
    (∃ start ∈ wholeStarts, start.toList <+: Text.toUpper cs) ∨
      ∃ start ∈ spacedStarts, start.1.toList ++ ' ' :: start.2.toList <+: Text.toUpper cs := by
  have hspace : " ".toList = [' '] := by simp
  simp only [startsConstraint, List.any_eq_true, List.isPrefixOf_iff_prefix,
    constraintStarts_perm.mem_iff, List.mem_append, List.mem_map, or_and_right, exists_or]
  refine or_congr_right ⟨?_, ?_⟩
  · rintro ⟨_, ⟨start, hs, rfl⟩, h⟩
    refine ⟨start, hs, ?_⟩
    simpa [String.toList_append, hspace] using h
  · rintro ⟨start, hs, h⟩
    refine ⟨_, ⟨start, hs, rfl⟩, ?_⟩
    simpa [String.toList_append, hspace] using h

theorem starts_append_iff {word rest : List Char} (hw : ' ' ∉ word)
    (hr : ∀ c ∈ rest.head?, c.isUpper = false) :
    ((∃ start ∈ wholeStarts, start.toList <+: word ++ rest) ∨
      ∃ start ∈ spacedStarts, start.1.toList ++ ' ' :: start.2.toList <+: word ++ rest) ↔
        Announces word rest := by
  obtain ⟨hwhole, hspaced⟩ := isUpper_starts
  rw [Announces]
  apply or_congr
  · refine exists_congr fun start => and_congr_right fun hs => ?_
    exact prefix_append_of_isUpper (hwhole start hs) hr
  · refine exists_congr fun start => and_congr_right fun hs => ?_
    exact prefix_append_space_iff (hspaced start hs) hw hr

theorem startsConstraint_append_iff {word rest : List Char} (hw : ' ' ∉ Text.toUpper word)
    (hr : ∀ c ∈ (Text.toUpper rest).head?, c.isUpper = false) :
    startsConstraint (word ++ rest) = true ↔ Announces (Text.toUpper word) (Text.toUpper rest) := by
  rw [startsConstraint_iff, Text.toUpper_append, starts_append_iff hw hr]

theorem startsConstraint_append_space {word : List Char} (hw : ' ' ∉ word) (second rest : List Char) :
    startsConstraint (word ++ ' ' :: (second ++ ' ' :: rest)) = startsConstraint (word ++ ' ' :: second) := by
  have hu : Text.upper ' ' = [' '] := by decide
  have hword : ' ' ∉ Text.toUpper word := Text.notMem_toUpper (by decide) (by decide) hw
  have hhead : ∀ cs, ∀ c ∈ (Text.toUpper (' ' :: cs)).head?, c.isUpper = false := by
    intro cs
    rw [Text.toUpper_cons, hu]
    rintro _ ⟨⟩
    decide
  have hsecond : ∀ start ∈ spacedStarts, ' ' ∉ start.2.toList := by
    simp [spacedStarts]
  rw [Bool.eq_iff_iff, startsConstraint_append_iff hword (hhead _), startsConstraint_append_iff hword (hhead _)]
  simp only [Announces, Text.toUpper_cons, Text.toUpper_append, hu, List.singleton_append,
    List.cons_prefix_cons, true_and]
  refine or_congr_right (exists_congr fun start => and_congr_right fun hs => and_congr_right fun _ => ?_)
  constructor
  · exact Text.prefix_of_prefix_append_cons (hsecond start hs)
  · exact fun h => h.trans (List.prefix_append _ _)

end TableLoader.Dump
