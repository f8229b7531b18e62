import TableLoader.Proofs.Dump.Clauses

/-! # Inert text

Text on one line that neither the scanner nor the splitter reacts to: its parentheses are balanced, its commas
are nested and it does not say `CREATE TABLE`. Inert texts stay inert when they are put together around
backticks and parentheses. -/
namespace TableLoader.Dump

def saysCreateTable (cs : List Char) : Bool :=
  Text.holds "CREATE TABLE".toList (Text.toUpper cs)

theorem isHeader_eq (line : Line) : isHeader line = saysCreateTable (Text.trim line) := rfl

theorem saysCreateTable_of_notMem {cs : List Char} (h : ' ' ∉ cs) : saysCreateTable cs = false :=
  Text.holds_eq_false_of_notMem (by decide) (Text.notMem_toUpper (by decide) (by decide) h)

theorem saysCreateTable_append_cons {x : Char} (hu : Text.upper x = [x])
    (hx : x ∉ "CREATE TABLE".toList) (a b : List Char) :
    saysCreateTable (a ++ x :: b) = (saysCreateTable a || saysCreateTable b) := by
  rw [saysCreateTable, Text.toUpper_append, Text.toUpper_cons, hu]
  exact Text.holds_append_cons hx

/-- A text at some depth that leaves the depth as it is and is cut nowhere. -/
structure Inert (depth : Int) (cs : List Char) : Prop where
  newline : '\n' ∉ cs
  balanced : nesting cs = 0
  commas : commasNested depth cs = true
  headless : saysCreateTable cs = false

instance (depth : Int) (cs : List Char) : Decidable (Inert depth cs) :=
  decidable_of_iff ('\n' ∉ cs ∧ nesting cs = 0 ∧ commasNested depth cs = true ∧
    saysCreateTable cs = false) ⟨fun h => ⟨h.1, h.2.1, h.2.2.1, h.2.2.2⟩, fun h => ⟨h.1, h.2, h.3, h.4⟩⟩

theorem Inert.nil (depth : Int) : Inert depth [] := ⟨by simp, rfl, rfl, by decide⟩

theorem IsQuotedName.inert {cs : List Char} (h : IsQuotedName cs) (depth : Int) : Inert depth cs where
  newline hm := absurd (h.plain _ hm).1 (by decide)
  balanced := nesting_eq_zero (h.notMem (by simp)) (h.notMem (by simp))
  commas := commasNested_of_notMem (h.notMem (by simp)) depth
  headless := saysCreateTable_of_notMem fun hm => absurd (h.plain _ hm).1 (by decide)

theorem Inert.join {depth : Int} {a b : List Char} (ha : Inert depth a) (hb : Inert depth b)
    {x : Char} (hx : x = '\x60' ∨ (x = ',' ∧ depth ≠ 0)) : Inert depth (a ++ x :: b) where
  newline := by
    have hn : x ≠ '\n' := by rcases hx with rfl | ⟨rfl, -⟩ <;> decide
    simp [ha.newline, hb.newline, hn.symm]
  balanced := by
    have hn : nesting [x] = 0 := by rcases hx with rfl | ⟨rfl, -⟩ <;> decide
    rw [nesting_append, nesting_cons, hn, ha.balanced, hb.balanced]
    rfl
  commas := by
    have hn : nesting [x] = 0 := by rcases hx with rfl | ⟨rfl, -⟩ <;> decide
    have hc : (x != ',' || depth != 0) = true := by
      rcases hx with rfl | ⟨rfl, hd⟩
      · rfl
      · simpa using hd
    rw [commasNested_append, ha.commas, ha.balanced, commasNested, add_zero, hn, add_zero, hb.commas,
      hc]
    rfl
  headless := by
    have hu : Text.upper x = [x] := by rcases hx with rfl | ⟨rfl, -⟩ <;> rfl
    have hw : x ∉ "CREATE TABLE".toList := by rcases hx with rfl | ⟨rfl, -⟩ <;> decide
    rw [saysCreateTable_append_cons hu hw, ha.headless, hb.headless]
    rfl

theorem Inert.quoted {depth : Int} {a n b : List Char} (ha : Inert depth a) (hn : IsQuotedName n)
    (hb : Inert depth b) : Inert depth (quoted a n b) :=
  ha.join ((hn.inert depth).join hb (Or.inl rfl)) (Or.inl rfl)

theorem Inert.grouped {depth : Int} {a g b : List Char} (ha : Inert depth a)
    (hg : Inert (depth + 1) g) (hb : Inert depth b) : Inert depth (grouped a g b) where
  newline := by simp [Dump.grouped, ha.newline, hg.newline, hb.newline]
  balanced := by
    rw [Dump.grouped, nesting_append, nesting_cons, nesting_append, nesting_cons ')', ha.balanced, hg.balanced,
      hb.balanced]
    rfl
  commas := by
    have ho : nesting ['('] = 1 := rfl
    have hc : nesting [')'] = -1 := rfl
    rw [Dump.grouped, commasNested_append, ha.commas, ha.balanced, commasNested, ho, add_zero, commasNested_append,
      hg.commas, hg.balanced, add_zero, commasNested, hc, add_neg_cancel_right, hb.commas]
    rfl
  headless := by
    rw [Dump.grouped, saysCreateTable_append_cons rfl (by decide), saysCreateTable_append_cons rfl (by decide),
      ha.headless, hg.headless, hb.headless]
    rfl

def nameList (names : List (List Char)) : List Char :=
  [','].intercalate (names.map fun n => quoted [] n [])

theorem inert_nameList {names : List (List Char)} (h : ∀ n ∈ names, IsQuotedName n) {depth : Int}
    (hd : depth ≠ 0) : Inert depth (nameList names) := by
  induction names with
  | nil => exact Inert.nil depth
  | cons n names ih =>
    obtain ⟨hn, hns⟩ := List.forall_mem_cons.mp h
    have hq : Inert depth (quoted [] n []) :=
      (Inert.nil depth).quoted hn (Inert.nil depth)
    cases names with
    | nil => simpa [nameList] using hq
    | cons m names =>
      have hj := hq.join (ih hns) (Or.inr ⟨rfl, hd⟩)
      simpa [nameList, List.intercalate_cons_cons] using hj

end TableLoader.Dump
