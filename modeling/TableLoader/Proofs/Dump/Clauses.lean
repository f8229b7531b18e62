import TableLoader.Dump.Clause
import TableLoader.Proofs.Dump.Scanner
import TableLoader.Proofs.Text.Occurrence

/-! # The clauses of a body

A line of a body holds one clause if all its commas are nested, but for one at its end. A clause that begins
with a quoted name declares a field of that name, and one that begins as a constraint declares none. -/
namespace TableLoader.Dump

open Text (Tight)

/-- Whether every comma stands inside parentheses, from a given depth on. -/
def commasNested : Int → List Char → Bool
  | _, [] => true
  | depth, c :: cs => (c != ',' || depth != 0) && commasNested (depth + nesting [c]) cs

theorem commasNested_append (depth : Int) (a b : List Char) :
    commasNested depth (a ++ b) = (commasNested depth a && commasNested (depth + nesting a) b) := by
  induction a generalizing depth with
  | nil => simp [commasNested]
  | cons c a ih =>
    rw [List.cons_append, commasNested, commasNested, ih, nesting_cons c a, Bool.and_assoc,
      add_assoc]

theorem commasNested_of_notMem {cs : List Char} (h : ',' ∉ cs) (depth : Int) :
    commasNested depth cs = true := by
  induction cs generalizing depth with
  | nil => rfl
  | cons c cs ih =>
    have hc : c ≠ ',' := fun hc => h (hc ▸ List.mem_cons_self)
    have hcs : ',' ∉ cs := fun hm => h (List.mem_cons_of_mem _ hm)
    simp [commasNested, hc, ih hcs]

theorem segments_append {depth : Int} {cs : List Char} (h : commasNested depth cs = true)
    (rest : List Char) :
    segments depth (cs ++ rest) = (segments (depth + nesting cs) rest).modifyHead (cs ++ ·) := by
  induction cs generalizing depth with
  | nil => cases hs : segments depth rest <;> simp [hs]
  | cons c cs ih =>
    obtain ⟨hc, hcs⟩ := Bool.and_eq_true_iff.mp h
    have hn : ¬ (c = ',' ∧ depth = 0) := by
      rintro ⟨rfl, rfl⟩
      simp at hc
    rw [List.cons_append, segments, if_neg hn, ih hcs, nesting_cons c cs, add_assoc]
    simp [List.modifyHead_modifyHead, Function.comp_def]

/-- A clause as one line of a body may hold it. -/
structure IsClause (cs : List Char) : Prop where
  ne_nil : cs ≠ []
  tight : Tight cs
  balanced : nesting cs = 0
  commas : commasNested 0 cs = true

theorem IsClause.tight_comma {cs : List Char} (h : IsClause cs) : Tight (cs ++ [',']) := by
  obtain ⟨c, cs, rfl⟩ := List.exists_cons_of_ne_nil h.ne_nil
  exact Text.tight_of_ends rfl List.getLast?_concat (h.tight.head c rfl) (by decide)

theorem splitTopLevel_clause {cs : List Char} (h : IsClause cs) : splitTopLevel cs = [cs] := by
  have hs := segments_append h.commas []
  rw [List.append_nil] at hs
  simp [splitTopLevel, hs, segments, h.ne_nil]

theorem splitTopLevel_clause_comma {cs : List Char} (h : IsClause cs) :
    splitTopLevel (cs ++ [',']) = [cs] := by
  have hs := segments_append h.commas [',']
  rw [h.balanced] at hs
  simp [splitTopLevel, hs, segments, h.ne_nil]

def lineClauses (line : List Char) : List (List Char) :=
  ((splitTopLevel (Text.trim line)).map Text.trim).filter (· ≠ [])

theorem clauses_eq_flatMap (body : List Char) :
    clauses body = (Text.lines body).flatMap lineClauses := by
  unfold clauses
  induction Text.lines body with
  | nil => rfl
  | cons line ls ih =>
    rw [List.map_cons, List.flatMap_cons, ← ih, lineClauses]
    by_cases h : Text.trim line = []
    · simp [h, splitTopLevel, segments]
    · simp [h]

theorem lineClauses_clause {pre cs comma : List Char} (hp : ∀ c ∈ pre, Text.isBlank c = true)
    (h : IsClause cs) (hc : comma = [] ∨ comma = [',']) :
    lineClauses (pre ++ (cs ++ comma)) = [cs] := by
  have hsplit : splitTopLevel (Text.trim (cs ++ comma)) = [cs] := by
    rcases hc with rfl | rfl
    · rw [List.append_nil, h.tight.trim, splitTopLevel_clause h]
    · rw [h.tight_comma.trim, splitTopLevel_clause_comma h]
  simp [lineClauses, Text.trim_append_of_blank hp, hsplit, h.tight.trim, h.ne_nil]

theorem lineClauses_dropReturn (line : List Char) :
    lineClauses (Text.dropReturn line) = lineClauses line := by
  rw [lineClauses, Text.trim_dropReturn, ← lineClauses]

theorem clauses_joinLines {ls : List (List Char)} (h : ∀ line ∈ ls, '\n' ∉ line) :
    clauses (Text.joinLines ls) = ls.flatMap lineClauses := by
  rw [clauses_eq_flatMap, Text.lines_joinLines h,
    Text.flatMap_finishLines rfl lineClauses_dropReturn]

theorem clauses_body {ls : List (List Char)} (hne : ls ≠ []) (hn : ∀ line ∈ ls, '\n' ∉ line) :
    clauses ('\n' :: (Text.joinLines ls ++ ['\n'])) = ls.flatMap lineClauses := by
  have hjoin : '\n' :: (Text.joinLines ls ++ ['\n']) = Text.joinLines ([] :: (ls ++ [[]])) := by
    rw [Text.joinLines_cons (by simp), Text.joinLines_concat hne]
    rfl
  have hlines : ∀ line ∈ [] :: (ls ++ [[]]), '\n' ∉ line := by
    simpa [or_imp, forall_and] using hn
  have hempty : lineClauses [] = [] := rfl
  rw [hjoin, clauses_joinLines hlines]
  simp [hempty]

def quoted (front name rest : List Char) : List Char := front ++ '\x60' :: (name ++ '\x60' :: rest)

def grouped (front inner rest : List Char) : List Char := front ++ '(' :: (inner ++ ')' :: rest)

theorem getLast?_quoted (front name : List Char) {rest : List Char} (h : rest ≠ []) :
    (quoted front name rest).getLast? = rest.getLast? := by
  have hs : quoted front name rest = (front ++ '\x60' :: (name ++ ['\x60'])) ++ rest := by
    simp [quoted]
  rw [hs, List.getLast?_append_of_ne_nil _ h]

theorem getLast?_grouped (front inner : List Char) {rest : List Char} (h : rest ≠ []) :
    (grouped front inner rest).getLast? = rest.getLast? := by
  have hs : grouped front inner rest = (front ++ '(' :: (inner ++ [')'])) ++ rest := by
    simp [grouped]
  rw [hs, List.getLast?_append_of_ne_nil _ h]

theorem getLast?_grouped_nil (front inner : List Char) :
    (grouped front inner []).getLast? = some ')' := by
  rw [grouped, ← List.cons_append, ← List.append_assoc, List.getLast?_concat]

theorem quoted_ne_nil (front name rest : List Char) : quoted front name rest ≠ [] := by
  simp [quoted]

theorem grouped_ne_nil (front inner rest : List Char) : grouped front inner rest ≠ [] := by
  simp [grouped]

theorem isConstraint_quoted {name rest : List Char} (h : Tight (quoted [] name rest)) :
    isConstraint (quoted [] name rest) = false := by
  rw [isConstraint, h.trim]
  rfl

theorem fieldOf?_constraint {start : String} (hs : start ∈ constraintStarts) {rest : List Char}
    (h : Tight (start.toList ++ rest)) : fieldOf? (start.toList ++ rest) = none := by
  have hu : ∀ start ∈ constraintStarts, Text.toUpper start.toList = start.toList := by
    decide +kernel
  have hc : isConstraint (start.toList ++ rest) = true := by
    rw [isConstraint, h.trim, List.any_eq_true]
    refine ⟨start, hs, ?_⟩
    rw [List.isPrefixOf_iff_prefix, Text.toUpper_append, hu start hs]
    exact List.prefix_append _ _
  exact if_pos hc

theorem dropComma_subset (cs : List Char) : dropComma cs ⊆ cs := by
  unfold dropComma
  split
  · exact List.dropLast_subset cs
  · exact List.Subset.refl cs

theorem exists_dropComma_append (front : List Char) {rest : List Char} (h : rest ≠ []) :
    ∃ more, dropComma (front ++ rest) = front ++ more := by
  unfold dropComma
  split
  · exact ⟨_, List.dropLast_append_of_ne_nil h⟩
  · exact ⟨_, rfl⟩

/-- A name between backticks: no blank, no backtick, and nothing that separates or nests. -/
structure IsQuotedName (cs : List Char) : Prop where
  ne_nil : cs ≠ []
  plain : ∀ c ∈ cs, Text.isBlank c = false ∧ c ∉ ['\x60', ',', '(', ')']

instance (cs : List Char) : Decidable (IsQuotedName cs) :=
  decidable_of_iff
    (cs ≠ [] ∧ cs.all (fun c => Text.isBlank c = false ∧ c ∉ ['\x60', ',', '(', ')']) = true)
    ⟨fun h => ⟨h.1, by simpa using h.2⟩, fun h => ⟨h.1, by simpa using h.2⟩⟩

theorem IsQuotedName.notMem {cs : List Char} (h : IsQuotedName cs) {x : Char}
    (hx : x ∈ ['\x60', ',', '(', ')']) : x ∉ cs :=
  fun hm => (h.plain x hm).2 hx

/-- A type as a column declares it: one word whose parentheses are balanced and whose commas are nested. -/
structure IsDeclaredType (cs : List Char) : Prop where
  ne_nil : cs ≠ []
  plain : ∀ c ∈ cs, Text.isBlank c = false ∧ c ≠ '\x60'
  balanced : nesting cs = 0
  commas : commasNested 0 cs = true

instance (cs : List Char) : Decidable (IsDeclaredType cs) :=
  decidable_of_iff
    (cs ≠ [] ∧ cs.all (fun c => Text.isBlank c = false ∧ c ≠ '\x60') = true ∧ nesting cs = 0 ∧
      commasNested 0 cs = true)
    ⟨fun h => ⟨h.1, by simpa using h.2.1, h.2.2.1, h.2.2.2⟩,
      fun h => ⟨h.1, by simpa using h.2, h.3, h.4⟩⟩

theorem IsDeclaredType.backtick {cs : List Char} (h : IsDeclaredType cs) : '\x60' ∉ cs :=
  fun hm => (h.plain _ hm).2 rfl

theorem IsDeclaredType.getLast?_ne {cs : List Char} (h : IsDeclaredType cs) :
    cs.getLast? ≠ some ',' := by
  intro hl
  obtain ⟨init, rfl⟩ := List.getLast?_eq_some_iff.mp hl
  have hn : nesting init = 0 := by simpa [nesting_append, nesting] using h.balanced
  have hc := h.commas
  simp [commasNested_append, hn, commasNested] at hc

theorem filter_backtick {cs : List Char} (h : '\x60' ∉ cs) : cs.filter (· != '\x60') = cs :=
  List.filter_eq_self.mpr (bne_of_notMem h)

theorem bare_eq_self {clause : List Char} (ht : Tight clause) (hl : clause.getLast? ≠ some ',')
    (hq : '\x60' ∉ clause) : bare clause = clause := by
  rw [bare, ht.trim, dropComma, if_neg hl, filter_backtick hq]

/-- A clause that begins no constraint declares its first two words as a name and a type; the field is nullable unless
the clause says `NOT NULL` somewhere. -/
theorem fieldOf?_of_words {clause name declared : List Char} {others : List (List Char)}
    (hc : isConstraint clause = false)
    (hw : Text.words (bare clause) = name :: declared :: others) :
    fieldOf? clause = some ⟨String.ofList name, String.ofList declared,
      !Text.holds "NOT NULL".toList (Text.toUpper (bare clause))⟩ := by
  rw [fieldOf?, hc, hw]
  rfl

/-- A clause that begins with a quoted name and a type declares that field; it is nullable unless its text
says `NOT NULL` somewhere. -/
theorem fieldOf?_quoted {name declared options : List Char} (hn : IsQuotedName name)
    (hd : IsDeclaredType declared) (ho : options = [] ∨ ∃ more, options = ' ' :: more)
    (hq : '\x60' ∉ options)
    (ht : Tight (quoted [] name (' ' :: (declared ++ options))))
    (hl : (quoted [] name (' ' :: (declared ++ options))).getLast? ≠ some ',') :
    fieldOf? (quoted [] name (' ' :: (declared ++ options))) =
      some ⟨String.ofList name, String.ofList declared,
        !Text.holds "NOT NULL".toList (Text.toUpper (name ++ ' ' :: (declared ++ options)))⟩ := by
  have hb : bare (quoted [] name (' ' :: (declared ++ options))) =
      name ++ ' ' :: (declared ++ options) := by
    rw [bare, ht.trim, dropComma, if_neg hl]
    simp [quoted, filter_backtick (hn.notMem (by simp)), filter_backtick hd.backtick,
      filter_backtick hq]
  have hnb : ∀ c ∈ name, Text.isBlank c = false := fun c hc => (hn.plain c hc).1
  have hdb : ∀ c ∈ declared, Text.isBlank c = false := fun c hc => (hd.plain c hc).1
  have hob : ∀ c ∈ options.head?, Text.isBlank c = true := by
    rcases ho with rfl | ⟨more, rfl⟩
    · simp
    · rintro _ ⟨⟩
      rfl
  obtain ⟨others, hw⟩ := Text.exists_words_append hd.ne_nil hdb hob
  rw [← hb]
  apply fieldOf?_of_words (isConstraint_quoted ht)
  rw [hb, Text.words_append_blank hn.ne_nil hnb (by decide), hw]

end TableLoader.Dump
