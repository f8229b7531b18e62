import TableLoader.Dump.Pattern
import TableLoader.Proofs.Dump.Clauses

/-! # Strings in column clauses

A column clause may hold strings, as defaults and comments do. Clauses are cut and read without regard to
quotes, so a string is inert only as far as its commas are nested and it does not say `NOT NULL`. Where all
commas are nested, before and after the strings are replaced, the fields stay as they are just if every clause
says `NOT NULL` after as before. -/
namespace TableLoader.Dump

open Text (Tight)

def unticked (cs : List Char) : List Char := cs.filter (· != '\x60')

theorem unticked_append (a b : List Char) : unticked (a ++ b) = unticked a ++ unticked b :=
  List.filter_append ..

def forbidsNull (cs : List Char) : Bool :=
  Text.holds "NOT NULL".toList (Text.toUpper (unticked cs))

theorem forbidsNull_append_quote (a b : List Char) :
    forbidsNull (a ++ '\'' :: b) = (forbidsNull a || forbidsNull b) := by
  have hu : Text.upper '\'' = ['\''] := by decide
  have hb : unticked ('\'' :: b) = '\'' :: unticked b := rfl
  rw [forbidsNull, unticked_append, hb, Text.toUpper_append, Text.toUpper_cons, hu]
  exact Text.holds_append_cons (by decide)

theorem forbidsNull_concat_space (a : List Char) : forbidsNull (a ++ [' ']) = forbidsNull a := by
  have hu : Text.toUpper (unticked [' ']) = [' '] := by decide
  rw [forbidsNull, forbidsNull, unticked_append, Text.toUpper_append, hu, Bool.eq_iff_iff,
    Text.holds_iff_infix, Text.holds_iff_infix]
  constructor
  · intro h
    rcases Text.infix_append_cons (u := "NOT".toList) (v := "NULL".toList) (by decide) (by decide) h
      with h | h | ⟨-, h⟩
    · exact h
    · exact absurd (List.infix_nil.mp h) (List.cons_ne_nil _ _)
    · exact absurd (List.prefix_nil.mp h) (List.cons_ne_nil _ _)
  · exact List.infix_append_of_infix_left

theorem forbidsNull_append_spaces (a : List Char) (n : ℕ) :
    forbidsNull (a ++ List.replicate n ' ') = forbidsNull a := by
  induction n with
  | zero => rw [List.replicate_zero, List.append_nil]
  | succ n ih => rw [List.replicate_succ', ← List.append_assoc, forbidsNull_concat_space, ih]

def startsConstraint (cs : List Char) : Bool :=
  constraintStarts.any fun start => start.toList.isPrefixOf (Text.toUpper cs)

theorem isConstraint_eq_startsConstraint (clause : List Char) :
    isConstraint clause = startsConstraint (Text.trim clause) := rfl

/-- No constraint begins with a quote in its first words, so what a quote follows decides. -/
theorem isConstraint_append_quote {front rest : List Char} (ht : Tight (front ++ '\'' :: rest)) :
    isConstraint (front ++ '\'' :: rest) = startsConstraint front := by
  have hq : ∀ start ∈ constraintStarts, '\'' ∉ start.toList := by decide
  have hu : Text.upper '\'' = ['\''] := by decide
  rw [isConstraint, ht.trim, startsConstraint, Text.toUpper_append, Text.toUpper_cons, hu,
    Bool.eq_iff_iff, List.any_eq_true, List.any_eq_true]
  refine exists_congr fun start => and_congr_right fun hs => ?_
  rw [List.isPrefixOf_iff_prefix, List.isPrefixOf_iff_prefix]
  constructor
  · exact Text.prefix_of_prefix_append_cons (hq start hs)
  · exact fun h => h.trans (List.prefix_append _ _)

/-- A text that holds a name and a type, with a blank behind them. -/
def NamesColumn (front : List Char) : Prop :=
  ∃ head b rest, front = head ++ b :: rest ∧ Text.isBlank b = true ∧
    2 ≤ (Text.words (unticked head)).length

theorem NamesColumn.exists_words {front : List Char} (h : NamesColumn front) :
    ∃ name declared, ∀ more, ∃ others,
      Text.words (unticked (front ++ more)) = name :: declared :: others := by
  obtain ⟨head, b, rest, rfl, hb, hw⟩ := h
  match hs : Text.words (unticked head), hw with
  | name :: declared :: others, _ =>
    refine ⟨name, declared, fun more => ⟨others ++ Text.words (unticked (rest ++ more)), ?_⟩⟩
    have hn : b ≠ '\x60' := by
      rintro rfl
      exact absurd hb (by decide)
    have hc : unticked (b :: (rest ++ more)) = b :: unticked (rest ++ more) := by
      simp [unticked, hn]
    rw [List.append_assoc, List.cons_append, unticked_append, hc, Text.words_append_cons hb, hs]
    rfl

/-- The strings of a column clause leave its name and its type alone. -/
theorem exists_fieldOf?_append_quote {front : List Char} (hn : NamesColumn front)
    (hc : startsConstraint front = false) :
    ∃ name declared, ∀ rest, Tight (front ++ '\'' :: rest) →
      fieldOf? (front ++ '\'' :: rest) =
        some ⟨name, declared, !forbidsNull (dropComma (front ++ '\'' :: rest))⟩ := by
  obtain ⟨name, declared, hw⟩ := hn.exists_words
  refine ⟨String.ofList name, String.ofList declared, fun rest ht => ?_⟩
  obtain ⟨more, hd⟩ := exists_dropComma_append front (List.cons_ne_nil '\'' rest)
  obtain ⟨others, hw⟩ := hw more
  have hb : bare (front ++ '\'' :: rest) = unticked (front ++ more) := by
    rw [bare, ht.trim, hd]
    rfl
  rw [fieldOf?, isConstraint_append_quote ht, hc, if_neg Bool.false_ne_true, hb, hw, hd]
  rfl

/-- A line with one column clause, cut at its strings. A comma may end it. -/
structure StringLine where
  indent : List Char
  front : List Char
  behind : List (List Char)
  gap : ℕ
  comma : Bool
  back : List Char
  blank : ∀ cs ∈ [indent, back], ∀ c ∈ cs, Text.isBlank c = true
  newline : ∀ cs ∈ indent :: back :: front :: behind, '\n' ∉ cs
  names : NamesColumn front
  column : startsConstraint front = false
  first : ∀ c ∈ front.head?, Text.isBlank c = false
  strings : behind ≠ []
  last : ∀ cs ∈ behind.getLast?, ∀ c ∈ cs.getLast?, Text.isBlank c = false ∧ c ≠ ','

namespace StringLine

structure Filling (l : StringLine) where
  contents : List (List Char)
  length_eq : contents.length = l.behind.length
  newline : ∀ cs ∈ contents, '\n' ∉ cs

def fill (contents behind : List (List Char)) : List Char :=
  (contents.zip behind).flatMap fun s => '\'' :: (s.1 ++ '\'' :: s.2)

variable {l : StringLine}

namespace Filling

def clause (f : l.Filling) : List Char := l.front ++ fill f.contents l.behind

def line (f : l.Filling) : Line :=
  l.indent ++ (f.clause ++ (List.replicate l.gap ' ' ++ ((if l.comma then [','] else []) ++ l.back)))

/-- No comma of the clause stands where as many parentheses are closed as were opened before it. -/
def Nested (f : l.Filling) : Prop := commasNested 0 f.clause = true

instance (f : l.Filling) : Decidable f.Nested := inferInstanceAs (Decidable (_ = true))

end Filling

theorem notMem_fill {contents behind : List (List Char)} {x : Char} (hx : x ≠ '\'')
    (hc : ∀ cs ∈ contents, x ∉ cs) (hb : ∀ cs ∈ behind, x ∉ cs) : x ∉ fill contents behind := by
  intro hm
  obtain ⟨⟨content, after⟩, hs, hm⟩ := List.mem_flatMap.mp hm
  obtain ⟨hcontent, hafter⟩ := List.of_mem_zip hs
  simp only [List.mem_cons, List.mem_append] at hm
  rcases hm with h | h | h | h
  · exact hx h
  · exact hc content hcontent h
  · exact hx h
  · exact hb after hafter h

theorem forbidsNull_append_fill (front : List Char) {contents behind : List (List Char)}
    (h : contents.length = behind.length) :
    forbidsNull (front ++ fill contents behind) =
      ((front :: behind).any forbidsNull || contents.any forbidsNull) := by
  induction contents generalizing behind front with
  | nil =>
    obtain rfl := List.length_eq_zero_iff.mp h.symm
    simp [fill]
  | cons content contents ih =>
    cases behind with
    | nil => simp at h
    | cons after behind =>
      have hf : fill (content :: contents) (after :: behind) =
          '\'' :: (content ++ '\'' :: (after ++ fill contents behind)) := by simp [fill]
      have ih := ih after (Nat.succ.inj h)
      rw [hf, forbidsNull_append_quote, forbidsNull_append_quote, ih]
      simp only [List.any_cons]
      ac_rfl

namespace Filling

theorem exists_clause_eq (f : l.Filling) : ∃ rest, f.clause = l.front ++ '\'' :: rest := by
  obtain ⟨after, behind, hb⟩ := List.exists_cons_of_ne_nil l.strings
  have hc : f.contents ≠ [] := by
    intro hc
    have hl := f.length_eq
    simp [hc, hb] at hl
  obtain ⟨content, contents, hc⟩ := List.exists_cons_of_ne_nil hc
  exact ⟨_, by rw [clause, hc, hb]; rfl⟩

theorem getLast?_clause (f : l.Filling) :
    ∃ c, f.clause.getLast? = some c ∧ Text.isBlank c = false ∧ c ≠ ',' := by
  obtain ⟨behind, after, hb⟩ := (List.eq_nil_or_concat l.behind).resolve_left l.strings
  have hlast := l.last after (by simp [hb])
  rcases List.eq_nil_or_concat f.contents with hc | ⟨contents, content, hc⟩
  · have hl := f.length_eq
    simp [hc, hb] at hl
  · have hl : contents.length = behind.length := by
      have hl := f.length_eq
      simpa [hc, hb] using hl
    have hf : f.clause = l.front ++ (fill contents behind ++ '\'' :: content) ++ '\'' :: after := by
      simp [clause, fill, hb, hc, List.zip_append hl]
    rw [hf]
    cases ha : after.getLast? with
    | none =>
      rw [List.getLast?_eq_none_iff.mp ha, List.getLast?_concat]
      exact ⟨'\'', rfl, by decide, by decide⟩
    | some c =>
      refine ⟨c, ?_, hlast c ha⟩
      rw [List.append_cons, List.getLast?_append, ha, Option.some_or]

theorem head?_clause (f : l.Filling) : ∀ c ∈ f.clause.head?, Text.isBlank c = false := by
  obtain ⟨rest, hr⟩ := f.exists_clause_eq
  rw [hr]
  cases hf : l.front with
  | nil =>
    rintro _ ⟨⟩
    decide
  | cons c front =>
    rintro _ ⟨⟩
    exact l.first c (by rw [hf]; rfl)

theorem tight_append (f : l.Filling) {more : List Char}
    (h : ∀ c ∈ more.getLast?, Text.isBlank c = false) : Tight (f.clause ++ more) := by
  obtain ⟨c, hl, hb, -⟩ := f.getLast?_clause
  constructor
  · obtain ⟨rest, hr⟩ := f.exists_clause_eq
    have hne : f.clause ≠ [] := by simp [hr]
    rw [List.head?_append_of_ne_nil _ hne]
    exact f.head?_clause
  · rw [List.getLast?_append]
    cases hm : more.getLast? with
    | none =>
      rw [Option.none_or, hl]
      rintro _ ⟨⟩
      exact hb
    | some d =>
      rintro _ ⟨⟩
      exact h d hm

theorem tight_clause (f : l.Filling) : Tight f.clause := by
  have h : Tight (f.clause ++ []) := f.tight_append (by simp)
  rwa [List.append_nil] at h

theorem tight_comma (f : l.Filling) : Tight (f.clause ++ (List.replicate l.gap ' ' ++ [','])) := by
  apply f.tight_append
  rw [List.getLast?_concat]
  rintro _ ⟨⟩
  decide

theorem isBlank_gap : ∀ c ∈ List.replicate l.gap ' ', Text.isBlank c = true := by
  intro c hc
  rw [List.eq_of_mem_replicate hc]
  decide

theorem notMem_gap {x : Char} (h : x ≠ ' ') : x ∉ List.replicate l.gap ' ' :=
  fun hm => h (List.eq_of_mem_replicate hm)

theorem clause_ne_nil (f : l.Filling) : f.clause ≠ [] := by
  obtain ⟨rest, hr⟩ := f.exists_clause_eq
  simp [hr]

def ending (l : StringLine) : List Char :=
  if l.comma then List.replicate l.gap ' ' ++ [','] else []

theorem trim_line (f : l.Filling) : Text.trim f.line = f.clause ++ ending l := by
  have hi : ∀ c ∈ l.indent, Text.isBlank c = true := l.blank _ (by simp)
  have hback : ∀ c ∈ l.back, Text.isBlank c = true := l.blank _ (by simp)
  have ht : Tight (f.clause ++ ending l) := by
    unfold ending
    split
    · exact f.tight_comma
    · simpa using f.tight_clause
  have hne : f.clause ++ ending l ≠ [] := List.append_ne_nil_of_left_ne_nil f.clause_ne_nil _
  rw [line, Text.trim_append_of_blank hi]
  cases hc : l.comma with
  | true =>
    have h := ht.trim_append hne hback
    simpa [ending, hc] using h
  | false =>
    have h := ht.trim_append hne (b := List.replicate l.gap ' ' ++ l.back)
      fun c hm => (List.mem_append.mp hm).elim (isBlank_gap c) (hback c)
    simpa [ending, hc] using h

theorem dropComma_clause (f : l.Filling) : dropComma f.clause = f.clause := by
  obtain ⟨c, hl, -, hc⟩ := f.getLast?_clause
  exact if_neg (by simp [hl, hc])

theorem lineClauses_line (f : l.Filling) (hn : f.Nested) :
    lineClauses f.line = [f.clause] ∨
      lineClauses f.line = [f.clause ++ (List.replicate l.gap ' ' ++ [','])] := by
  have hs : ∀ rest, segments 0 (f.clause ++ rest) =
      (segments (nesting f.clause) rest).modifyHead (f.clause ++ ·) := by
    intro rest
    rw [segments_append hn, zero_add]
  rw [lineClauses, f.trim_line, splitTopLevel]
  unfold ending
  cases l.comma with
  | false =>
    left
    rw [if_neg Bool.false_ne_true, hs]
    simp [segments, f.clause_ne_nil, f.tight_clause.trim]
  | true =>
    have hg : commasNested (nesting f.clause) (List.replicate l.gap ' ') = true :=
      commasNested_of_notMem (notMem_gap (by decide)) _
    have hb : nesting (List.replicate l.gap ' ') = 0 :=
      nesting_eq_zero (notMem_gap (by decide)) (notMem_gap (by decide))
    rw [if_pos rfl, hs, segments_append hg, hb, add_zero]
    by_cases hd : nesting f.clause = 0
    · left
      have ht := f.tight_clause.trim_append f.clause_ne_nil (isBlank_gap (l := l))
      simp [segments, hd, f.clause_ne_nil, ht]
    · right
      simp [segments, hd, f.clause_ne_nil, f.tight_comma.trim]

end Filling

/-- Whatever fills the strings of a line, if its commas stay nested it holds the same column. -/
theorem exists_fields (l : StringLine) : ∃ name declared, ∀ f : l.Filling, f.Nested →
    (lineClauses f.line).filterMap fieldOf? = [⟨name, declared, !forbidsNull f.clause⟩] := by
  obtain ⟨name, declared, hfield⟩ := exists_fieldOf?_append_quote l.names l.column
  refine ⟨name, declared, fun f hn => ?_⟩
  obtain ⟨rest, hr⟩ := f.exists_clause_eq
  rcases f.lineClauses_line hn with hc | hc
  · have ht := f.tight_clause
    have hd := f.dropComma_clause
    rw [hr] at ht hd hc
    rw [hr, hc]
    simp [hfield rest ht, hd]
  · have ht := f.tight_comma
    have hd : dropComma (f.clause ++ (List.replicate l.gap ' ' ++ [','])) =
        f.clause ++ List.replicate l.gap ' ' := by
      rw [← List.append_assoc, dropComma, if_pos List.getLast?_concat, List.dropLast_concat]
    rw [hr, List.append_assoc, List.cons_append] at ht hd hc
    rw [hc, hr]
    simp only [List.filterMap_cons, List.filterMap_nil, hfield _ ht, hd]
    rw [forbidsNull_append_spaces]

theorem Filling.newline_notMem_line (f : l.Filling) : '\n' ∉ f.line := by
  have hl := l.newline
  simp only [List.forall_mem_cons] at hl
  obtain ⟨hindent, hback, hfront, hbehind⟩ := hl
  have hfill : '\n' ∉ fill f.contents l.behind := notMem_fill (by decide) f.newline hbehind
  have hgap : '\n' ∉ List.replicate l.gap ' ' := Filling.notMem_gap (by decide)
  have hcomma : '\n' ∉ if l.comma then [','] else [] := by split <;> simp
  simp [Filling.line, Filling.clause, hindent, hback, hfront, hfill, hgap, hcomma]

end StringLine

inductive BodyLine where
  | same (line : Line) (newline : '\n' ∉ line)
  | refilled (line : StringLine) (old new : line.Filling)

namespace BodyLine

def before : BodyLine → Line
  | same line _ => line
  | refilled _ old _ => old.line

def after : BodyLine → Line
  | same line _ => line
  | refilled _ _ new => new.line

def Nested : BodyLine → Prop
  | same .. => True
  | refilled _ old new => old.Nested ∧ new.Nested

/-- Outside its strings the clause says `NOT NULL`, or its strings say it after as before. -/
def Steady : BodyLine → Prop
  | same .. => True
  | refilled line old new => (line.front :: line.behind).any forbidsNull = true ∨
      old.contents.any forbidsNull = new.contents.any forbidsNull

theorem notMem_before (b : BodyLine) : '\n' ∉ b.before := by
  cases b with
  | same line newline => exact newline
  | refilled line old new => exact old.newline_notMem_line

theorem notMem_after (b : BodyLine) : '\n' ∉ b.after := by
  cases b with
  | same line newline => exact newline
  | refilled line old new => exact new.newline_notMem_line

def fields (line : Line) : List Field := (lineClauses line).filterMap fieldOf?

theorem fields_step (b : BodyLine) (h : b.Nested) :
    (fields b.before).length = (fields b.after).length ∧
      (fields b.before = fields b.after ↔ b.Steady) := by
  cases b with
  | same line newline => exact ⟨rfl, iff_of_true rfl trivial⟩
  | refilled line old new =>
    obtain ⟨name, declared, hfield⟩ := line.exists_fields
    obtain ⟨hold, hnew⟩ := h
    rw [before, after, fields, fields, hfield old hold, hfield new hnew, Steady,
      StringLine.Filling.clause, StringLine.Filling.clause,
      StringLine.forbidsNull_append_fill _ old.length_eq,
      StringLine.forbidsNull_append_fill _ new.length_eq]
    refine ⟨rfl, ?_⟩
    cases (line.front :: line.behind).any forbidsNull <;> simp

theorem fieldsOf_joinLines {ls : List Line} (h : ∀ line ∈ ls, '\n' ∉ line) :
    fieldsOf (Text.joinLines ls) = ls.flatMap fields := by
  rw [fieldsOf, clauses_joinLines h, List.filterMap_flatMap]
  rfl

/-- Strings are replaced without effect on the fields just where each clause keeps saying what it says, if no
comma ever stands outside parentheses. -/
theorem fieldsOf_refilled {ls : List BodyLine} (nested : ∀ b ∈ ls, b.Nested) :
    fieldsOf (Text.joinLines (ls.map before)) = fieldsOf (Text.joinLines (ls.map after)) ↔
      ∀ b ∈ ls, b.Steady := by
  rw [fieldsOf_joinLines (by simpa using fun b _ => b.notMem_before),
    fieldsOf_joinLines (by simpa using fun b _ => b.notMem_after)]
  induction ls with
  | nil => simp
  | cons b ls ih =>
    obtain ⟨hb, hls⟩ := List.forall_mem_cons.mp nested
    obtain ⟨hlen, hiff⟩ := b.fields_step hb
    rw [List.forall_mem_cons, ← hiff, ← ih hls, List.map_cons, List.map_cons, List.flatMap_cons,
      List.flatMap_cons]
    constructor
    · exact fun h => List.append_inj h hlen
    · rintro ⟨hb, hls⟩
      rw [hb, hls]

def noted : StringLine where
  indent := [' ', ' ']
  front := "\x60a\x60 INT COMMENT ".toList
  behind := [[]]
  gap := 0
  comma := true
  back := []
  blank := by simp; decide
  newline := by decide
  names := ⟨"\x60a\x60 INT".toList, ' ', "COMMENT ".toList, by decide, by decide, by decide +kernel⟩
  column := by decide +kernel
  first := by rintro _ ⟨⟩; decide
  strings := by decide
  last := by simp

def comment (content : List Char) (h : '\n' ∉ content) : noted.Filling :=
  ⟨[content], rfl, by simpa using h⟩

def renoted : List BodyLine :=
  [.refilled noted (comment "x".toList (by decide)) (comment "(not, null".toList (by decide))]

theorem fieldsOf_renoted :
    (∀ b ∈ renoted, b.Nested) ∧ (∀ b ∈ renoted, b.Steady) ∧
      fieldsOf (Text.joinLines (renoted.map before)) =
        fieldsOf (Text.joinLines (renoted.map after)) := by
  have hn : ∀ b ∈ renoted, b.Nested := by
    simp only [renoted, List.forall_mem_singleton, Nested]
    decide +kernel
  have hs : ∀ b ∈ renoted, b.Steady := by
    simp only [renoted, List.forall_mem_singleton, Steady]
    decide +kernel
  exact ⟨hn, hs, (fieldsOf_refilled hn).mpr hs⟩

/-- A comma outside parentheses adds a column, and the words themselves forbid nulls. -/
theorem fieldsOf_comment_not_inert :
    fieldsOf (comment "x".toList (by decide)).line = [⟨"a", "INT", true⟩] ∧
      fieldsOf (comment "x, y z".toList (by decide)).line =
        [⟨"a", "INT", true⟩, ⟨"y", "z'", true⟩] ∧
      fieldsOf (comment "not null".toList (by decide)).line = [⟨"a", "INT", false⟩] := by
  decide +kernel

end BodyLine

end TableLoader.Dump
