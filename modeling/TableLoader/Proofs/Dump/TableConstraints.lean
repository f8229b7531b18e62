import TableLoader.Proofs.Dump.FirstWords
import TableLoader.Proofs.Text.LetterCase
import TableLoader.Proofs.Text.Spacing

/-! # Table constraints in their spellings

A constraint may be written with or without a name, with or without a space in front of its parenthesis, and
with one more word. The known beginnings cover only some of the spellings; of the others a constraint of several
words is read as a column. -/
namespace TableLoader.Dump

/-- A clause declares no column if it begins as a constraint or is a single word. -/
theorem fieldOf?_eq_none_iff {clause : List Char} :
    fieldOf? clause = none ↔ isConstraint clause = true ∨ Text.SingleWord (bare clause) := by
  by_cases hs : Text.SingleWord (bare clause)
  · refine iff_of_true ?_ (Or.inr hs)
    rw [← Text.length_words_lt_two_iff] at hs
    unfold fieldOf?
    split
    · rfl
    · split
      · next hw => simp [hw] at hs
      · rfl
  · obtain ⟨name, declared, others, hw⟩ := Text.exists_words_of_not_singleWord hs
    rw [or_iff_left hs]
    cases hc : isConstraint clause with
    | true => exact iff_of_true (if_pos hc) rfl
    | false => simp [fieldOf?_of_words hc hw]

structure Written (word : String) where
  text : List Char
  cased : Text.equalsIgnoringCase text word.toList = true

namespace Written

variable {word : String} (w : Written word)

theorem toUpper_text (hu : ∀ c ∈ word.toList, c.isUpper = true) : Text.toUpper w.text = word.toList :=
  (Text.toUpper_of_equalsIgnoringCase hu w.cased).1

theorem isAlpha (hu : ∀ c ∈ word.toList, c.isUpper = true) : ∀ c ∈ w.text, c.isAlpha = true :=
  (Text.toUpper_of_equalsIgnoringCase hu w.cased).2

theorem space_notMem_toUpper (hu : ∀ c ∈ word.toList, c.isUpper = true) : ' ' ∉ Text.toUpper w.text := by
  rw [w.toUpper_text hu]
  exact notMem_of_isUpper hu (by decide)

theorem ne_nil (hne : word.toList ≠ []) : w.text ≠ [] := by
  intro h
  have hc := w.cased
  rw [h] at hc
  simp [Text.equalsIgnoringCase, hne] at hc

end Written

structure Gap where
  text : List Char
  ne_nil : text ≠ []
  blank : ∀ c ∈ text, Text.isBlank c = true

theorem Gap.isUpper_head?_append (g : Gap) (rest : List Char) :
    ∀ c ∈ (g.text ++ rest).head?, c.isUpper = false := by
  obtain ⟨b, blanks, hg⟩ := List.exists_cons_of_ne_nil g.ne_nil
  rw [hg]
  rintro _ ⟨⟩
  exact Text.isUpper_of_isBlank (g.blank b (hg ▸ List.mem_cons_self))

/-- One space and no other gap lets a word follow that begins with it. -/
theorem Gap.space_prefix_iff (g : Gap) {c : Char} (hc : Text.isBlank c = false) {v rest : List Char} :
    ' ' :: c :: v <+: g.text ++ rest ↔ g.text = [' '] ∧ c :: v <+: rest := by
  constructor
  · intro h
    obtain ⟨b, blanks, hg⟩ := List.exists_cons_of_ne_nil g.ne_nil
    rw [hg, List.cons_append] at h
    obtain ⟨rfl, hrest⟩ := List.cons_prefix_cons.mp h
    cases blanks with
    | nil => exact ⟨hg, hrest⟩
    | cons d blanks =>
      obtain ⟨rfl, -⟩ := List.cons_prefix_cons.mp hrest
      have hb := g.blank c (by simp [hg])
      exact absurd (hc.symm.trans hb) (by decide)
  · rintro ⟨hg, h⟩
    rw [hg]
    exact List.cons_prefix_cons.mpr ⟨rfl, h⟩

inductive LoneWord where
  | check
  | unique
  deriving DecidableEq

def LoneWord.word : LoneWord → String
  | .check => "CHECK"
  | .unique => "UNIQUE"

inductive WordPair where
  | uniqueKey
  | uniqueIndex
  | primaryKey
  | foreignKey
  | fulltextKey
  | spatialKey
  deriving DecidableEq

def WordPair.words : WordPair → String × String
  | .uniqueKey => ("UNIQUE", "KEY")
  | .uniqueIndex => ("UNIQUE", "INDEX")
  | .primaryKey => ("PRIMARY", "KEY")
  | .foreignKey => ("FOREIGN", "KEY")
  | .fulltextKey => ("FULLTEXT", "KEY")
  | .spatialKey => ("SPATIAL", "KEY")

inductive Opening where
  | lone (word : LoneWord) (written : Written word.word)
  | pair (words : WordPair) (first : Written words.words.1) (gap : Gap) (second : Written words.words.2)

def Opening.text : Opening → List Char
  | .lone _ written => written.text
  | .pair _ first gap second => first.text ++ (gap.text ++ second.text)

inductive Label where
  | absent
  | bare (name : List Char) (ne_nil : name ≠ [])
      (plain : ∀ c ∈ name, Text.isBlank c = false ∧ c ∉ ['\x60', '"', '(', ')', ','])
  | quoted (mark : Char) (name : List Char) (isMark : mark = '\x60' ∨ mark = '"')

namespace Label

def text : Label → List Char
  | .absent => []
  | .bare name _ _ => name
  | .quoted mark name _ => mark :: (name ++ [mark])

def isBare : Label → Bool
  | .bare .. => true
  | _ => false

end Label

/-- A clause with the words of a constraint, a name perhaps, and something in parentheses. -/
structure TableConstraint where
  indent : List Char
  opening : Opening
  blanks : List Char
  label : Label
  gap : List Char
  inner : List Char
  rest : List Char
  blank : ∀ cs ∈ [indent, blanks, gap], ∀ c ∈ cs, Text.isBlank c = true
  apart : label.isBare = true → blanks ≠ []

namespace TableConstraint

def middle (t : TableConstraint) : List Char := t.blanks ++ (t.label.text ++ t.gap)

def text (t : TableConstraint) : List Char :=
  t.indent ++ (t.opening.text ++ (t.middle ++ '(' :: (t.inner ++ ')' :: t.rest)))

/-- The spellings that declare no column: two known words with one space between them, one with the right
character behind it, or a clause without a blank inside. -/
def Recognized (t : TableConstraint) : Prop :=
  match t.opening with
  | .lone .check _ => t.middle.head? = some ' ' ∨ Text.SingleWord (bare t.text)
  | .lone .unique _ =>
    t.middle = [' '] ∨ " KEY".toList <+: Text.toUpper t.middle ∨ Text.SingleWord (bare t.text)
  | .pair words _ gap _ => words ∈ [.uniqueKey, .primaryKey, .foreignKey] ∧ gap.text = [' ']

end TableConstraint

namespace LoneWord

theorem isUpper_word (word : LoneWord) : ∀ c ∈ word.word.toList, c.isUpper = true := by
  cases word <;> simp [LoneWord.word]

theorem word_ne_nil (word : LoneWord) : word.word.toList ≠ [] := by
  cases word <;> simp [LoneWord.word]

end LoneWord

namespace WordPair

theorem isUpper_words (words : WordPair) :
    (∀ c ∈ words.words.1.toList, c.isUpper = true) ∧ ∀ c ∈ words.words.2.toList, c.isUpper = true := by
  cases words <;> simp [WordPair.words]

theorem words_ne_nil (words : WordPair) : words.words.1.toList ≠ [] ∧ words.words.2.toList ≠ [] := by
  cases words <;> simp [WordPair.words]

end WordPair

theorem Opening.exists_cons (o : Opening) : ∃ c more, o.text = c :: more ∧ c.isAlpha = true := by
  cases o with
  | lone word written =>
    obtain ⟨c, more, h⟩ := List.exists_cons_of_ne_nil (written.ne_nil word.word_ne_nil)
    exact ⟨c, more, h, written.isAlpha word.isUpper_word c (h ▸ List.mem_cons_self)⟩
  | pair words first gap second =>
    obtain ⟨c, more, h⟩ := List.exists_cons_of_ne_nil (first.ne_nil words.words_ne_nil.1)
    refine ⟨c, more ++ (gap.text ++ second.text), by rw [Opening.text, h]; rfl, ?_⟩
    exact first.isAlpha words.isUpper_words.1 c (h ▸ List.mem_cons_self)

namespace TableConstraint

variable (t : TableConstraint)

theorem exists_trim_text : ∃ more,
    Text.trim t.text = t.opening.text ++ (t.middle ++ '(' :: more) := by
  have hi : ∀ c ∈ t.indent, Text.isBlank c = true := t.blank _ (by simp)
  obtain ⟨c, word, ho, hc⟩ := t.opening.exists_cons
  have hb : Text.isBlank c = false := Text.isBlank_of_isAlphanum (by simp [Char.isAlphanum, hc])
  have hstart : Text.trimStart (t.opening.text ++ (t.middle ++ '(' :: (t.inner ++ ')' :: t.rest))) =
      t.opening.text ++ (t.middle ++ '(' :: t.inner ++ [')']) ++ t.rest := by
    rw [ho]
    simp [Text.trimStart, hb]
  refine ⟨t.inner ++ ')' :: Text.trimEnd t.rest, ?_⟩
  rw [text, Text.trim_append_of_blank hi, Text.trim, hstart,
    Text.trimEnd_append (c := ')') (by rw [← List.append_assoc]; exact List.getLast?_concat) (by decide)]
  simp

theorem middle_cases : t.middle = [] ∨ ∃ c more, t.middle = c :: more ∧
    (Text.isBlank c = true ∧ more.head? ≠ some '(' ∨ c = '\x60' ∨ c = '"') := by
  have hblanks : ∀ c ∈ t.blanks, Text.isBlank c = true := t.blank _ (by simp)
  have hgap : ∀ c ∈ t.gap, Text.isBlank c = true := t.blank _ (by simp)
  have hopen : ∀ cs : List Char, (∀ c ∈ cs, Text.isBlank c = true) → cs.head? ≠ some '(' := by
    intro cs h ho
    exact absurd (h '(' (List.mem_of_mem_head? ho)) (by decide)
  -- What follows the blanks is the name, or the gap if there is none.
  have hname : (t.label.text ++ t.gap).head? ≠ some '(' := by
    cases t.label with
    | absent => exact hopen t.gap hgap
    | bare name hne hplain =>
      rw [Label.text, List.head?_append_of_ne_nil _ hne]
      intro ho
      exact (hplain '(' (List.mem_of_mem_head? ho)).2 (by simp)
    | quoted mark name hmark =>
      rcases hmark with rfl | rfl <;> simp [Label.text]
  rw [middle]
  cases hb : t.blanks with
  | nil =>
    cases hl : t.label with
    | absent =>
      cases hg : t.gap with
      | nil => exact Or.inl rfl
      | cons c gap =>
        rw [hg] at hgap
        obtain ⟨hc, hgap⟩ := List.forall_mem_cons.mp hgap
        exact Or.inr ⟨c, gap, rfl, Or.inl ⟨hc, hopen gap hgap⟩⟩
    | bare name hne hplain => exact absurd hb (t.apart (by rw [hl]; rfl))
    | quoted mark name hmark => exact Or.inr ⟨mark, _, rfl, Or.inr hmark⟩
  | cons c blanks =>
    rw [hb] at hblanks
    obtain ⟨hc, hblanks⟩ := List.forall_mem_cons.mp hblanks
    refine Or.inr ⟨c, _, rfl, Or.inl ⟨hc, ?_⟩⟩
    cases blanks with
    | nil => exact hname
    | cons d blanks => exact hopen (d :: blanks) hblanks

theorem head_middle {c : Char} {more : List Char} (h : t.middle = c :: more) :
    Text.upper c = [c] ∧ c.isUpper = false := by
  rcases t.middle_cases with hm | ⟨d, rest, hm, hd⟩
  · rw [h] at hm
    exact absurd hm (List.cons_ne_nil _ _)
  · obtain ⟨rfl, rfl⟩ := List.cons.inj (h.symm.trans hm)
    rcases hd with ⟨hb, -⟩ | rfl | rfl
    · exact ⟨Text.upper_of_isBlank hb, Text.isUpper_of_isBlank hb⟩
    · decide
    · decide

section Behind

variable (more : List Char)

theorem isUpper_head?_toUpper :
    ∀ c ∈ (Text.toUpper (t.middle ++ '(' :: more)).head?, c.isUpper = false := by
  cases hm : t.middle with
  | nil =>
    rintro _ ⟨⟩
    decide
  | cons c rest =>
    obtain ⟨hu, hc⟩ := t.head_middle hm
    rw [List.cons_append, Text.toUpper_cons, hu]
    rintro _ ⟨⟩
    exact hc

theorem space_prefix_iff :
    [' '] <+: Text.toUpper (t.middle ++ '(' :: more) ↔ t.middle.head? = some ' ' := by
  cases hm : t.middle with
  | nil =>
    refine iff_of_false (fun h => ?_) (by simp)
    exact absurd (List.cons_prefix_cons.mp h).1 (by decide)
  | cons c rest =>
    obtain ⟨hu, -⟩ := t.head_middle hm
    rw [List.cons_append, Text.toUpper_cons, hu, List.singleton_append, List.cons_prefix_cons,
      List.head?_cons, Option.some.injEq, eq_comm]
    exact and_iff_left List.nil_prefix

theorem spaceParenthesis_prefix_iff :
    [' ', '('] <+: Text.toUpper (t.middle ++ '(' :: more) ↔ t.middle = [' '] := by
  constructor
  · intro h
    have hhead := (t.space_prefix_iff more).mp ((List.prefix_append [' '] ['(']).trans h)
    obtain ⟨rest, hm⟩ := List.head?_eq_some_iff.mp hhead
    rw [hm, List.cons_append, Text.toUpper_cons] at h
    have hopen : ['('] <+: Text.toUpper (rest ++ '(' :: more) := (List.cons_prefix_cons.mp h).2
    cases rest with
    | nil => exact hm
    | cons d rest =>
      -- Only a parenthesis has one in its capitals, and none follows the blank.
      have hd : d = '(' := by
        obtain ⟨u, us, hu⟩ := List.exists_cons_of_ne_nil (Text.upper_ne_nil d)
        rw [List.cons_append, Text.toUpper_cons, hu] at hopen
        obtain ⟨rfl, -⟩ := List.cons_prefix_cons.mp hopen
        exact Text.eq_of_mem_upper (by decide) (by decide) (hu ▸ List.mem_cons_self)
      rcases t.middle_cases with hnil | ⟨c, after, hc, hcase⟩
      · rw [hm] at hnil
        exact absurd hnil (List.cons_ne_nil _ _)
      · obtain ⟨rfl, rfl⟩ := List.cons.inj (hm.symm.trans hc)
        rcases hcase with ⟨-, hnot⟩ | hmark | hmark
        · exact absurd (congrArg some hd) hnot
        · exact absurd hmark (by decide)
        · exact absurd hmark (by decide)
  · intro h
    rw [h]
    exact List.prefix_append _ _

theorem spaceKey_prefix_iff : ' ' :: "KEY".toList <+: Text.toUpper (t.middle ++ '(' :: more) ↔
    " KEY".toList <+: Text.toUpper t.middle := by
  have hkey : ' ' :: "KEY".toList = " KEY".toList := by simp
  rw [hkey, Text.toUpper_append]
  constructor
  · exact Text.prefix_of_prefix_append_cons (by simp)
  · exact fun h => h.trans (List.prefix_append _ _)

end Behind

/-- A single word begins a constraint where the right character follows it. -/
theorem isConstraint_lone {word : LoneWord} {written : Written word.word}
    (ho : t.opening = .lone word written) : isConstraint t.text = true ↔
      (t.middle.head? = some ' ' ∧ word = .check) ∨
        ((t.middle = [' '] ∨ " KEY".toList <+: Text.toUpper t.middle) ∧ word = .unique) := by
  obtain ⟨more, h⟩ := t.exists_trim_text
  have hblank := written.space_notMem_toUpper word.isUpper_word
  rw [isConstraint_eq_startsConstraint, h, ho, Opening.text,
    startsConstraint_append_iff hblank (t.isUpper_head?_toUpper more),
    written.toUpper_text word.isUpper_word]
  cases word with
  | check =>
    rw [LoneWord.word, announces_check, t.space_prefix_iff more]
    simp
  | unique =>
    rw [LoneWord.word, announces_unique, t.spaceKey_prefix_iff more, t.spaceParenthesis_prefix_iff more,
      or_comm]
    simp

/-- Two words begin a constraint where one space stands between them, if they are a known pair. -/
theorem isConstraint_pair {words : WordPair} {first : Written words.words.1} {gap : Gap}
    {second : Written words.words.2} (ho : t.opening = .pair words first gap second) :
    isConstraint t.text = true ↔
      words ∈ [.uniqueKey, .primaryKey, .foreignKey] ∧ gap.text = [' '] := by
  obtain ⟨more, h⟩ := t.exists_trim_text
  obtain ⟨hfirst, hsecond⟩ := words.isUpper_words
  have hblank := first.space_notMem_toUpper hfirst
  have hhead : ∀ c ∈ (Text.toUpper (gap.text ++ (second.text ++ (t.middle ++ '(' :: more)))).head?,
      c.isUpper = false := by
    rw [Text.toUpper_append, Text.toUpper_of_blanks gap.blank]
    exact gap.isUpper_head?_append _
  rw [isConstraint_eq_startsConstraint, h, ho, Opening.text, List.append_assoc, List.append_assoc,
    startsConstraint_append_iff hblank hhead, first.toUpper_text hfirst, Text.toUpper_append,
    Text.toUpper_append, second.toUpper_text hsecond, Text.toUpper_of_blanks gap.blank]
  generalize Text.toUpper (t.middle ++ '(' :: more) = behind
  have hk : Text.isBlank 'K' = false := by decide
  have hp : Text.isBlank '(' = false := by decide
  cases words <;>
    simp [Announces, wholeStarts, spacedStarts, WordPair.words, gap.space_prefix_iff hk,
      gap.space_prefix_iff hp]

theorem not_singleWord_pair {words : WordPair} {first : Written words.words.1} {gap : Gap}
    {second : Written words.words.2} (ho : t.opening = .pair words first gap second) :
    ¬ Text.SingleWord (bare t.text) := by
  obtain ⟨more, h⟩ := t.exists_trim_text
  obtain ⟨hfirst, hsecond⟩ := words.isUpper_words
  obtain ⟨hne₁, hne₂⟩ := words.words_ne_nil
  obtain ⟨b, blanks, hgap⟩ := List.exists_cons_of_ne_nil gap.ne_nil
  have hblank : ∀ {word : String} (w : Written word), (∀ c ∈ word.toList, c.isUpper = true) →
      word.toList ≠ [] → (∃ c ∈ w.text, Text.isBlank c = false) ∧ '\x60' ∉ w.text := by
    intro word w hu hne
    have halpha := w.isAlpha hu
    obtain ⟨c, hc⟩ := List.exists_mem_of_ne_nil w.text (w.ne_nil hne)
    refine ⟨⟨c, hc, Text.isBlank_of_isAlphanum (by simp [Char.isAlphanum, halpha c hc])⟩, ?_⟩
    intro hm
    exact absurd (halpha '\x60' hm) (by decide)
  obtain ⟨⟨c, hc, hcb⟩, htick₁⟩ := hblank first hfirst hne₁
  obtain ⟨⟨d, hd, hdb⟩, htick₂⟩ := hblank second hsecond hne₂
  have htick : '\x60' ∉ gap.text := by
    intro hm
    exact absurd (gap.blank '\x60' hm) (by decide)
  have hbehind : t.middle ++ '(' :: more ≠ [] := by simp
  obtain ⟨after, hdrop⟩ := exists_dropComma_append t.opening.text hbehind
  have hbare : bare t.text = first.text ++ b :: (blanks ++ (second.text ++ unticked after)) := by
    have hun : bare t.text = unticked (t.opening.text ++ after) := by
      rw [bare, h, hdrop]
      rfl
    rw [hun, ho, Opening.text, unticked_append, unticked_append, unticked_append, unticked, unticked, unticked,
      filter_backtick htick₁, filter_backtick htick, filter_backtick htick₂, hgap]
    simp [unticked]
  intro hs
  rcases hs _ _ _ hbare (gap.blank b (hgap ▸ List.mem_cons_self)) with hall | hall
  · exact absurd ((hall c hc).symm.trans hcb) (by decide)
  · have hmem : d ∈ blanks ++ (second.text ++ unticked after) := by simp [hd]
    exact absurd ((hall d hmem).symm.trans hdb) (by decide)

/-- A constraint is told from a column just in the spellings that are recognized. -/
theorem fieldOf?_text_eq_none_iff : fieldOf? t.text = none ↔ t.Recognized := by
  rw [fieldOf?_eq_none_iff, Recognized]
  cases ho : t.opening with
  | lone word written =>
    rw [t.isConstraint_lone ho]
    cases word with
    | check => simp
    | unique => simp [or_assoc]
  | pair words first gap second =>
    rw [t.isConstraint_pair ho]
    exact or_iff_left (t.not_singleWord_pair ho)

inductive Entry where
  | constraint (t : TableConstraint)
  | other (clause : List Char)

def Entry.text : Entry → List Char
  | .constraint t => t.text
  | .other clause => clause

def Entry.other? : Entry → Option (List Char)
  | .constraint _ => none
  | .other clause => some clause

/-- The fields of all clauses are those of the other clauses and, in between, those of the constraints that are
taken for columns. -/
theorem filterMap_entries (entries : List Entry) :
    ((entries.filterMap Entry.other?).filterMap fieldOf?).Sublist
        ((entries.map Entry.text).filterMap fieldOf?) ∧
      ((entries.map Entry.text).filterMap fieldOf? =
          (entries.filterMap Entry.other?).filterMap fieldOf? ↔
        ∀ t, .constraint t ∈ entries → t.Recognized) := by
  induction entries with
  | nil => simp
  | cons entry entries ih =>
    obtain ⟨hsub, hiff⟩ := ih
    cases entry with
    | constraint t =>
      have hother : Entry.other? (.constraint t) = none := rfl
      have hall : (∀ u, .constraint u ∈ Entry.constraint t :: entries → u.Recognized) ↔
          t.Recognized ∧ ∀ u, .constraint u ∈ entries → u.Recognized := by
        simp
      rw [List.filterMap_cons_none hother, List.map_cons, Entry.text, hall, ← hiff]
      cases hf : fieldOf? t.text with
      | none =>
        have hr : t.Recognized := t.fieldOf?_text_eq_none_iff.mp hf
        rw [List.filterMap_cons_none hf]
        exact ⟨hsub, (and_iff_right hr).symm⟩
      | some f =>
        have hr : ¬ t.Recognized := by
          rw [← t.fieldOf?_text_eq_none_iff, hf]
          simp
        rw [List.filterMap_cons_some hf]
        refine ⟨hsub.cons f, iff_of_false ?_ fun h => hr h.1⟩
        intro he
        have hle := hsub.length_le
        rw [← he, List.length_cons] at hle
        omega
    | other clause =>
      have hother : Entry.other? (.other clause) = some clause := rfl
      have hall : (∀ u, .constraint u ∈ Entry.other clause :: entries → u.Recognized) ↔
          ∀ u, .constraint u ∈ entries → u.Recognized := by
        simp
      rw [List.filterMap_cons_some hother, List.map_cons, Entry.text, hall, ← hiff]
      cases hf : fieldOf? clause with
      | none =>
        rw [List.filterMap_cons_none hf, List.filterMap_cons_none hf]
        exact ⟨hsub, Iff.rfl⟩
      | some f =>
        rw [List.filterMap_cons_some hf, List.filterMap_cons_some hf]
        exact ⟨hsub.cons_cons f, by simp⟩

/-- A constraint is told from a column just in the spellings that are recognized, and a body has the fields of
its other clauses just where all its constraints are so spelled. -/
theorem unlisted_iff_recognized (t : TableConstraint) : (fieldOf? t.text = none ↔ t.Recognized) ∧
    ∀ (body : List Char) (entries : List Entry), clauses body = entries.map Entry.text →
      (fieldsOf body = (entries.filterMap Entry.other?).filterMap fieldOf? ↔
        ∀ u, .constraint u ∈ entries → u.Recognized) := by
  refine ⟨t.fieldOf?_text_eq_none_iff, ?_⟩
  intro body entries h
  rw [fieldsOf, h]
  exact (filterMap_entries entries).2

def capitals (word : String) : Written word := ⟨word.toList, beq_self_eq_true _⟩

def space : Gap := ⟨[' '], List.cons_ne_nil _ _, Text.isBlank_of_mem_space⟩

def paired (words : WordPair) : Opening :=
  .pair words (capitals words.words.1) space (capitals words.words.2)

def unnamed (opening : Opening) (gap inner : List Char) (h : ∀ c ∈ gap, Text.isBlank c = true) :
    TableConstraint where
  indent := []
  opening := opening
  blanks := []
  label := .absent
  gap := gap
  inner := inner
  rest := []
  blank := by simpa using h
  apart := by simp [Label.isBare]

def uniqueColumns : TableConstraint :=
  unnamed (.lone .unique (capitals _)) [] "a, b".toList (by simp)

def positive : TableConstraint := unnamed (.lone .check (capitals _)) [] "a > 0".toList (by simp)

def uniqueIndex : TableConstraint := unnamed (paired .uniqueIndex) [] "a".toList (by simp)

def fulltextKey : TableConstraint := unnamed (paired .fulltextKey) space.text "a".toList space.blank

def spaced : TableConstraint := unnamed (.lone .unique (capitals _)) space.text "a, b".toList space.blank

def foreignKey : TableConstraint := unnamed (paired .foreignKey) [] "a".toList (by simp)

theorem unlisted_spaced :
    fieldsOf "a INT, UNIQUE (a, b),\nFOREIGN KEY(a)".toList = [⟨"a", "INT", true⟩] ∧
      spaced.Recognized ∧ foreignKey.Recognized := by
  have hc : clauses "a INT, UNIQUE (a, b),\nFOREIGN KEY(a)".toList =
      [.other "a INT".toList, .constraint spaced, .constraint foreignKey].map Entry.text := by decide +kernel
  obtain ⟨hnone, hbody⟩ := unlisted_iff_recognized spaced
  have hspaced : spaced.Recognized := hnone.mp (by decide +kernel)
  have hforeign : foreignKey.Recognized := (unlisted_iff_recognized foreignKey).1.mp (by decide +kernel)
  have hf := (hbody _ _ hc).mpr (by simp [hspaced, hforeign])
  refine ⟨?_, hspaced, hforeign⟩
  rw [hf]
  decide +kernel

/-- Constraints without a space before the parenthesis, and with other words, are listed as columns. -/
theorem listed_unspaced :
    uniqueColumns.text = "UNIQUE(a, b)".toList ∧ positive.text = "CHECK(a > 0)".toList ∧
      uniqueIndex.text = "UNIQUE INDEX(a)".toList ∧ fulltextKey.text = "FULLTEXT KEY (a)".toList ∧
      fieldsOf "UNIQUE(a, b), CHECK(a > 0),\nUNIQUE INDEX(a), FULLTEXT KEY (a)".toList =
        [⟨"UNIQUE(a,", "b)", true⟩, ⟨"CHECK(a", ">", true⟩, ⟨"UNIQUE", "INDEX(a)", true⟩,
          ⟨"FULLTEXT", "KEY", true⟩] ∧
      ¬ ∀ t : TableConstraint, fieldOf? t.text = none := by
  refine ⟨by decide +kernel, by decide +kernel, by decide +kernel, by decide +kernel, by decide +kernel, ?_⟩
  intro h
  exact absurd (h uniqueColumns) (by decide +kernel)

end TableConstraint

end TableLoader.Dump
