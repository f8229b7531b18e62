import TableLoader.Proofs.Cell.Fitting
import TableLoader.Proofs.Cell.Labels
import TableLoader.Proofs.Text.Lines

/-! # Types of several words

A declared type may be a phrase, such as `double precision` or `character varying(10)`. Its class is the first of
those of its words, and it bounds the length of its values if one of its words holds `char` and the last one has a
length. So the first word alone says the same only as long as none of the others comes before it, and a bound is
lost with the length. -/
namespace TableLoader.SqlType

open Text (holds toLower isBlank)

/-- Words, the last of which may have a length. -/
structure Phrase where
  first : List Char
  others : List (List Char)
  length : Option (List Char)
  plain : ∀ w ∈ first :: others, w ≠ [] ∧ ∀ c ∈ w, isBlank c = false ∧ c ∉ ['\x60', '(', ',']
  digits : ∀ n ∈ length, n ≠ [] ∧ ∀ c ∈ n, c.isDigit = true

namespace Phrase

variable (t : Phrase)

def words : List (List Char) := t.first :: t.others

def measure : List Char :=
  match t.length with
  | none => []
  | some n => '(' :: (n ++ [')'])

def spaced : List Char := t.first ++ t.others.flatMap (' ' :: ·)

def text : List Char := t.spaced ++ t.measure

def head : List Char := if t.others = [] then t.text else t.first

section Layout

theorem isBlank_word {w : List Char} (hw : w ∈ t.words) : ∀ c ∈ w, isBlank c = false :=
  fun c hc => ((t.plain w hw).2 c hc).1

theorem notMem_word {w : List Char} (hw : w ∈ t.words) {x : Char} (hx : x ∈ ['\x60', '(', ',']) : x ∉ w :=
  fun hm => ((t.plain w hw).2 x hm).2 hx

theorem measure_cases :
    t.measure = [] ∨ ∃ n, t.measure = '(' :: (n ++ [')']) ∧ ∀ c ∈ n, c.isDigit = true := by
  unfold measure
  cases h : t.length with
  | none => exact Or.inl rfl
  | some n => exact Or.inr ⟨n, rfl, (t.digits n h).2⟩

theorem isBlank_measure : ∀ c ∈ t.measure, isBlank c = false := by
  intro c hc
  rcases t.measure_cases with hm | ⟨n, hm, hn⟩ <;> rw [hm] at hc
  · exact absurd hc List.not_mem_nil
  · simp only [List.mem_cons, List.mem_append, List.not_mem_nil, or_false] at hc
    rcases hc with rfl | hc | rfl
    · decide
    · exact Text.isBlank_of_isAlphanum (by simp [Char.isAlphanum, hn c hc])
    · decide

theorem backtick_notMem_text : '\x60' ∉ t.text := by
  have hwords : ∀ w ∈ t.words, '\x60' ∉ w := fun w hw => t.notMem_word hw (by simp)
  have hmeasure : '\x60' ∉ t.measure := by
    rcases t.measure_cases with hm | ⟨n, hm, hn⟩ <;> rw [hm]
    · exact List.not_mem_nil
    · have hdigits : '\x60' ∉ n := fun hmem => absurd (hn '\x60' hmem) (by decide)
      simp [hdigits]
  obtain ⟨hfirst, hothers⟩ := List.forall_mem_cons.mp hwords
  simpa [text, spaced, hfirst, hmeasure] using hothers

theorem exists_last_spaced :
    ∃ last, t.spaced.getLast? = some last ∧ isBlank last = false ∧ last ≠ ',' := by
  have hall : ∀ (others : List (List Char)) (first : List Char),
      (∀ w ∈ first :: others, w ≠ [] ∧ ∀ c ∈ w, isBlank c = false ∧ c ∉ ['\x60', '(', ',']) →
        ∃ last, (first ++ others.flatMap (' ' :: ·)).getLast? = some last ∧
          isBlank last = false ∧ last ≠ ',' := by
    intro others
    induction others with
    | nil =>
      intro first h
      obtain ⟨hne, hplain⟩ := h first List.mem_cons_self
      obtain ⟨hblank, hmark⟩ := hplain _ (List.getLast_mem hne)
      refine ⟨first.getLast hne, by simp [List.getLast?_eq_some_getLast hne], hblank, ?_⟩
      rintro he
      exact hmark (by simp [he])
    | cons w others ih =>
      intro first h
      obtain ⟨last, hlast, hplain⟩ := ih w fun u hu => h u (List.mem_cons_of_mem _ hu)
      have hne : w ++ others.flatMap (' ' :: ·) ≠ [] := by
        intro he
        rw [he] at hlast
        exact absurd hlast (by simp)
      refine ⟨last, ?_, hplain⟩
      rw [List.flatMap_cons, List.cons_append, List.getLast?_append_of_ne_nil _ (List.cons_ne_nil _ _),
        List.getLast?_cons_of_ne_nil hne, hlast]
  exact hall t.others t.first t.plain

theorem exists_last_text : ∃ last, t.text.getLast? = some last ∧ isBlank last = false ∧ last ≠ ',' := by
  rcases t.measure_cases with hm | ⟨n, hm, -⟩
  · rw [text, hm, List.append_nil]
    exact t.exists_last_spaced
  · refine ⟨')', ?_, by decide, by decide⟩
    rw [text, hm, ← List.cons_append, ← List.append_assoc, List.getLast?_concat]

theorem head_plain : t.head ≠ [] ∧ ∀ c ∈ t.head, isBlank c = false := by
  have hne : t.first ≠ [] := (t.plain t.first List.mem_cons_self).1
  have hfirst := t.isBlank_word List.mem_cons_self
  unfold head
  split
  · next h =>
    have ht : t.text = t.first ++ t.measure := by simp [text, spaced, h]
    rw [ht]
    exact ⟨List.append_ne_nil_of_left_ne_nil hne _, List.forall_mem_append.mpr ⟨hfirst, t.isBlank_measure⟩⟩
  · exact ⟨hne, hfirst⟩

theorem exists_head_append : ∃ rest, t.text = t.head ++ rest ∧ ∀ c ∈ rest.head?, c = ' ' := by
  unfold head
  split
  · exact ⟨[], (List.append_nil _).symm, by simp⟩
  · next h =>
    obtain ⟨w, others, ho⟩ := List.exists_cons_of_ne_nil h
    refine ⟨' ' :: (w ++ others.flatMap (' ' :: ·) ++ t.measure), by simp [text, spaced, ho], ?_⟩
    rintro _ ⟨⟩
    rfl

end Layout

section Keywords

variable {word : List Char} (hne : word ≠ []) (hl : ∀ c ∈ word, c.isLower = true)

include hl

theorem holds_spaced : holds word (toLower t.spaced) = t.words.any fun w => holds word (toLower w) := by
  have hspace : Text.lower ' ' = [' '] := by decide
  have hall : ∀ (others : List (List Char)) (first : List Char),
      holds word (toLower (first ++ others.flatMap (' ' :: ·))) =
        (first :: others).any fun w => holds word (toLower w) := by
    intro others
    induction others with
    | nil => simp
    | cons w others ih =>
      intro first
      rw [List.flatMap_cons, List.cons_append, Text.toLower_append, Text.toLower_cons, hspace,
        List.singleton_append, Text.holds_append_cons (notMem_of_isLower hl (by decide)), ih]
      rfl
  exact hall t.others t.first

include hne

theorem holds_append_measure (cs : List Char) :
    holds word (toLower (cs ++ t.measure)) = holds word (toLower cs) := by
  cases hlen : t.length with
  | none => rw [measure, hlen, List.append_nil]
  | some n =>
    have hopen : Text.lower '(' = ['('] := by decide
    have hdigits : ∀ c ∈ n, c.isDigit = true := (t.digits n hlen).2
    have hmarks : ∀ c ∈ n ++ [')'], c ∉ word := by
      intro c hc
      rcases List.mem_append.mp hc with hc | hc
      · exact notMem_of_isLower hl (Text.isLower_of_isDigit (hdigits c hc))
      · exact notMem_of_isLower hl (by rw [List.mem_singleton.mp hc]; decide)
    have hself : toLower (n ++ [')']) = n ++ [')'] := by
      apply Text.toLower_eq_self
      intro c hc
      rcases List.mem_append.mp hc with hc | hc
      · exact Text.lower_of_isDigit (hdigits c hc)
      · rw [List.mem_singleton.mp hc]
        decide
    have hinner : holds word (toLower (n ++ [')'])) = false := by
      have hdisjoint := Text.holds_append_of_disjoint hne hmarks []
      rw [List.append_nil] at hdisjoint
      rw [hself, hdisjoint]
      simpa [holds] using hne
    rw [measure, hlen, Text.toLower_append, Text.toLower_cons, hopen, List.singleton_append,
      Text.holds_append_cons (notMem_of_isLower hl (by decide)), hinner, Bool.or_false]

theorem holds_text : holds word (toLower t.text) = t.words.any fun w => holds word (toLower w) := by
  rw [text, t.holds_append_measure hne hl, t.holds_spaced hl]

theorem holds_head : holds word (toLower t.head) = holds word (toLower t.first) := by
  unfold head
  split
  · next h => simp [t.holds_text hne hl, words, h]
  · rfl

end Keywords

section Classes

theorem category_head :
    (parse (String.ofList t.head)).category = (parse (String.ofList t.first)).category := by
  have h := firstOf_category t.head (List.cons_ne_nil t.first [])
    (fun word hw => by simpa using t.holds_head (keywords_lower word hw).1 (keywords_lower word hw).2)
  exact List.mem_singleton.mp h.1

theorem intWidth_head :
    (parse (String.ofList t.head)).intWidth = (parse (String.ofList t.first)).intWidth := by
  have h := firstOf_intWidth t.head (List.cons_ne_nil t.first [])
    (fun word hw => by simpa using t.holds_head (keywords_lower word hw).1 (keywords_lower word hw).2)
  exact List.mem_singleton.mp h.1

/-- The first word has the category of the phrase unless another word has an earlier one. -/
theorem category_head_eq_iff :
    (parse (String.ofList t.head)).category = (parse (String.ofList t.text)).category ↔
      ∀ w ∈ t.others, (parse (String.ofList t.first)).category.rank ≤
        (parse (String.ofList w)).category.rank := by
  have h := firstOf_category t.text (List.cons_ne_nil t.first t.others)
    (fun word hw => t.holds_text (keywords_lower word hw).1 (keywords_lower word hw).2)
  rw [category_head, eq_comm, h.eq_head_iff rank_injective, List.forall_mem_map]

theorem intWidth_head_eq_iff :
    (parse (String.ofList t.head)).intWidth = (parse (String.ofList t.text)).intWidth ↔
      ∀ w ∈ t.others, IntWidth.rank (parse (String.ofList t.first)).intWidth ≤
        IntWidth.rank (parse (String.ofList w)).intWidth := by
  have h := firstOf_intWidth t.text (List.cons_ne_nil t.first t.others)
    (fun word hw => t.holds_text (keywords_lower word hw).1 (keywords_lower word hw).2)
  rw [intWidth_head, eq_comm, h.eq_head_iff intWidth_rank_injective, List.forall_mem_map]

end Classes

section Lengths

theorem firstDigitGroup?_append {cs : List Char} (h : '(' ∉ cs) (rest : List Char) :
    firstDigitGroup? (cs ++ rest) = firstDigitGroup? rest := by
  induction cs with
  | nil => rfl
  | cons c cs ih =>
    have hc : c ≠ '(' := fun hc => h (hc ▸ List.mem_cons_self)
    rw [List.cons_append, firstDigitGroup?, if_neg fun hgroup => hc hgroup.1,
      ih fun hm => h (List.mem_cons_of_mem c hm)]

theorem firstDigitGroup?_measure : firstDigitGroup? (toLower t.measure) = t.length := by
  cases hlen : t.length with
  | none => rw [measure, hlen]; rfl
  | some n =>
    obtain ⟨hne, hdigits⟩ := t.digits n hlen
    have hself : toLower ('(' :: (n ++ [')'])) = '(' :: (n ++ [')']) := by
      apply Text.toLower_eq_self
      intro c hc
      simp only [List.mem_cons, List.mem_append, List.not_mem_nil, or_false] at hc
      rcases hc with rfl | hc | rfl
      · decide
      · exact Text.lower_of_isDigit (hdigits c hc)
      · decide
    have hdecimal : ∀ c ∈ n, Text.isDecimalDigit c = true := by
      intro c hc
      obtain ⟨-, hle⟩ := Text.toNat_of_isAlphanum (c := c) (by simp [Char.isAlphanum, hdigits c hc])
      rw [Text.isDecimalDigit, if_pos (by omega), hdigits c hc]
    have htake : (n ++ [')']).takeWhile Text.isDecimalDigit = n :=
      (Text.takeWhile_append_stop hdecimal (by rintro _ ⟨⟩; decide)).1
    rw [measure, hlen]
    simp only [hself]
    rw [firstDigitGroup?]
    simp only [htake, List.drop_left]
    exact if_pos ⟨trivial, hne, rfl⟩

theorem parenthesis_notMem_spaced : '(' ∉ t.spaced := by
  have hfirst : '(' ∉ t.first := t.notMem_word List.mem_cons_self (by simp)
  have hothers : ∀ w ∈ t.others, '(' ∉ w := fun w hw => t.notMem_word (List.mem_cons_of_mem _ hw) (by simp)
  simpa [spaced, hfirst] using hothers

theorem maxLength_text : (parse (String.ofList t.text)).maxLength =
    if t.words.any (fun w => holds "char".toList (toLower w)) then t.length.bind boundOfDigits? else none := by
  have hspaced : '(' ∉ toLower t.spaced :=
    Text.notMem_toLower (by decide) (by decide) t.parenthesis_notMem_spaced
  simp only [parse, maxLengthOf, String.toList_ofList]
  rw [t.holds_text (by simp) (by simp), text, Text.toLower_append, firstDigitGroup?_append hspaced,
    t.firstDigitGroup?_measure]

theorem maxLength_head (h : t.others ≠ []) : (parse (String.ofList t.head)).maxLength = none := by
  have hfirst : '(' ∉ toLower t.first :=
    Text.notMem_toLower (by decide) (by decide) (t.notMem_word List.mem_cons_self (by simp))
  have hnone : firstDigitGroup? (toLower t.first) = none := by
    have happ := firstDigitGroup?_append hfirst []
    rwa [List.append_nil] at happ
  simp [parse, maxLengthOf, head, h, hnone]

theorem boundOfDigits?_eq_none_iff {n : List Char} (h : ∀ c ∈ n, c.isDigit = true) :
    boundOfDigits? n = none ↔ twoTo 64 ≤ natOfDigits n := by
  have hall : n.all Char.isDigit = true := List.all_eq_true.mpr h
  simp [boundOfDigits?, hall]

/-- With further words a bound is lost, if there is one. -/
theorem maxLength_head_eq_iff :
    (parse (String.ofList t.head)).maxLength = (parse (String.ofList t.text)).maxLength ↔
      t.others = [] ∨ ∀ n ∈ t.length, twoTo 64 ≤ natOfDigits n ∨
        ∀ w ∈ t.words, holds "char".toList (toLower w) = false := by
  by_cases ho : t.others = []
  · rw [head, if_pos ho]
    exact iff_of_true rfl (Or.inl ho)
  · rw [or_iff_right ho, t.maxLength_head ho, t.maxLength_text, eq_comm]
    cases hc : t.words.any fun w => holds "char".toList (toLower w) with
    | false =>
      refine iff_of_true (if_neg Bool.false_ne_true) ?_
      intro n _
      exact Or.inr (by simpa using hc)
    | true =>
      rw [if_pos rfl]
      cases hlen : t.length with
      | none => exact iff_of_true rfl (by simp)
      | some n =>
        obtain ⟨w, hw, hchar⟩ := List.any_eq_true.mp hc
        rw [Option.bind_some, boundOfDigits?_eq_none_iff (t.digits n hlen).2]
        constructor
        · rintro h _ ⟨⟩
          exact Or.inl h
        · intro h
          refine (h n rfl).resolve_right fun hall => ?_
          exact Bool.false_ne_true ((hall w hw).symm.trans hchar)

end Lengths

end Phrase

theorem checkCell_eq_none_congr {t u : SqlType} (hc : t.category = u.category)
    (hw : t.intWidth = u.intWidth) (hm : t.maxLength = u.maxLength) (cell : Cell) (field : Field) :
    checkCell cell field t = none ↔ checkCell cell field u = none := by
  have hnumber : ∀ cs, checkNumber t cs = checkNumber u cs := by simp [checkNumber, hw]
  have hzero : ∀ cs, t.isZeroDate cs = u.isZeroDate cs := by simp [isZeroDate, isDatetime, hc]
  have hnumeric : t.isNumeric = u.isNumeric := by simp [isNumeric, hc]
  rw [checkCell_eq_none_iff, checkCell_eq_none_iff, checkLength_eq_none_iff, checkLength_eq_none_iff, hnumber,
    hzero, hnumeric, hm]

end TableLoader.SqlType
