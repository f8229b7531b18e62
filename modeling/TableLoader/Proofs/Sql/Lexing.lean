import TableLoader.Proofs.Text.LetterCase
import TableLoader.Proofs.Text.Lines
import TableLoader.Sql.Lexer

/-! # Tokens of plain texts

The first token of a text and the tokens of the rest are the tokens of the text. For MySQL the first token is
known when the text begins with a word of letters, a name between backticks, digits, a mark or a blank, and
what follows cannot belong to it. -/
namespace TableLoader.Sql

/-- The tokens of a text, whatever stood before it and however much more fuel there is than it needs. -/
def Yields (d : Dialect) (cs : List Char) (ts : List Token) : Prop :=
  ∀ before fuel, cs.length ≤ fuel → readTokens d fuel before cs = some ts

namespace Yields

variable {d : Dialect} {cs rest : List Char} {ts : List Token}

theorem nil (d : Dialect) : Yields d [] [] := by
  intro before fuel _
  cases fuel <;> rfl

theorem token {t : Token} (hr : ∀ before, readToken d before cs = some (some t, rest))
    (hl : rest.length < cs.length) (h : Yields d rest ts) : Yields d cs (t :: ts) := by
  intro before fuel hf
  obtain ⟨c, cs, rfl⟩ := List.exists_cons_of_length_pos (by omega : 0 < cs.length)
  cases fuel with
  | zero => simp at hf
  | succ fuel =>
    rw [List.length_cons] at hf hl
    have ht := h (.ofToken t) fuel (by omega)
    simp only [readTokens, hr, ht, Option.map_some]

theorem skip (hr : ∀ before, readToken d before cs = some (none, rest))
    (hl : rest.length < cs.length) (h : Yields d rest ts) : Yields d cs ts := by
  intro before fuel hf
  obtain ⟨c, cs, rfl⟩ := List.exists_cons_of_length_pos (by omega : 0 < cs.length)
  cases fuel with
  | zero => simp at hf
  | succ fuel =>
    rw [List.length_cons] at hf hl
    rw [readTokens, hr]
    exact h .other fuel (by omega)

theorem tokens? (h : Yields d cs ts) : tokens? d cs = some ts := h .other cs.length le_rfl

end Yields

theorem notMem_of_isAlphanum {c : Char} (hc : c.isAlphanum = true) {marks : List Char}
    (hm : marks.all (fun x => !x.isAlphanum) = true) : c ∉ marks := by
  intro h
  have hx := List.all_eq_true.mp hm c h
  simp [hc] at hx

theorem isWhitespace_of_isAlphanum {c : Char} (h : c.isAlphanum = true) :
    c.isWhitespace = false := by
  have hm : c ∉ [' ', '\t', '\r', '\n'] := notMem_of_isAlphanum h (by decide)
  simpa [Char.isWhitespace, and_assoc] using hm

/-- A string literal begins with a quote, or with a letter that announces one. -/
theorem stringStart?_eq_none {d : Dialect} {c : Char} {cs : List Char} (hc : c ∉ ['\'', '\"'])
    (h : c.toLower ∉ ['b', 'r', 'n', 'e', 'x', 'u'] ∨
      ∀ next ∈ cs.head?, next ∉ ['\'', '\"', '&']) :
    stringStart? d (c :: cs) = none := by
  unfold stringStart?
  split <;> simp_all

theorem word_ends {c : Char} (hc : c ∈ [' ', '\n', '(', ')', ',', ';']) (cs : List Char) :
    ∀ x ∈ (c :: cs).head?, Dialect.isWordPart .mysql x = false := by
  rintro _ ⟨⟩
  simp only [List.mem_cons, List.not_mem_nil, or_false] at hc
  rcases hc with rfl | rfl | rfl | rfl | rfl | rfl <;> rfl

theorem takeNumber_mysql (p : Char → Bool) (cs : List Char) :
    takeNumber .mysql p cs = cs.takeWhile p := by
  induction cs with
  | nil => rfl
  | cons c cs ih =>
    rw [takeNumber, ih]
    by_cases h : p c = true <;> simp [h]

theorem readQuoted_append {quote : Char} {name rest : List Char} (hn : quote ∉ name)
    (hr : rest.head? ≠ some quote) :
    readQuoted quote (name ++ quote :: rest) = some (name, rest) := by
  induction name with
  | nil =>
    cases rest with
    | nil => simp [readQuoted]
    | cons c rest =>
      have hc : c ≠ quote := fun he => hr (by simp [he])
      simp [readQuoted, hc]
  | cons c name ih =>
    have hc : c ≠ quote := fun he => hn (he ▸ List.mem_cons_self)
    have ih := ih fun hm => hn (List.mem_cons_of_mem _ hm)
    obtain ⟨next, more, hs⟩ := List.exists_cons_of_ne_nil
      (show name ++ quote :: rest ≠ [] by simp)
    rw [List.cons_append, hs, readQuoted, if_neg hc, ← hs, ih]
    rfl

theorem closingQuote?_mysql {c : Char} (h : c ≠ '\x60') :
    Dialect.closingQuote? .mysql c = none := by
  unfold Dialect.closingQuote?
  split <;> simp_all

theorem readToken_blank {c : Char} (hc : c = ' ' ∨ c = '\n') (before : Before)
    (rest : List Char) : readToken .mysql before (c :: rest) = some (none, rest) := by
  have hs : stringStart? .mysql (c :: rest) = none := by
    rcases hc with rfl | rfl <;> exact stringStart?_eq_none (by decide) (Or.inl (by decide))
  rcases hc with rfl | rfl <;> simp [readToken, hs]

theorem readToken_mark {c : Char} (hc : c ∈ ['(', ')', ',', ';']) (before : Before)
    (rest : List Char) :
    readToken .mysql before (c :: rest) = some (some (.symbol (String.singleton c)), rest) := by
  simp only [List.mem_cons, List.not_mem_nil, or_false] at hc
  have hm : readMark .mysql (c :: rest) = some (.symbol (String.singleton c), rest) := by
    rcases hc with rfl | rfl | rfl | rfl <;> rfl
  have hs : stringStart? .mysql (c :: rest) = none := by
    rcases hc with rfl | rfl | rfl | rfl <;>
      exact stringStart?_eq_none (by decide) (Or.inl (by decide))
  rcases hc with rfl | rfl | rfl | rfl <;>
    simp [readToken, hs, hm, Dialect.closingQuote?, Dialect.isWordStart, Text.isBlank]

theorem readToken_name {name rest : List Char} (hn : '\x60' ∉ name)
    (hr : rest.head? ≠ some '\x60') (before : Before) :
    readToken .mysql before ('\x60' :: (name ++ '\x60' :: rest)) =
      some (some (.quotedWord '\x60' name), rest) := by
  have hs : stringStart? .mysql ('\x60' :: (name ++ '\x60' :: rest)) = none :=
    stringStart?_eq_none (by decide) (Or.inl (by decide))
  simp [readToken, hs, Dialect.closingQuote?, readQuoted_append hn hr]

theorem readToken_letter {c : Char} {cs : List Char} (hc : c.isAlpha = true ∨ c = '_')
    (hs : stringStart? .mysql (c :: cs) = none) (before : Before) :
    readToken .mysql before (c :: cs) =
      some (some (.bareWord (c :: cs.takeWhile (Dialect.isWordPart .mysql))),
        cs.dropWhile (Dialect.isWordPart .mysql)) := by
  have hm : c ∉ ['-', '/', '.', '#', '@', '?', '\x60'] := by
    rcases hc with hc | rfl
    · exact notMem_of_isAlphanum (by simp [Char.isAlphanum, hc]) (by decide)
    · decide
  simp only [List.mem_cons, List.not_mem_nil, or_false, not_or] at hm
  obtain ⟨hdash, hslash, hdot, hsharp, hat, hask, hquote⟩ := hm
  have hw : Dialect.isWordStart .mysql c = true := by
    rcases hc with hc | rfl <;> simp [Dialect.isWordStart, *]
  have hd : c.isDigit = false ∧ c.isWhitespace = false := by
    rcases hc with hc | rfl
    · exact ⟨Text.isDigit_of_isAlpha hc, isWhitespace_of_isAlphanum (by simp [Char.isAlphanum, hc])⟩
    · decide
  simp [readToken, hs, closingQuote?_mysql hquote, hw, hdash, hslash, hdot, hsharp, hat, hask,
    hd.1, hd.2]

/-- A word is read whole. What stands behind its first character keeps that from announcing a string. -/
theorem readToken_identifier {c : Char} {w rest : List Char} (hc : c.isAlpha = true ∨ c = '_')
    (hw : ∀ x ∈ w, x.isAlphanum = true ∨ x = '_')
    (hq : ∀ next ∈ (w ++ rest).head?, next ∉ ['\'', '\"', '&'])
    (hr : ∀ x ∈ rest.head?, Dialect.isWordPart .mysql x = false) (before : Before) :
    readToken .mysql before (c :: (w ++ rest)) = some (some (.bareWord (c :: w)), rest) := by
  have hs : stringStart? .mysql (c :: (w ++ rest)) = none := by
    refine stringStart?_eq_none ?_ (Or.inr hq)
    rcases hc with hc | rfl
    · exact notMem_of_isAlphanum (by simp [Char.isAlphanum, hc]) (by decide)
    · decide
  have hp : ∀ x ∈ w, Dialect.isWordPart .mysql x = true := by
    intro x hx
    rcases hw x hx with h | rfl
    · simp only [Char.isAlphanum, Bool.or_eq_true] at h
      rcases h with h | h <;> simp [Dialect.isWordPart, Dialect.isWordStart, h]
    · rfl
  obtain ⟨ht, hd⟩ := Text.takeWhile_append_stop hp hr
  rw [readToken_letter hc hs, ht, hd]

/-- The second letter keeps the first one from announcing a string. -/
theorem readToken_word {w rest : List Char} (hw : ∀ c ∈ w, c.isAlpha = true) (hl : 1 < w.length)
    (hr : ∀ c ∈ rest.head?, Dialect.isWordPart .mysql c = false) (before : Before) :
    readToken .mysql before (w ++ rest) = some (some (.bareWord w), rest) := by
  match w, hl with
  | c :: next :: w, _ =>
    obtain ⟨hc, hw⟩ := List.forall_mem_cons.mp hw
    have ha : ∀ x ∈ next :: w, x.isAlphanum = true := by
      intro x hx
      simp [Char.isAlphanum, hw x hx]
    refine readToken_identifier (Or.inl hc) (fun x hx => Or.inl (ha x hx)) ?_ hr before
    rintro _ ⟨⟩
    exact notMem_of_isAlphanum (ha next List.mem_cons_self) (by decide)

theorem readNumber_digits {ds rest : List Char} (hne : ds ≠ [])
    (hd : ∀ c ∈ ds, c.isDigit = true) {stop : Char} (hs : stop = ',' ∨ stop = ')')
    (before : Before) :
    readNumber .mysql before (ds ++ stop :: rest) =
      some (.number (String.ofList ds), stop :: rest) := by
  have hstop : ∀ c ∈ (stop :: rest).head?, c.isDigit = false := by
    rcases hs with rfl | rfl <;> simp
  obtain ⟨ht, -⟩ := Text.takeWhile_append_stop hd hstop
  obtain ⟨c, cs, rfl⟩ := List.exists_cons_of_ne_nil hne
  have hdot : c ≠ '.' := by
    rintro rfl
    exact absurd (hd '.' List.mem_cons_self) (by decide)
  have hdrop : (c :: cs ++ stop :: rest).drop (c :: cs).length = stop :: rest := List.drop_left
  unfold readNumber
  split
  · next he => exact absurd (List.cons.inj he).1 hdot
  · simp only [takeNumber_mysql, ht, hdrop]
    split
    · next he => rcases hs with rfl | rfl <;> simp at he
    · rcases hs with rfl | rfl <;>
        simp [takeExponent, Dialect.isWordPart, Dialect.isWordStart, hdot]

theorem readToken_digits {ds rest : List Char} (hne : ds ≠ []) (hd : ∀ c ∈ ds, c.isDigit = true)
    {stop : Char} (hs : stop = ',' ∨ stop = ')') (before : Before) :
    readToken .mysql before (ds ++ stop :: rest) =
      some (some (.number (String.ofList ds)), stop :: rest) := by
  have hr : readNumber .mysql before (ds ++ stop :: rest) = _ :=
    readNumber_digits hne hd hs before
  obtain ⟨c, cs, rfl⟩ := List.exists_cons_of_ne_nil hne
  have hc := hd c List.mem_cons_self
  have ha : c.isAlphanum = true := by simp [Char.isAlphanum, hc]
  have hq : stringStart? .mysql (c :: (cs ++ stop :: rest)) = none := by
    refine stringStart?_eq_none (notMem_of_isAlphanum ha (by decide)) (Or.inl ?_)
    rw [Text.toLower_of_isDigit hc]
    intro hm
    have hl : ∀ x ∈ ['b', 'r', 'n', 'e', 'x', 'u'], x.isDigit = false := by simp
    exact Bool.false_ne_true ((hl c hm).symm.trans hc)
  have hm : c ∉ ['-', '/'] := notMem_of_isAlphanum ha (by decide)
  simp only [List.mem_cons, List.not_mem_nil, or_false, not_or] at hm
  rw [List.cons_append] at hr ⊢
  simp [readToken, hq, hr, hm, hc, isWhitespace_of_isAlphanum ha]

namespace Yields

variable {rest : List Char} {ts : List Token}

theorem blank {c : Char} (hc : c = ' ' ∨ c = '\n') (h : Yields .mysql rest ts) :
    Yields .mysql (c :: rest) ts :=
  skip (fun before => readToken_blank hc before rest) (by simp) h

theorem blanks (n : ℕ) (h : Yields .mysql rest ts) :
    Yields .mysql (List.replicate n ' ' ++ rest) ts := by
  induction n with
  | zero => exact h
  | succ n ih => exact blank (Or.inl rfl) ih

theorem mark {c : Char} (hc : c ∈ ['(', ')', ',', ';']) (h : Yields .mysql rest ts) :
    Yields .mysql (c :: rest) (.symbol (String.singleton c) :: ts) :=
  token (fun before => readToken_mark hc before rest) (by simp) h

theorem name {name : List Char} (hn : '\x60' ∉ name) (hr : rest.head? ≠ some '\x60')
    (h : Yields .mysql rest ts) :
    Yields .mysql ('\x60' :: (name ++ '\x60' :: rest)) (.quotedWord '\x60' name :: ts) :=
  token (readToken_name hn hr) (by simp; omega) h

theorem word {w : List Char} (hw : ∀ c ∈ w, c.isAlpha = true) (hl : 1 < w.length)
    (hr : ∀ c ∈ rest.head?, Dialect.isWordPart .mysql c = false) (h : Yields .mysql rest ts) :
    Yields .mysql (w ++ rest) (.bareWord w :: ts) :=
  token (readToken_word hw hl hr) (by simp; omega) h

theorem identifier {c : Char} {w : List Char} (hc : c.isAlpha = true ∨ c = '_')
    (hw : ∀ x ∈ w, x.isAlphanum = true ∨ x = '_') (h : Yields .mysql rest ts) :
    Yields .mysql (c :: (w ++ ' ' :: rest)) (.bareWord (c :: w) :: ts) := by
  have hq : ∀ next ∈ (w ++ ' ' :: rest).head?, next ∉ ['\'', '\"', '&'] := by
    cases w with
    | nil =>
      rintro _ ⟨⟩
      decide
    | cons d w =>
      rintro _ ⟨⟩
      rcases hw d List.mem_cons_self with hd | rfl
      · exact notMem_of_isAlphanum hd (by decide)
      · decide
  exact token (readToken_identifier hc hw hq (word_ends (by simp) rest)) (by simp)
    (blank (Or.inl rfl) h)

theorem digits {ds : List Char} (hne : ds ≠ []) (hd : ∀ c ∈ ds, c.isDigit = true) {stop : Char}
    (hs : stop = ',' ∨ stop = ')') (h : Yields .mysql (stop :: rest) ts) :
    Yields .mysql (ds ++ stop :: rest) (.number (String.ofList ds) :: ts) :=
  token (readToken_digits hne hd hs)
    (by rw [List.length_append]; have := List.length_pos_of_ne_nil hne; omega) h

end Yields

end TableLoader.Sql
