import Mathlib
import TableLoader.Text.Blank
import TableLoader.Text.Line

/-! # Lines, ends and words

Lines that are joined fall apart into themselves again, but for a carriage return at the end of a line and an
empty last line. Texts of whole lines that are put together have the lines of both. Trimming sees neither
indentation nor blanks at the end, and a word ends at the first blank. -/
namespace TableLoader.Text

theorem finishLines_cons {line : List Char} {ls : List (List Char)} (h : ls ≠ []) :
    finishLines (line :: ls) = dropReturn line :: finishLines ls := by
  obtain ⟨next, ls, rfl⟩ := List.exists_cons_of_ne_nil h
  rfl

theorem dropReturn_eq_self {line : List Char} (h : line.getLast? ≠ some '\r') :
    dropReturn line = line := if_neg h

/-- Lines that are not empty and end in no carriage return stay as they are, whatever follows them. -/
theorem finishLines_append {ls rest : List (List Char)}
    (h : ∀ line ∈ ls, line ≠ [] ∧ line.getLast? ≠ some '\r') :
    finishLines (ls ++ rest) = ls ++ finishLines rest := by
  induction ls with
  | nil => rfl
  | cons line ls ih =>
    obtain ⟨⟨hne, hr⟩, hls⟩ := List.forall_mem_cons.mp h
    by_cases he : ls ++ rest = []
    · obtain ⟨rfl, rfl⟩ := List.append_eq_nil_iff.mp he
      simp [finishLines, hne]
    · rw [List.cons_append, finishLines_cons he, dropReturn_eq_self hr, ih hls, List.cons_append]

theorem finishLines_eq_self {ls : List (List Char)}
    (h : ∀ line ∈ ls, line ≠ [] ∧ line.getLast? ≠ some '\r') : finishLines ls = ls := by
  have he : finishLines (ls ++ []) = ls ++ finishLines [] := finishLines_append h
  simpa [finishLines] using he

theorem finishLines_append_of_ne_nil (ps : List (List Char)) {rest : List (List Char)}
    (h : rest ≠ []) : finishLines (ps ++ rest) = ps.map dropReturn ++ finishLines rest := by
  induction ps with
  | nil => rfl
  | cons p ps ih => rw [List.cons_append, finishLines_cons (by simp [h]), ih]; rfl

/-- A text that ends with a line feed ends with its last line, so what follows begins with a new one. -/
theorem lines_append {a : List Char} (h : a = [] ∨ a.getLast? = some '\n') (b : List Char) :
    lines (a ++ b) = lines a ++ lines b := by
  rcases h with rfl | h
  · rfl
  · obtain ⟨init, rfl⟩ := List.getLast?_eq_some_iff.mp h
    have hs : ∀ rest, (init ++ '\n' :: rest).splitOnP (· == '\n') =
        init.splitOnP (· == '\n') ++ rest.splitOnP (· == '\n') :=
      fun rest => List.splitOnP_append_cons init rest rfl
    have hb : b.splitOnP (· == '\n') ≠ [] := List.splitOnP_ne_nil _ b
    rw [List.append_assoc, List.singleton_append, lines, lines, hs, hs, lines,
      finishLines_append_of_ne_nil _ hb, finishLines_append_of_ne_nil _ (by simp),
      List.splitOnP_nil, finishLines, if_pos rfl, List.append_nil]

theorem mem_of_mem_splitOnP {p : Char → Bool} {cs piece : List Char} {c : Char}
    (h : piece ∈ cs.splitOnP p) (hc : c ∈ piece) : c ∈ cs ∧ p c = false := by
  induction cs generalizing piece with
  | nil => simp_all
  | cons d cs ih =>
    rw [List.splitOnP_cons_eq_if_modifyHead] at h
    obtain ⟨first, rest, hs⟩ := List.exists_cons_of_ne_nil (List.splitOnP_ne_nil p cs)
    rw [hs] at h ih
    split at h
    · rcases List.mem_cons.mp h with rfl | h
      · simp at hc
      · exact (ih h hc).imp_left (List.mem_cons_of_mem d)
    · next hd =>
      rcases List.mem_cons.mp h with rfl | h
      · rcases List.mem_cons.mp hc with rfl | hc
        · exact ⟨List.mem_cons_self, by simpa using hd⟩
        · exact (ih List.mem_cons_self hc).imp_left (List.mem_cons_of_mem d)
      · exact (ih (List.mem_cons_of_mem _ h) hc).imp_left (List.mem_cons_of_mem d)

theorem dropReturn_subset (cs : List Char) : dropReturn cs ⊆ cs := by
  unfold dropReturn
  split
  · exact List.dropLast_subset cs
  · exact List.Subset.refl cs

theorem exists_subset_of_mem_finishLines {ps : List (List Char)} {line : List Char}
    (h : line ∈ finishLines ps) : ∃ p ∈ ps, line ⊆ p := by
  fun_induction finishLines ps with
  | case1 => simp at h
  | case2 => simp at h
  | case3 last => exact ⟨last, List.mem_cons_self, by simp_all⟩
  | case4 piece next pieces ih =>
    rcases List.mem_cons.mp h with rfl | h
    · exact ⟨piece, List.mem_cons_self, dropReturn_subset piece⟩
    · obtain ⟨p, hp, hl⟩ := ih h
      exact ⟨p, List.mem_cons_of_mem _ hp, hl⟩

theorem mem_of_mem_lines {cs line : List Char} {c : Char} (h : line ∈ lines cs) (hc : c ∈ line) :
    c ∈ cs ∧ c ≠ '\n' := by
  obtain ⟨piece, hp, hl⟩ := exists_subset_of_mem_finishLines h
  exact (mem_of_mem_splitOnP hp (hl hc)).imp_right fun hn => by simpa using hn

theorem lines_joinLines {ls : List (List Char)} (h : ∀ line ∈ ls, '\n' ∉ line) :
    lines (joinLines ls) = finishLines ls := by
  by_cases he : ls = []
  · subst he
    rfl
  · rw [lines, ← List.splitOn_eq_splitOnP, joinLines, List.splitOn_intercalate '\n' h he]

/-- Lines that are whole and hold no line feed are the lines of their text. -/
theorem lines_joinLines_of_whole {ls : List (List Char)}
    (h : ∀ line ∈ ls, '\n' ∉ line ∧ line ≠ [] ∧ line.getLast? ≠ some '\r') :
    lines (joinLines ls) = ls := by
  rw [lines_joinLines fun line hl => (h line hl).1, finishLines_eq_self fun line hl => (h line hl).2]

/-- What is read off each line the same without its carriage return, and off no empty one, is read off the lines
of a text. -/
theorem flatMap_finishLines {α : Type} {f : List Char → List α} (hf : f [] = [])
    (hr : ∀ line, f (dropReturn line) = f line) (ls : List (List Char)) :
    (finishLines ls).flatMap f = ls.flatMap f := by
  fun_induction finishLines ls with
  | case1 => rfl
  | case2 => simp [hf]
  | case3 last => rfl
  | case4 piece next pieces ih =>
    rw [List.flatMap_cons, hr, ih]
    rfl

/-- What holds of the lines of a text, with or without their carriage return, holds of all that stands between line
feeds. -/
theorem forall_mem_of_finishLines {p : List Char → Prop} (hnil : p [])
    (hr : ∀ line, p (dropReturn line) → p line) {ls : List (List Char)}
    (h : ∀ line ∈ finishLines ls, p line) : ∀ line ∈ ls, p line := by
  fun_induction finishLines ls with
  | case1 => simp
  | case2 => simpa using hnil
  | case3 last => exact h
  | case4 piece next pieces ih =>
    obtain ⟨hpiece, hmore⟩ := List.forall_mem_cons.mp h
    exact List.forall_mem_cons.mpr ⟨hr piece hpiece, ih hmore⟩

/-- Every text is lines with a line feed between each two. -/
theorem exists_joinLines (cs : List Char) : ∃ ls, (∀ line ∈ ls, '\n' ∉ line) ∧ joinLines ls = cs := by
  refine ⟨cs.splitOnP (· == '\n'), ?_, ?_⟩
  · intro line hl hn
    exact absurd (mem_of_mem_splitOnP hl hn).2 (by decide)
  · rw [joinLines, ← List.splitOn_eq_splitOnP, List.intercalate_splitOn]

theorem joinLines_cons {line : List Char} {ls : List (List Char)} (h : ls ≠ []) :
    joinLines (line :: ls) = line ++ '\n' :: joinLines ls := by
  obtain ⟨next, ls, rfl⟩ := List.exists_cons_of_ne_nil h
  rw [joinLines, List.intercalate_cons_cons, ← joinLines]
  simp

theorem joinLines_concat {ls : List (List Char)} (h : ls ≠ []) (line : List Char) :
    joinLines (ls ++ [line]) = joinLines ls ++ '\n' :: line := by
  induction ls with
  | nil => exact absurd rfl h
  | cons first ls ih =>
    by_cases he : ls = []
    · subst he
      simp [joinLines]
    · rw [List.cons_append, joinLines_cons (by simp), ih he, joinLines_cons he]
      simp

theorem exists_append_trimStart (cs : List Char) :
    ∃ pre, (∀ c ∈ pre, isBlank c = true) ∧ pre ++ trimStart cs = cs :=
  ⟨cs.takeWhile isBlank, fun _ hc => List.mem_takeWhile_imp hc, List.takeWhile_append_dropWhile⟩

theorem trimEnd_isPrefix_self (cs : List Char) : trimEnd cs <+: cs := by
  rw [trimEnd, ← List.reverse_suffix, List.reverse_reverse]
  exact List.dropWhile_suffix _

theorem trim_subset (cs : List Char) : trim cs ⊆ cs := by
  obtain ⟨pre, -, hp⟩ := exists_append_trimStart cs
  have hs : trimStart cs ⊆ pre ++ trimStart cs := List.subset_append_right _ _
  rw [hp] at hs
  exact fun c hc => hs ((trimEnd_isPrefix_self _).subset hc)

theorem trim_append_of_blank {pre cs : List Char} (h : ∀ c ∈ pre, isBlank c = true) :
    trim (pre ++ cs) = trim cs := by
  rw [trim, trimStart, List.dropWhile_append_of_pos h]
  rfl

theorem trimEnd_concat {c : Char} (h : isBlank c = true) (cs : List Char) :
    trimEnd (cs ++ [c]) = trimEnd cs := by
  simp [trimEnd, h]

/-- Blanks at the end are looked for no further than the last character that is none. -/
theorem trimEnd_append {a : List Char} {c : Char} (hl : a.getLast? = some c)
    (hc : isBlank c = false) (b : List Char) : trimEnd (a ++ b) = a ++ trimEnd b := by
  obtain ⟨init, rfl⟩ := List.getLast?_eq_some_iff.mp hl
  simp only [trimEnd, List.reverse_append, List.reverse_singleton, List.singleton_append,
    List.dropWhile_append]
  split
  · next he => simp [List.isEmpty_iff.mp he, hc]
  · simp

theorem trim_concat {c : Char} (h : isBlank c = true) (cs : List Char) :
    trim (cs ++ [c]) = trim cs := by
  rw [trim, trim, trimStart, List.dropWhile_append]
  split
  · next he => simp [trimStart, List.isEmpty_iff.mp he, h]
  · exact trimEnd_concat h _

theorem trim_append_blanks {cs back : List Char} (h : ∀ c ∈ back, isBlank c = true) :
    trim (cs ++ back) = trim cs := by
  induction back using List.reverseRecOn with
  | nil => rw [List.append_nil]
  | append_singleton back c ih =>
    obtain ⟨hb, hc⟩ := List.forall_mem_append.mp h
    rw [← List.append_assoc, trim_concat (hc c List.mem_cons_self), ih hb]

theorem trim_dropReturn (cs : List Char) : trim (dropReturn cs) = trim cs := by
  unfold dropReturn
  split
  · next h =>
    obtain ⟨init, rfl⟩ := List.getLast?_eq_some_iff.mp h
    rw [List.dropLast_concat, trim_concat (by decide)]
  · rfl

/-- A text with blanks at neither end. -/
structure Tight (cs : List Char) : Prop where
  head : ∀ c ∈ cs.head?, isBlank c = false
  last : ∀ c ∈ cs.getLast?, isBlank c = false

theorem tight_of_ends {cs : List Char} {first last : Char} (hf : cs.head? = some first)
    (hl : cs.getLast? = some last) (hfb : isBlank first = false) (hlb : isBlank last = false) :
    Tight cs := by
  constructor
  · rw [hf]
    rintro _ ⟨⟩
    exact hfb
  · rw [hl]
    rintro _ ⟨⟩
    exact hlb

theorem Tight.trim {cs : List Char} (h : Tight cs) : trim cs = cs := by
  have hs : trimStart cs = cs := by
    cases cs with
    | nil => rfl
    | cons c cs => simp [trimStart, h.head c rfl]
  rw [Text.trim, hs, trimEnd]
  cases hr : cs.reverse with
  | nil => simpa using hr
  | cons c rest =>
    have hl : cs.getLast? = some c := by rw [← List.head?_reverse, hr]; rfl
    rw [List.dropWhile_cons_of_neg (by simp [h.last c hl]), ← hr, List.reverse_reverse]

theorem tight_trim (cs : List Char) : Tight (trim cs) := by
  constructor
  · intro c hc
    obtain ⟨back, hb⟩ := trimEnd_isPrefix_self (trimStart cs)
    have hhead : (trimStart cs).head? = some c := by
      rw [← hb]
      exact List.mem_head?_append_of_mem_head? hc
    have hd := List.head?_dropWhile_not isBlank cs
    rw [← trimStart, hhead] at hd
    simpa using hd
  · intro c hc
    have hl : ((trimStart cs).reverse.dropWhile isBlank).head? = some c := by
      rw [← List.getLast?_reverse]
      exact hc
    have hd := List.head?_dropWhile_not isBlank (trimStart cs).reverse
    rw [hl] at hd
    simpa using hd

theorem tight_iff_trim_eq {cs : List Char} : Tight cs ↔ trim cs = cs := by
  constructor
  · exact Tight.trim
  · intro h
    rw [← h]
    exact tight_trim cs

theorem exists_append_trim (cs : List Char) :
    ∃ front back, (∀ c ∈ front, isBlank c = true) ∧ (∀ c ∈ back, isBlank c = true) ∧
      front ++ (trim cs ++ back) = cs := by
  obtain ⟨front, hf, hcs⟩ := exists_append_trimStart cs
  obtain ⟨pre, hp, hrev⟩ := exists_append_trimStart (trimStart cs).reverse
  refine ⟨front, pre.reverse, hf, fun c hc => hp c (List.mem_reverse.mp hc), ?_⟩
  have hend : trim cs ++ pre.reverse = trimStart cs := by
    rw [← List.reverse_reverse (trimStart cs), ← hrev, List.reverse_append]
    rfl
  rw [hend, hcs]

theorem trim_infix (cs : List Char) : trim cs <:+: cs := by
  obtain ⟨front, back, -, -, hcs⟩ := exists_append_trim cs
  exact ⟨front, back, by rw [List.append_assoc, hcs]⟩

/-- What is left of the blanks at the ends is still blank, so they may be trimmed off first. -/
theorem trim_filter (p : Char → Bool) (cs : List Char) :
    trim (cs.filter p) = trim ((trim cs).filter p) := by
  obtain ⟨front, back, hf, hb, hcs⟩ := exists_append_trim cs
  have hkept : ∀ {blanks : List Char}, (∀ c ∈ blanks, isBlank c = true) →
      ∀ c ∈ blanks.filter p, isBlank c = true :=
    fun h c hc => h c (List.mem_of_mem_filter hc)
  conv_lhs => rw [← hcs]
  rw [List.filter_append, List.filter_append, trim_append_of_blank (hkept hf),
    trim_append_blanks (hkept hb)]

theorem Tight.trim_append {a b : List Char} (h : Tight a) (hne : a ≠ [])
    (hb : ∀ c ∈ b, isBlank c = true) : Text.trim (a ++ b) = a := by
  have hl := List.getLast?_eq_some_getLast hne
  have hstart : trimStart (a ++ b) = a ++ b := by
    obtain ⟨c, a, rfl⟩ := List.exists_cons_of_ne_nil hne
    simp [trimStart, h.head c rfl]
  have hend : trimEnd b = [] := by
    simpa [trimEnd] using hb
  rw [Text.trim, hstart, trimEnd_append hl (h.last _ hl), hend, List.append_nil]

/-- A run ends before the first character that is not of its kind. -/
theorem takeWhile_append_stop {p : Char → Bool} {w rest : List Char}
    (hw : ∀ c ∈ w, p c = true) (hr : ∀ c ∈ rest.head?, p c = false) :
    (w ++ rest).takeWhile p = w ∧ (w ++ rest).dropWhile p = rest := by
  rw [List.takeWhile_append_of_pos hw, List.dropWhile_append_of_pos hw]
  cases rest with
  | nil => simp
  | cons c rest => simp [hr c rfl]

theorem words_word {w : List Char} (hne : w ≠ []) (h : ∀ c ∈ w, isBlank c = false) :
    words w = [w] := by
  simp [words, List.splitOnP_eq_singleton h, hne]

theorem mem_of_mem_words {cs w : List Char} (h : w ∈ words cs) :
    w ≠ [] ∧ ∀ c ∈ w, c ∈ cs ∧ isBlank c = false := by
  obtain ⟨hs, hne⟩ := List.mem_filter.mp h
  exact ⟨by simpa using hne, fun c hc => mem_of_mem_splitOnP hs hc⟩

theorem words_append_cons {b : Char} (hb : isBlank b = true) (a rest : List Char) :
    words (a ++ b :: rest) = words a ++ words rest := by
  rw [words, List.splitOnP_append_cons a rest hb, List.filter_append]
  rfl

theorem words_append_blank {w : List Char} (hne : w ≠ []) (h : ∀ c ∈ w, isBlank c = false)
    {b : Char} (hb : isBlank b = true) (rest : List Char) :
    words (w ++ b :: rest) = w :: words rest := by
  rw [words_append_cons hb, words_word hne h]
  rfl

theorem exists_words_append {w rest : List Char} (hne : w ≠ []) (h : ∀ c ∈ w, isBlank c = false)
    (hr : ∀ c ∈ rest.head?, isBlank c = true) : ∃ others, words (w ++ rest) = w :: others := by
  cases rest with
  | nil => exact ⟨[], by rw [List.append_nil, words_word hne h]⟩
  | cons b rest => exact ⟨words rest, words_append_blank hne h (hr b rfl) rest⟩

/-- Splitting loses none of the characters that do not separate. -/
theorem exists_mem_splitOnP {p : Char → Bool} {cs : List Char} {c : Char} (hc : c ∈ cs)
    (hp : p c = false) : ∃ piece ∈ cs.splitOnP p, c ∈ piece := by
  induction cs with
  | nil => simp at hc
  | cons d cs ih =>
    obtain ⟨first, pieces, hs⟩ := List.exists_cons_of_ne_nil (List.splitOnP_ne_nil p cs)
    rw [List.splitOnP_cons_eq_if_modifyHead]
    rw [hs] at ih ⊢
    rcases List.mem_cons.mp hc with rfl | hcs
    · exact ⟨c :: first, by simp [hp], List.mem_cons_self⟩
    · obtain ⟨piece, hpiece, hmem⟩ := ih hcs
      by_cases hd : p d = true
      · exact ⟨piece, by simpa [hd] using Or.inr hpiece, hmem⟩
      · rcases List.mem_cons.mp hpiece with rfl | hpiece
        · exact ⟨d :: piece, by simp [hd], List.mem_cons_of_mem d hmem⟩
        · exact ⟨piece, by simp [hd, hpiece], hmem⟩

theorem words_ne_nil {cs : List Char} {c : Char} (hc : c ∈ cs) (hb : isBlank c = false) :
    words cs ≠ [] := by
  obtain ⟨piece, hpiece, hmem⟩ := exists_mem_splitOnP hc hb
  exact List.ne_nil_of_mem (List.mem_filter.mpr ⟨hpiece, by simpa using List.ne_nil_of_mem hmem⟩)

def block (ls : List (List Char)) : List Char := ls.flatMap (· ++ ['\n'])

theorem joinLines_append_singleton (ls : List (List Char)) (last : List Char) :
    joinLines (ls ++ [last]) = block ls ++ last := by
  induction ls with
  | nil => simp [joinLines, block]
  | cons line ls ih =>
    rw [List.cons_append, joinLines_cons (by simp), ih, block, block, List.flatMap_cons]
    simp

end TableLoader.Text
