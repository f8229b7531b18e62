import TableLoader.Dump.Pattern
import TableLoader.Proofs.Dump.Cuts

/-! # Statements that are cut

A line that is taken for a header cuts the statement it stands in. The body of what comes before it ends early,
and holds at most one clause on each line that is left; what comes after it has a body only within a word, and
no field fits in there. -/
namespace TableLoader.Dump

theorem scan_unclosed {e : Ending} {header : Line} {inner : List Line}
    (hh : isHeader header = true) (hn : nesting header = 1)
    (hi : ∀ line ∈ inner, isHeader line = false ∧ nesting line = 0) :
    scan e [] 0 (header :: inner) = [header :: inner] := by
  have hone : (1 : Int) ≠ 0 := by decide
  have hinner := scan_inner (e := e) hi (List.cons_ne_nil header []) hone []
  rw [List.append_nil] at hinner
  rw [scan, if_pos hh, hn, if_neg (fun hz => hone hz.1), hinner]
  simp [scan, flush]

/-- No comma stands outside parentheses, but for one at the end. -/
def CommaLast (cs : List Char) : Prop := commasNested 0 cs.dropLast = true

theorem CommaLast.of_prefix {p cs : List Char} (h : CommaLast cs) (hp : p <+: cs) : CommaLast p := by
  obtain ⟨more, rfl⟩ := hp
  by_cases hm : more = []
  · rwa [hm, List.append_nil] at h
  · have hd : p.dropLast <+: (p ++ more).dropLast := by
      rw [List.dropLast_append_of_ne_nil hm]
      exact p.dropLast_prefix.trans (List.prefix_append _ _)
    obtain ⟨rest, hr⟩ := hd
    rw [CommaLast, ← hr, commasNested_append, Bool.and_eq_true] at h
    exact h.1

theorem CommaLast.trim {cs : List Char} (h : CommaLast cs) : CommaLast (Text.trim cs) := by
  have hstart : CommaLast (Text.trimStart cs) := by
    obtain ⟨pre, hb, hp⟩ := Text.exists_append_trimStart cs
    have hn : nesting pre = 0 := nesting_of_blanks hb
    by_cases he : Text.trimStart cs = []
    · rw [he]
      rfl
    · rw [CommaLast, ← hp, List.dropLast_append_of_ne_nil he, commasNested_append, hn,
        Bool.and_eq_true] at h
      exact h.2
  exact hstart.of_prefix (Text.trimEnd_isPrefix_self _)

theorem CommaLast.length_splitTopLevel_le {cs : List Char} (h : CommaLast cs) :
    (splitTopLevel cs).length ≤ 1 := by
  rcases List.eq_nil_or_concat' cs with rfl | ⟨init, c, rfl⟩
  · simp [splitTopLevel, segments]
  · rw [CommaLast, List.dropLast_concat] at h
    rw [splitTopLevel, segments_append h, segments]
    split
    · by_cases hi : init = [] <;> simp [segments, hi]
    · exact List.length_filter_le _ _

theorem CommaLast.length_lineClauses_le {line : List Char} (h : CommaLast line) :
    (lineClauses line).length ≤ 1 := by
  have hf := List.length_filter_le (· ≠ []) ((splitTopLevel (Text.trim line)).map Text.trim)
  rw [List.length_map] at hf
  exact hf.trans h.trim.length_splitTopLevel_le

theorem clauses_of_notMem {line : List Char} (h : '\n' ∉ line) : clauses line = lineClauses line := by
  have hl : ∀ l ∈ [line], '\n' ∉ l := List.forall_mem_singleton.mpr h
  simpa [Text.joinLines] using clauses_joinLines hl

theorem clauses_append_newline (a b : List Char) :
    clauses (a ++ '\n' :: b) = clauses a ++ clauses b := by
  have hp : ∀ body, clauses body = (body.splitOnP (· == '\n')).flatMap lineClauses := by
    intro body
    rw [clauses_eq_flatMap, Text.lines, Text.flatMap_finishLines rfl lineClauses_dropReturn]
  rw [hp, hp, hp, List.splitOnP_append_cons a b rfl, List.flatMap_append]

/-- Wherever the text of some lines ends, it holds at most one clause for each of them. -/
theorem length_clauses_le {ls : List (List Char)} (h : ∀ line ∈ ls, '\n' ∉ line ∧ CommaLast line)
    {p : List Char} (hp : p <+: Text.joinLines ls) : (clauses p).length ≤ ls.length := by
  have hone : ∀ {line q : List Char}, '\n' ∉ line ∧ CommaLast line → q <+: line →
      (clauses q).length ≤ 1 := by
    rintro line q ⟨hn, hc⟩ hq
    rw [clauses_of_notMem fun hm => hn (hq.subset hm)]
    exact (hc.of_prefix hq).length_lineClauses_le
  induction ls generalizing p with
  | nil =>
    rw [List.prefix_nil.mp hp]
    exact le_rfl
  | cons line ls ih =>
    obtain ⟨hl, hls⟩ := List.forall_mem_cons.mp h
    by_cases he : ls = []
    · subst he
      exact hone hl (by simpa [Text.joinLines] using hp)
    rw [Text.joinLines_cons he] at hp
    -- The text ends in the first line, behind it, or in a later one.
    rcases List.prefix_or_prefix_of_prefix hp (List.prefix_append line _) with hq | ⟨rest, rfl⟩
    · exact (hone hl hq).trans (Nat.le_add_left 1 _)
    rw [List.prefix_append_right_inj, List.prefix_cons_iff] at hp
    rcases hp with rfl | ⟨rest, rfl, hr⟩
    · rw [List.append_nil]
      exact (hone hl List.prefix_rfl).trans (Nat.le_add_left 1 _)
    · have hfirst := hone hl List.prefix_rfl
      have hrest := ih hls hr
      rw [clauses_append_newline, List.length_append, List.length_cons]
      omega

theorem subset_of_mem_segments {depth : Int} {cs segment : List Char}
    (h : segment ∈ segments depth cs) : segment ⊆ cs := by
  rw [segments_eq_pieces] at h
  exact (infix_of_mem_pieces h).subset

theorem subset_of_mem_clauses {body clause : List Char} (h : clause ∈ clauses body) :
    clause ⊆ body := by
  rw [clauses_eq_flatMap, List.mem_flatMap] at h
  obtain ⟨line, hl, hc⟩ := h
  obtain ⟨segment, hs, rfl⟩ := List.mem_map.mp (List.mem_of_mem_filter hc)
  intro c hm
  have hline := Text.trim_subset _ (subset_of_mem_segments (List.mem_of_mem_filter hs)
    (Text.trim_subset _ hm))
  exact (Text.mem_of_mem_lines hl hline).1

theorem bare_subset (clause : List Char) : bare clause ⊆ clause := by
  intro c hc
  exact Text.trim_subset clause (dropComma_subset _ (List.mem_of_mem_filter hc))

theorem fieldsOf_eq_nil {body : List Char} (h : ∀ c ∈ body, Text.isBlank c = false) :
    fieldsOf body = [] := by
  rw [fieldsOf, List.filterMap_eq_nil_iff]
  intro clause hc
  have hb : ∀ c ∈ bare clause, Text.isBlank c = false :=
    fun c hm => h c (subset_of_mem_clauses hc (bare_subset clause hm))
  rw [fieldOf?]
  split
  · rfl
  · by_cases he : bare clause = []
    · rw [he]
      rfl
    · rw [Text.words_word he hb]

theorem prefix_of_beforeLast? {stop : Char} {cs before : List Char}
    (h : beforeLast? stop cs = some before) : before <+: cs := by
  unfold beforeLast? at h
  split at h
  · simp at h
  · next c rest hd =>
    obtain rfl := Option.some.inj h
    rw [← List.reverse_suffix, List.reverse_reverse]
    exact (List.suffix_cons c rest).trans (hd ▸ List.dropWhile_suffix _)

theorem beforeLast?_append_of_notMem {stop : Char} {back : List Char} (h : stop ∉ back)
    (cs : List Char) : beforeLast? stop (cs ++ back) = beforeLast? stop cs := by
  have hr : ∀ c ∈ back.reverse, (c != stop) = true := bne_of_notMem (by simpa using h)
  rw [beforeLast?, List.reverse_append, List.dropWhile_append_of_pos hr, ← beforeLast?]

theorem body?_eq_none {cs : List Char} (h : '(' ∉ cs) : body? cs = none := by
  have hd : cs.dropWhile (· != '(') = [] := List.dropWhile_eq_nil_iff.mpr (bne_of_notMem h)
  rw [body?, hd]

theorem subset_of_body? {front middle back body : List Char} (hf : '(' ∉ front)
    (ho : '(' ∉ back) (hc : ')' ∉ back) (h : body? (front ++ (middle ++ back)) = some body) :
    body ⊆ middle := by
  by_cases hm : '(' ∈ middle
  · obtain ⟨first, rest, rfl, hfirst⟩ := List.eq_append_cons_of_mem hm
    have hfront : '(' ∉ front ++ first := by simp [hf, hfirst]
    have hs : front ++ ((first ++ '(' :: rest) ++ back) = (front ++ first) ++ '(' :: (rest ++ back) := by
      simp
    rw [hs, body?_append_cons hfront, beforeLast?_append_of_notMem hc] at h
    have hrest : rest ⊆ first ++ '(' :: rest :=
      List.subset_append_of_subset_right _ (List.subset_cons_self _ _)
    exact fun c hb => hrest ((prefix_of_beforeLast? h).subset hb)
  · rw [body?_eq_none (by simp [hf, hm, ho])] at h
    simp at h

theorem exists_body?_of_tableOf? {name? : List Char → Option (List Char)} {cs : List Char}
    {t : Table} (h : tableOf? name? cs = some t) :
    ∃ body, body? cs = some body ∧ t.fields = fieldsOf body ∧ t.fields ≠ [] := by
  obtain ⟨-, body, -, hb, hf, rfl⟩ := tableOf?_eq_some_iff.mp h
  exact ⟨body, hb, rfl, hf⟩

theorem tableOf?_eq_none_of_notMem (name? : List Char → Option (List Char)) {cs : List Char}
    (h : '(' ∉ cs) : tableOf? name? cs = none := by
  by_contra hn
  obtain ⟨t, ht⟩ := Option.ne_none_iff_exists'.mp hn
  obtain ⟨body, hb, -⟩ := exists_body?_of_tableOf? ht
  rw [body?_eq_none h] at hb
  simp at hb

end TableLoader.Dump
