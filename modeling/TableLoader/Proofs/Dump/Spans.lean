import TableLoader.Proofs.Dump.Scanner

/-! # Spans of lines

What the scanner cuts out of a dump, told by line numbers alone: every header begins a span, which ends at the
first line that closes it and otherwise in front of the next header. -/
namespace TableLoader.Dump

def headersFrom (ls : List Line) (k : ℕ) : List ℕ :=
  (List.range' k (ls.length - k)).filter fun i => ls[i]?.any isHeader

/-- The number of the first header behind line `k`, or the number of lines if there is none. -/
def nextHeader (ls : List Line) (k : ℕ) : ℕ := (headersFrom ls (k + 1)).head?.getD ls.length

def slice (ls : List Line) (k p : ℕ) : List Line := (ls.drop k).take (p - k)

/-- Whether what begins at line `k` may end with line `j`: up to there as many parentheses close as open. -/
def closes (e : Ending) (ls : List Line) (k j : ℕ) : Bool :=
  ((slice ls k (j + 1)).map (List.count '(')).sum ==
    ((slice ls k (j + 1)).map (List.count ')')).sum && ls[j]?.any e.allows

/-- The number of the last line of what begins at line `k`. -/
def lastLine (e : Ending) (ls : List Line) (k : ℕ) : ℕ :=
  ((List.range' k (nextHeader ls k - k)).find? (closes e ls k)).getD (nextHeader ls k - 1)

def span (e : Ending) (ls : List Line) (k : ℕ) : List Line := slice ls k (lastLine e ls k + 1)

theorem headersFrom_length (ls : List Line) : headersFrom ls ls.length = [] := by
  simp [headersFrom]

theorem headersFrom_eq {ls : List Line} {p : ℕ} (h : p < ls.length) :
    headersFrom ls p =
      if isHeader ls[p] then p :: headersFrom ls (p + 1) else headersFrom ls (p + 1) := by
  have hr : List.range' p (ls.length - p) = p :: List.range' (p + 1) (ls.length - (p + 1)) := by
    rw [← List.range'_succ]
    congr 1
    omega
  rw [headersFrom, hr, List.filter_cons]
  simp [headersFrom, h]

theorem mem_headersFrom {ls : List Line} {p i : ℕ} :
    i ∈ headersFrom ls p ↔ p ≤ i ∧ ∃ h : i < ls.length, isHeader ls[i] = true := by
  rw [headersFrom, List.mem_filter, List.mem_range'_1]
  constructor
  · rintro ⟨⟨hp, hi⟩, hh⟩
    have hl : i < ls.length := by omega
    refine ⟨hp, hl, ?_⟩
    simpa [hl] using hh
  · rintro ⟨hp, hl, hh⟩
    refine ⟨⟨hp, by omega⟩, ?_⟩
    simpa [hl] using hh

theorem sorted_headersFrom (ls : List Line) (p : ℕ) : (headersFrom ls p).Pairwise (· < ·) :=
  (List.pairwise_lt_range' 1).filter _

theorem length_headersFrom (ls : List Line) : (headersFrom ls 0).length = ls.countP isHeader := by
  have hd : ∀ {p : ℕ}, p ≤ ls.length → (headersFrom ls p).length = (ls.drop p).countP isHeader := by
    intro p hp
    induction hp using Nat.decreasingInduction with
    | self => simp [headersFrom_length]
    | of_succ p hp ih =>
      rw [headersFrom_eq hp, List.drop_eq_getElem_cons hp, List.countP_cons]
      split <;> simp_all
  simpa using hd (Nat.zero_le _)

theorem nextHeader_le {ls : List Line} {k i : ℕ} (h : i ∈ headersFrom ls (k + 1)) :
    nextHeader ls k ≤ i := by
  have hs := sorted_headersFrom ls (k + 1)
  rw [nextHeader]
  cases hh : headersFrom ls (k + 1) with
  | nil => simp [hh] at h
  | cons n ns =>
    rw [hh, List.pairwise_cons] at hs
    rw [hh] at h
    rcases List.mem_cons.mp h with rfl | h
    · exact le_rfl
    · exact (hs.1 i h).le

theorem lt_nextHeader {ls : List Line} {k p : ℕ} (hp : p < ls.length)
    (h : headersFrom ls (k + 1) = headersFrom ls (p + 1)) : p < nextHeader ls k := by
  rw [nextHeader, h]
  cases hh : headersFrom ls (p + 1) with
  | nil => exact hp
  | cons n ns =>
    have hn : n ∈ headersFrom ls (p + 1) := by rw [hh]; exact List.mem_cons_self
    exact (mem_headersFrom.mp hn).1

theorem nextHeader_le_length (ls : List Line) (k : ℕ) : nextHeader ls k ≤ ls.length := by
  rw [nextHeader]
  cases hh : headersFrom ls (k + 1) with
  | nil => exact le_rfl
  | cons n ns =>
    have hn : n ∈ headersFrom ls (k + 1) := by rw [hh]; exact List.mem_cons_self
    obtain ⟨-, hl, -⟩ := mem_headersFrom.mp hn
    exact hl.le

theorem lastLine_bounds (e : Ending) {ls : List Line} {k : ℕ} (hk : k < ls.length) :
    k ≤ lastLine e ls k ∧ lastLine e ls k < nextHeader ls k := by
  have hn : k < nextHeader ls k := lt_nextHeader hk rfl
  rw [lastLine]
  cases hf : (List.range' k (nextHeader ls k - k)).find? (closes e ls k) with
  | none =>
    rw [Option.getD_none]
    omega
  | some j =>
    have hj := List.mem_range'_1.mp (List.mem_of_find?_eq_some hf)
    rw [Option.getD_some]
    omega

@[simp] theorem slice_self (ls : List Line) (k : ℕ) : slice ls k k = [] := by simp [slice]

theorem slice_succ {ls : List Line} {k p : ℕ} (hk : k ≤ p) (hp : p < ls.length) :
    slice ls k (p + 1) = slice ls k p ++ [ls[p]] := by
  have hi : (ls.drop k)[p - k]? = some ls[p] := by
    rw [List.getElem?_drop, Nat.add_sub_cancel' hk, List.getElem?_eq_getElem hp]
  rw [slice, slice, Nat.succ_sub hk, List.take_add_one, hi]
  rfl

theorem slice_ne_nil {ls : List Line} {k p : ℕ} (hk : k < p) (hp : p ≤ ls.length) :
    slice ls k p ≠ [] := by
  have hl : (slice ls k p).length = p - k := by
    rw [slice, List.length_take, List.length_drop]
    omega
  intro h
  rw [h, List.length_nil] at hl
  omega

theorem prefix_slice (ls : List Line) (k : ℕ) {p q : ℕ} (h : p ≤ q) :
    slice ls k p <+: slice ls k q :=
  List.take_prefix_take_left (by omega)

def totalNesting (ls : List Line) : Int := (ls.map nesting).sum

theorem totalNesting_concat (ls : List Line) (line : Line) :
    totalNesting (ls ++ [line]) = totalNesting ls + nesting line := by
  simp [totalNesting]

theorem totalNesting_eq (ls : List Line) :
    totalNesting ls = (ls.map (List.count '(')).sum - (ls.map (List.count ')')).sum := by
  induction ls with
  | nil => rfl
  | cons line ls ih =>
    simp only [totalNesting, List.map_cons, List.sum_cons, Nat.cast_add] at ih ⊢
    rw [ih, nesting]
    omega

theorem closes_iff {e : Ending} {ls : List Line} {k p : ℕ} (hk : k ≤ p) (hp : p < ls.length) :
    closes e ls k p = true ↔
      totalNesting (slice ls k p) + nesting ls[p] = 0 ∧ e.allows ls[p] = true := by
  have hs : ls[p]?.any e.allows = e.allows ls[p] := by simp [hp]
  rw [← totalNesting_concat, ← slice_succ hk hp, totalNesting_eq, closes, hs, Bool.and_eq_true,
    beq_iff_eq]
  refine and_congr_left fun _ => ?_
  omega

/-- What begins at line `k` is in progress in front of line `p`: since then no other header has come and no
line has closed it. -/
structure InProgress (e : Ending) (ls : List Line) (k p : ℕ) : Prop where
  lt : k < p
  headers : headersFrom ls (k + 1) = headersFrom ls p
  unclosed : ∀ j, k ≤ j → j < p → closes e ls k j = false

namespace InProgress

variable {e : Ending} {ls : List Line} {k p : ℕ}

theorem start (h : closes e ls k k = false) : InProgress e ls k (k + 1) where
  lt := Nat.lt_succ_self k
  headers := rfl
  unclosed j hk hj := by
    obtain rfl : j = k := by omega
    exact h

theorem step (h : InProgress e ls k p) (hp : p < ls.length) (hh : isHeader ls[p] = false)
    (hc : closes e ls k p = false) : InProgress e ls k (p + 1) where
  lt := h.lt.trans (Nat.lt_succ_self p)
  headers := by
    rw [h.headers, headersFrom_eq hp, hh]
    rfl
  unclosed j hk hj := by
    rcases Nat.lt_succ_iff_lt_or_eq.mp hj with hj | rfl
    · exact h.unclosed j hk hj
    · exact hc

theorem nextHeader_eq_length (h : InProgress e ls k ls.length) : nextHeader ls k = ls.length := by
  rw [nextHeader, h.headers, headersFrom_length]
  rfl

theorem nextHeader_eq (h : InProgress e ls k p) (hp : p < ls.length)
    (hh : isHeader ls[p] = true) : nextHeader ls k = p := by
  rw [nextHeader, h.headers, headersFrom_eq hp, if_pos hh]
  rfl

theorem span_eq_slice (h : InProgress e ls k p) (hn : nextHeader ls k = p) :
    span e ls k = slice ls k p := by
  have hf : (List.range' k (p - k)).find? (closes e ls k) = none := by
    rw [List.find?_eq_none]
    intro j hj
    obtain ⟨hk, hj⟩ := List.mem_range'_1.mp hj
    rw [h.unclosed j hk (by omega)]
    exact Bool.false_ne_true
  have hp : p - 1 + 1 = p := Nat.sub_add_cancel (Nat.zero_lt_of_lt h.lt)
  rw [span, lastLine, hn, hf, Option.getD_none, hp]

end InProgress

/-- The first line that closes is the last one, whatever comes behind it. -/
theorem span_eq_of_closes {e : Ending} {ls : List Line} {k p : ℕ} (hk : k ≤ p)
    (hn : p < nextHeader ls k) (hu : ∀ j, k ≤ j → j < p → closes e ls k j = false)
    (hc : closes e ls k p = true) : span e ls k = slice ls k (p + 1) := by
  have hf : (List.range' k (nextHeader ls k - k)).find? (closes e ls k) = some p := by
    rw [List.find?_range'_eq_some]
    refine ⟨hc, List.mem_range'_1.mpr ⟨hk, by omega⟩, fun j hj hjp => ?_⟩
    rw [hu j hj hjp]
    rfl
  rw [span, lastLine, hf, Option.getD_some]

/-- From any line on the scanner finds the spans of the headers to come, and before them the span that is in
progress there. -/
theorem scan_drop (e : Ending) {ls : List Line} {p : ℕ} (hp : p ≤ ls.length) :
    scan e [] 0 (ls.drop p) = (headersFrom ls p).map (span e ls) ∧
      ∀ k, InProgress e ls k p →
        scan e (slice ls k p) (totalNesting (slice ls k p)) (ls.drop p) =
          span e ls k :: (headersFrom ls p).map (span e ls) := by
  induction hp using Nat.decreasingInduction with
  | self =>
    rw [List.drop_length, headersFrom_length]
    refine ⟨rfl, fun k hk => ?_⟩
    rw [scan, flush, if_neg (slice_ne_nil hk.lt le_rfl), hk.span_eq_slice hk.nextHeader_eq_length]
    rfl
  | of_succ p hp ih =>
    obtain ⟨hidle, hopen⟩ := ih
    rw [List.drop_eq_getElem_cons hp, headersFrom_eq hp]
    have hslice : slice ls p (p + 1) = [ls[p]] := by rw [slice_succ le_rfl hp, slice_self]; rfl
    -- Whether the line closes what it begins itself depends on nothing before it.
    have hbegin : (if nesting ls[p] = 0 ∧ e.allows ls[p] = true then
        [ls[p]] :: scan e [] 0 (ls.drop (p + 1))
        else scan e [ls[p]] (nesting ls[p]) (ls.drop (p + 1))) =
        span e ls p :: (headersFrom ls (p + 1)).map (span e ls) := by
      have hiff := closes_iff (e := e) (le_refl p) hp
      rw [slice_self, totalNesting, List.map_nil, List.sum_nil, zero_add] at hiff
      by_cases hc : closes e ls p p = true
      · rw [if_pos (hiff.mp hc), hidle, span_eq_of_closes le_rfl (lt_nextHeader hp rfl)
          (fun j hj hjp => absurd hj (by omega)) hc, hslice]
      · have h := hopen p (.start (by simpa using hc))
        rw [hslice] at h
        rw [if_neg (fun hn => hc (hiff.mpr hn)), ← h]
        simp [totalNesting]
    by_cases hh : isHeader ls[p] = true
    · rw [if_pos hh]
      constructor
      · rw [scan, if_pos hh, hbegin]
        rfl
      · intro k hk
        rw [scan, if_pos hh, hbegin, flush, if_neg (slice_ne_nil hk.lt hp.le),
          hk.span_eq_slice (hk.nextHeader_eq hp hh)]
        rfl
    · rw [if_neg hh]
      constructor
      · rw [scan, if_neg hh, if_pos rfl, hidle]
      · intro k hk
        have hh : isHeader ls[p] = false := by simpa using hh
        have hiff := closes_iff (e := e) hk.lt.le hp
        rw [scan, if_neg (by simp [hh]), if_neg (slice_ne_nil hk.lt hp.le),
          ← slice_succ hk.lt.le hp]
        by_cases hc : closes e ls k p = true
        · have hnext : headersFrom ls (k + 1) = headersFrom ls (p + 1) := by
            rw [hk.headers, headersFrom_eq hp, hh]
            rfl
          rw [if_pos (hiff.mp hc), hidle,
            span_eq_of_closes hk.lt.le (lt_nextHeader hp hnext) hk.unclosed hc]
        · rw [if_neg (fun hn => hc (hiff.mpr hn)), ← totalNesting_concat,
            ← slice_succ hk.lt.le hp]
          exact hopen k (hk.step hp hh (by simpa using hc))

/-- The fragments of a dump are the spans of its headers, in order: as many as there are headers, each from its
header to a line before the next one, and of the two spans of a header one begins the other. -/
theorem fragments_eq_spans (dump : List Char) :
    (∀ e, fragments e dump =
      (headersFrom (Text.lines dump) 0).map fun k => Text.joinLines (span e (Text.lines dump) k)) ∧
    (∀ e, (fragments e dump).length = (Text.lines dump).countP isHeader) ∧
    (∀ e, (headersFrom (Text.lines dump) 0 ++ [(Text.lines dump).length]).Pairwise fun k k' =>
      k ≤ lastLine e (Text.lines dump) k ∧ lastLine e (Text.lines dump) k < k') ∧
    ∀ k, span .parenthesis (Text.lines dump) k <+: span .terminator (Text.lines dump) k ∨
      span .terminator (Text.lines dump) k <+: span .parenthesis (Text.lines dump) k := by
  generalize hls : Text.lines dump = ls
  have hfragments : ∀ e, fragments e dump =
      (headersFrom ls 0).map fun k => Text.joinLines (span e ls k) := by
    intro e
    have h := (scan_drop e (Nat.zero_le ls.length)).1
    rw [List.drop_zero] at h
    rw [fragments, hls, h, List.map_map]
    rfl
  refine ⟨hfragments, fun e => ?_, fun e => ?_, fun k => ?_⟩
  · rw [hfragments, List.length_map, length_headersFrom]
  · rw [List.pairwise_append]
    refine ⟨(sorted_headersFrom ls 0).imp_of_mem ?_, List.pairwise_singleton _ _, ?_⟩
    · intro k k' hk hk' hlt
      obtain ⟨-, hkl, -⟩ := mem_headersFrom.mp hk
      obtain ⟨-, hkl', hh⟩ := mem_headersFrom.mp hk'
      have hnext : nextHeader ls k ≤ k' := nextHeader_le (mem_headersFrom.mpr ⟨hlt, hkl', hh⟩)
      obtain ⟨hle, hlast⟩ := lastLine_bounds e hkl
      exact ⟨hle, hlast.trans_le hnext⟩
    · intro k hk n hn
      obtain ⟨-, hkl, -⟩ := mem_headersFrom.mp hk
      obtain ⟨hle, hlast⟩ := lastLine_bounds e hkl
      rw [List.mem_singleton.mp hn]
      exact ⟨hle, hlast.trans_le (nextHeader_le_length ls k)⟩
  · rcases Nat.le_total (lastLine .parenthesis ls k) (lastLine .terminator ls k) with h | h
    · exact Or.inl (prefix_slice ls k (Nat.succ_le_succ h))
    · exact Or.inr (prefix_slice ls k (Nat.succ_le_succ h))

end TableLoader.Dump
