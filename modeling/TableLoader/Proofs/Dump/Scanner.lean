import TableLoader.Dump.Fragment
import TableLoader.Proofs.Text.Lines

/-! # The scanner on well-formed statements

Outside a statement the scanner skips every line that is no header. Inside one it goes on until its nesting comes
back to zero, so a statement ends at its closing line and nowhere before. -/
namespace TableLoader.Dump

@[simp] theorem nesting_nil : nesting [] = 0 := rfl

theorem nesting_append (a b : List Char) : nesting (a ++ b) = nesting a + nesting b := by
  simp only [nesting, List.count_append, Nat.cast_add]
  omega

theorem nesting_cons (c : Char) (cs : List Char) : nesting (c :: cs) = nesting [c] + nesting cs :=
  nesting_append [c] cs

theorem nesting_eq_zero {cs : List Char} (ho : '(' ∉ cs) (hc : ')' ∉ cs) : nesting cs = 0 := by
  simp [nesting, List.count_eq_zero_of_not_mem ho, List.count_eq_zero_of_not_mem hc]

theorem nesting_of_blanks {cs : List Char} (h : ∀ c ∈ cs, Text.isBlank c = true) : nesting cs = 0 :=
  nesting_eq_zero (fun hm => absurd (h _ hm) (by decide)) fun hm => absurd (h _ hm) (by decide)

theorem nesting_append_open {front : List Char} (ho : '(' ∉ front) (hc : ')' ∉ front) :
    nesting (front ++ ['(']) = 1 := by
  rw [nesting_append, nesting_eq_zero ho hc]
  rfl

theorem isHeader_dropReturn (line : Line) : isHeader (Text.dropReturn line) = isHeader line := by
  rw [isHeader, Text.trim_dropReturn, ← isHeader]

theorem nesting_dropReturn (line : Line) : nesting (Text.dropReturn line) = nesting line := by
  unfold Text.dropReturn
  split
  · next h =>
    obtain ⟨init, rfl⟩ := List.getLast?_eq_some_iff.mp h
    rw [List.dropLast_concat, nesting_append]
    exact (add_zero _).symm
  · rfl

/-- Outside a statement a line counts only if it is a header. -/
theorem scan_skip {e : Ending} {line : Line} (h : isHeader line = false) (rest : List Line) :
    scan e [] 0 (line :: rest) = scan e [] 0 rest := by
  simp [scan, h]

/-- The same for a line of a text, whose carriage return is dropped and which does not count if it is empty
and the last one. -/
theorem scan_finishLines_skip {e : Ending} {line : Line} (h : isHeader line = false)
    (rest : List Line) :
    scan e [] 0 (Text.finishLines (line :: rest)) = scan e [] 0 (Text.finishLines rest) := by
  by_cases hr : rest = []
  · subst hr
    unfold Text.finishLines
    split
    · rfl
    · exact scan_skip h []
  · rw [Text.finishLines_cons hr]
    exact scan_skip (isHeader_dropReturn line ▸ h) _

/-- Inside a statement lines are taken in as long as its nesting does not come back to zero. -/
theorem scan_open {e : Ending} {ls : List Line} (hh : ∀ line ∈ ls, isHeader line = false)
    {current : List Line} (hc : current ≠ []) {depth : Int}
    (hopen : ∀ front, front <+: ls → depth + nesting front.flatten ≠ 0) (rest : List Line) :
    scan e current depth (ls ++ rest) = scan e (current ++ ls) (depth + nesting ls.flatten) rest := by
  induction ls generalizing current depth with
  | nil => simp
  | cons line ls ih =>
    obtain ⟨hline, hls⟩ := List.forall_mem_cons.mp hh
    have hone : depth + nesting line ≠ 0 := by
      simpa using hopen [line] (by simp)
    have hmore : ∀ front, front <+: ls → depth + nesting line + nesting front.flatten ≠ 0 := by
      intro front hfront
      have hfull := hopen (line :: front) (List.cons_prefix_cons.mpr ⟨rfl, hfront⟩)
      rwa [List.flatten_cons, nesting_append, ← add_assoc] at hfull
    rw [List.cons_append, scan, if_neg (by simp [hline]), if_neg hc, if_neg (fun hz => hone hz.1),
      ih hls (by simp) hmore, List.flatten_cons, nesting_append, add_assoc]
    simp

theorem nesting_flatten_eq_zero {ls : List Line} (h : ∀ line ∈ ls, nesting line = 0) :
    nesting ls.flatten = 0 := by
  induction ls with
  | nil => rfl
  | cons line ls ih =>
    obtain ⟨hline, hls⟩ := List.forall_mem_cons.mp h
    rw [List.flatten_cons, nesting_append, hline, ih hls, add_zero]

theorem scan_inner {e : Ending} {inner : List Line}
    (h : ∀ line ∈ inner, isHeader line = false ∧ nesting line = 0) {current : List Line}
    (hc : current ≠ []) {depth : Int} (hd : depth ≠ 0) (rest : List Line) :
    scan e current depth (inner ++ rest) = scan e (current ++ inner) depth rest := by
  have hzero : ∀ front, front <+: inner → nesting front.flatten = 0 := by
    intro front hfront
    exact nesting_flatten_eq_zero fun line hl => (h line (hfront.subset hl)).2
  have hopen : ∀ front, front <+: inner → depth + nesting front.flatten ≠ 0 := by
    intro front hfront
    rwa [hzero front hfront, add_zero]
  rw [scan_open (fun line hl => (h line hl).1) hc hopen, hzero inner List.prefix_rfl, add_zero]

/-- A statement from its header to the line that closes its parenthesis is one fragment. -/
theorem scan_statement {e : Ending} {header closing : Line} {inner : List Line}
    (hh : isHeader header = true) (hn : nesting header = 1)
    (hi : ∀ line ∈ inner, isHeader line = false ∧ nesting line = 0)
    (hc : isHeader closing = false) (hcn : nesting closing = -1) (ha : e.allows closing = true)
    (rest : List Line) :
    scan e [] 0 (header :: (inner ++ closing :: rest)) =
      (header :: (inner ++ [closing])) :: scan e [] 0 rest := by
  have hone : (1 : Int) ≠ 0 := by decide
  rw [scan, if_pos hh, hn, if_neg (fun hz => hone hz.1), scan_inner hi (by simp) hone, scan,
    if_neg (by simp [hc]), if_neg (by simp), hcn, if_pos ⟨by decide, ha⟩]
  simp [flush]

theorem bne_of_notMem {stop : Char} {cs : List Char} (h : stop ∉ cs) : ∀ c ∈ cs, (c != stop) = true := by
  intro c hc
  rw [bne_iff_ne]
  rintro rfl
  exact h hc

theorem dropWhile_append_cons {stop : Char} {front : List Char} (h : stop ∉ front) (rest : List Char) :
    (front ++ stop :: rest).dropWhile (· != stop) = stop :: rest := by
  rw [List.dropWhile_append_of_pos (bne_of_notMem h)]
  simp

theorem beforeLast?_append {stop : Char} (before : List Char) {rest : List Char}
    (h : stop ∉ rest) : beforeLast? stop (before ++ stop :: rest) = some before := by
  have hreverse : (before ++ stop :: rest).reverse = rest.reverse ++ stop :: before.reverse := by simp
  rw [beforeLast?, hreverse, dropWhile_append_cons (by simpa using h)]
  simp

theorem beforeLast?_append_left {stop : Char} {cs before : List Char}
    (h : beforeLast? stop cs = some before) (front : List Char) :
    beforeLast? stop (front ++ cs) = some (front ++ before) := by
  unfold beforeLast? at h
  split at h
  · simp at h
  · next c rest hd =>
    obtain rfl := Option.some.inj h
    have hreach : (front ++ cs).reverse.dropWhile (· != stop) = c :: (rest ++ front.reverse) := by
      rw [List.reverse_append, List.dropWhile_append, hd]
      rfl
    rw [beforeLast?, hreach]
    simp

/-- The body of a statement begins behind its first opening parenthesis, wherever it ends. -/
theorem body?_append_cons {front : List Char} (hf : '(' ∉ front) (rest : List Char) :
    body? (front ++ '(' :: rest) = beforeLast? ')' rest := by
  rw [body?, dropWhile_append_cons hf]

theorem body?_append {front : List Char} (body : List Char) {back : List Char}
    (hf : '(' ∉ front) (hb : ')' ∉ back) :
    body? (front ++ '(' :: (body ++ ')' :: back)) = some body := by
  rw [body?_append_cons hf, beforeLast?_append body hb]

end TableLoader.Dump
