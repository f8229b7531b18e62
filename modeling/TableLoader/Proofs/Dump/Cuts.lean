import TableLoader.Proofs.Dump.Clauses

/-! # Cuts

Where a text is cut, told by positions alone: a separator stands there, and before it as many parentheses close as
open. The splitter gives the pieces between these positions and drops none but the empty ones, so it loses no
character but the commas it cuts at. No piece has a cut of its own. -/
namespace TableLoader.Dump

/-- The positions of the separators before which as many parentheses close as open, from a given depth on. -/
def cuts (stops : List Char) (depth : Int) (cs : List Char) : List ℕ :=
  (List.range cs.length).filter fun i =>
    cs[i]?.any stops.contains && depth + nesting (cs.take i) == 0

/-- What stands from position `p` on between each two of the positions. -/
def between (cs : List Char) : ℕ → List ℕ → List (List Char)
  | p, [] => [cs.drop p]
  | p, i :: is => (cs.take i).drop p :: between cs (i + 1) is

/-- What stands between each two cuts, in front of the first and behind the last. -/
def pieces (stops : List Char) (depth : Int) (cs : List Char) : List (List Char) :=
  between cs 0 (cuts stops depth cs)

/-- What is left of a text without the characters that it is cut at. -/
def uncut (stops : List Char) (depth : Int) (cs : List Char) : List Char :=
  (List.range cs.length).filterMap fun i => if i ∈ cuts stops depth cs then none else cs[i]?

variable {stops cs a piece : List Char} {ps : List (List Char)} {depth : Int} {c : Char}

theorem cuts_cons : cuts stops depth (c :: cs) =
    (if c ∈ stops ∧ depth = 0 then [0] else []) ++
      (cuts stops (depth + nesting [c]) cs).map (· + 1) := by
  have hnest : ∀ i, nesting (c :: cs.take i) = nesting [c] + nesting (cs.take i) :=
    fun i => nesting_cons c _
  rw [cuts, cuts, List.length_cons, List.range_succ_eq_map, List.filter_cons, List.filter_map]
  by_cases hc : c ∈ stops ∧ depth = 0 <;>
    simp [hc, Function.comp_def, hnest, add_assoc]

theorem between_cons_succ (p : ℕ) (is : List ℕ) :
    between (c :: cs) (p + 1) (is.map (· + 1)) = between cs p is := by
  induction is generalizing p with
  | nil => rfl
  | cons i is ih => rw [List.map_cons, between, ih]; rfl

theorem between_cons_zero (is : List ℕ) :
    between (c :: cs) 0 (is.map (· + 1)) = (between cs 0 is).modifyHead (c :: ·) := by
  cases is with
  | nil => rfl
  | cons i is => rw [List.map_cons, between, between_cons_succ]; rfl

theorem pieces_cons : pieces stops depth (c :: cs) =
    if c ∈ stops ∧ depth = 0 then [] :: pieces stops (depth + nesting [c]) cs
    else (pieces stops (depth + nesting [c]) cs).modifyHead (c :: ·) := by
  rw [pieces, cuts_cons]
  split
  · rw [List.singleton_append, between, between_cons_succ]
    rfl
  · rw [List.nil_append, between_cons_zero]
    rfl

/-- The splitter finds the cuts at commas. -/
theorem segments_eq_pieces (depth : Int) (cs : List Char) : segments depth cs = pieces [','] depth cs := by
  induction cs generalizing depth with
  | nil => rfl
  | cons c cs ih =>
    rw [segments, pieces_cons, ih, ih]
    by_cases hc : c = ',' ∧ depth = 0
    · obtain ⟨rfl, rfl⟩ := hc
      rfl
    · rw [if_neg hc, if_neg (by simpa using hc)]

theorem exists_pieces_append (stops : List Char) (depth : Int) (a : List Char) :
    ∃ init last, pieces stops depth a = init ++ [last] ∧ ∀ b, pieces stops depth (a ++ b) =
      init ++ (pieces stops (depth + nesting a) b).modifyHead (last ++ ·) := by
  induction a generalizing depth with
  | nil =>
    refine ⟨[], [], rfl, fun b => ?_⟩
    cases hp : pieces stops depth b <;> simp [hp]
  | cons c a ih =>
    obtain ⟨init, last, ha, happ⟩ := ih (depth + nesting [c])
    have hdepth : depth + nesting [c] + nesting a = depth + nesting (c :: a) := by
      rw [nesting_cons c a, add_assoc]
    rw [hdepth] at happ
    -- A cut begins a new piece. Any other character joins the first one, which may be the last one as well.
    by_cases hc : c ∈ stops ∧ depth = 0
    · refine ⟨[] :: init, last, ?_, fun b => ?_⟩
      · rw [pieces_cons, if_pos hc, ha, List.cons_append]
      · rw [List.cons_append, pieces_cons, if_pos hc, happ, List.cons_append]
    · cases init with
      | nil =>
        refine ⟨[], c :: last, ?_, fun b => ?_⟩
        · rw [pieces_cons, if_neg hc, ha]
          rfl
        · rw [List.cons_append, pieces_cons, if_neg hc, happ, List.nil_append, List.nil_append,
            List.modifyHead_modifyHead]
          rfl
      | cons first init =>
        refine ⟨(c :: first) :: init, last, ?_, fun b => ?_⟩
        · rw [pieces_cons, if_neg hc, ha]
          rfl
        · rw [List.cons_append, pieces_cons, if_neg hc, happ]
          rfl

theorem pieces_append_stop {x : Char} (hx : x ∈ stops) (hn : nesting [x] = 0)
    (hd : depth + nesting a = 0) (b : List Char) :
    pieces stops depth (a ++ x :: b) = pieces stops depth a ++ pieces stops 0 b := by
  obtain ⟨init, last, ha, happ⟩ := exists_pieces_append stops depth a
  rw [happ, ha, hd, pieces_cons, if_pos ⟨hx, rfl⟩, hn, List.modifyHead_cons, List.append_nil,
    List.append_assoc]
  rfl

theorem pieces_of_notMem (h : ∀ c ∈ cs, c ∉ stops) (depth : Int) : pieces stops depth cs = [cs] := by
  have hcuts : cuts stops depth cs = [] := by
    rw [cuts, List.filter_eq_nil_iff]
    intro i hi
    have hl := List.mem_range.mp hi
    have hc := h cs[i] (List.getElem_mem hl)
    simp [hl, hc]
  rw [pieces, hcuts]
  rfl

theorem pieces_append_of_notMem (h : ∀ c ∈ a, c ∉ stops) (depth : Int) (b : List Char) :
    pieces stops depth (a ++ b) = (pieces stops (depth + nesting a) b).modifyHead (a ++ ·) := by
  obtain ⟨init, last, ha, happ⟩ := exists_pieces_append stops depth a
  rw [pieces_of_notMem h, eq_comm, List.append_eq_singleton_iff] at ha
  rcases ha with ⟨rfl, hlast⟩ | ⟨-, hlast⟩
  · obtain rfl := List.singleton_inj.mp hlast
    exact happ b
  · exact absurd hlast (List.cons_ne_nil last [])

theorem pieces_congr {stops' : List Char} (h : ∀ c ∈ cs, c ∈ stops ↔ c ∈ stops') (depth : Int) :
    pieces stops depth cs = pieces stops' depth cs := by
  induction cs generalizing depth with
  | nil => rfl
  | cons c cs ih =>
    obtain ⟨hc, hcs⟩ := List.forall_mem_cons.mp h
    rw [pieces_cons, pieces_cons, ih hcs]
    simp only [hc]

theorem pieces_ne_nil (stops : List Char) (depth : Int) (cs : List Char) : pieces stops depth cs ≠ [] := by
  rw [pieces]
  cases cuts stops depth cs <;> exact List.cons_ne_nil _ _

theorem infix_of_mem_pieces (h : piece ∈ pieces stops depth cs) : piece <:+: cs := by
  rw [pieces] at h
  generalize cuts stops depth cs = is at h
  generalize 0 = p at h
  induction is generalizing p with
  | nil =>
    obtain rfl := List.mem_singleton.mp h
    exact (List.drop_suffix p cs).isInfix
  | cons i is ih =>
    rcases List.mem_cons.mp h with rfl | h
    · exact (List.drop_suffix p _).isInfix.trans (List.take_prefix i cs).isInfix
    · exact ih _ h

theorem uncut_cons : uncut stops depth (c :: cs) =
    if c ∈ stops ∧ depth = 0 then uncut stops (depth + nesting [c]) cs
    else c :: uncut stops (depth + nesting [c]) cs := by
  rw [uncut, List.length_cons, List.range_succ_eq_map, cuts_cons, uncut]
  by_cases hc : c ∈ stops ∧ depth = 0 <;>
    simp [hc, List.filterMap_map]

theorem flatten_pieces (stops : List Char) (depth : Int) (cs : List Char) :
    (pieces stops depth cs).flatten = uncut stops depth cs := by
  induction cs generalizing depth with
  | nil => rfl
  | cons c cs ih =>
    rw [pieces_cons, uncut_cons, ← ih]
    split
    · rfl
    · obtain ⟨first, rest, hp⟩ :=
        List.exists_cons_of_ne_nil (pieces_ne_nil stops (depth + nesting [c]) cs)
      rw [hp]
      rfl

/-- What the pieces of a text are like from a given depth on: none holds a cut of its own, and behind each but the
last the depth is zero. -/
inductive CutApart (stops : List Char) : Int → List (List Char) → Prop
  | last {depth : Int} {piece : List Char} (whole : cuts stops depth piece = []) :
      CutApart stops depth [piece]
  | cut {depth : Int} {piece : List Char} {ps : List (List Char)} (whole : cuts stops depth piece = [])
      (settled : depth + nesting piece = 0) (behind : CutApart stops 0 ps) :
      CutApart stops depth (piece :: ps)

namespace CutApart

theorem cons (hc : ¬ (c ∈ stops ∧ depth = 0)) (h : CutApart stops (depth + nesting [c]) ps) :
    CutApart stops depth (ps.modifyHead (c :: ·)) := by
  have hwhole : ∀ {piece}, cuts stops (depth + nesting [c]) piece = [] →
      cuts stops depth (c :: piece) = [] := by
    intro piece hp
    rw [cuts_cons, if_neg hc, hp]
    rfl
  cases h with
  | last whole => exact .last (hwhole whole)
  | cut whole settled behind =>
    refine .cut (hwhole whole) ?_ behind
    rwa [nesting_cons, ← add_assoc]

theorem ne_nil (h : CutApart stops depth ps) : ps ≠ [] := by
  cases h <;> exact List.cons_ne_nil _ _

theorem whole (h : CutApart stops depth ps) (hd : depth = 0) (hp : piece ∈ ps) :
    cuts stops 0 piece = [] := by
  induction h with
  | last whole =>
    obtain rfl := List.mem_singleton.mp hp
    rwa [hd] at whole
  | cut whole _ _ ih =>
    rcases List.mem_cons.mp hp with rfl | hp
    · rwa [hd] at whole
    · exact ih rfl hp

theorem settled (h : CutApart stops depth ps) (hd : depth = 0) (hp : piece ∈ ps.dropLast) :
    nesting piece = 0 := by
  induction h with
  | last => simp at hp
  | cut _ settled behind ih =>
    rw [List.dropLast_cons_of_ne_nil behind.ne_nil] at hp
    rcases List.mem_cons.mp hp with rfl | hp
    · rwa [hd, zero_add] at settled
    · exact ih rfl hp

end CutApart

/-- Every cut is made at depth zero, so the pieces behind it are found from depth zero on. -/
theorem cutApart_pieces (hs : ∀ c ∈ stops, nesting [c] = 0) (depth : Int) (cs : List Char) :
    CutApart stops depth (pieces stops depth cs) := by
  induction cs generalizing depth with
  | nil => exact .last rfl
  | cons c cs ih =>
    rw [pieces_cons]
    split
    · next hc =>
      obtain ⟨hstop, rfl⟩ := hc
      rw [hs c hstop]
      exact .cut rfl rfl (ih 0)
    · next hc => exact (ih _).cons hc

theorem nesting_comma : ∀ c ∈ [','], nesting [c] = 0 := List.forall_mem_singleton.mpr rfl

theorem splitTopLevel_eq_filter (line : List Char) :
    splitTopLevel line = (pieces [','] 0 line).filter (· ≠ []) := by
  rw [splitTopLevel, segments_eq_pieces]

theorem dropLast_sublist_dropLast {ps qs : List (List Char)} (h : ps.Sublist qs) :
    ps.dropLast.Sublist qs.dropLast := by
  rw [← List.reverse_sublist, ← List.tail_reverse, ← List.tail_reverse]
  exact h.reverse.tail

/-- The splitter gives the pieces of a line that are not empty, in order. Put together they are the line without the
commas that it is cut at, in all but the last as many parentheses open as close, and each is split no further. -/
theorem splitTopLevel_lossless (line : List Char) :
    splitTopLevel line = (pieces [','] 0 line).filter (· ≠ []) ∧
      (splitTopLevel line).flatten = uncut [','] 0 line ∧
      (∀ piece ∈ (splitTopLevel line).dropLast, piece.count '(' = piece.count ')') ∧
      ∀ piece ∈ splitTopLevel line, splitTopLevel piece = [piece] := by
  have hsplit := splitTopLevel_eq_filter line
  have hapart := cutApart_pieces nesting_comma 0 line
  refine ⟨hsplit, ?_, ?_, ?_⟩
  · rw [hsplit, List.flatten_filter_ne_nil, flatten_pieces]
  · intro piece hp
    rw [hsplit] at hp
    have hn := hapart.settled rfl ((dropLast_sublist_dropLast List.filter_sublist).subset hp)
    rw [nesting] at hn
    omega
  · intro piece hp
    rw [hsplit] at hp
    obtain ⟨hp, hne⟩ := List.mem_filter.mp hp
    rw [splitTopLevel_eq_filter, pieces, hapart.whole rfl hp, between, List.drop_zero]
    exact List.filter_eq_self.mpr (List.forall_mem_singleton.mpr hne)

/-- A comma below depth zero is no cut, an empty piece is left out, and only the last piece may be unbalanced. -/
theorem splitTopLevel_lossless_unbalanced :
    splitTopLevel ",a)b,c(,DECIMAL(10,2) ,, x(".toList =
        ["a)b,c(".toList, "DECIMAL(10,2) ".toList, " x(".toList] ∧
      uncut [','] 0 ",a)b,c(,DECIMAL(10,2) ,, x(".toList = "a)b,c(DECIMAL(10,2)  x(".toList ∧
      "a)b,c(".toList ∈ (splitTopLevel ",a)b,c(,DECIMAL(10,2) ,, x(".toList).dropLast ∧
      "a)b,c(".toList.count '(' = "a)b,c(".toList.count ')' ∧
      " x(".toList ∈ splitTopLevel ",a)b,c(,DECIMAL(10,2) ,, x(".toList ∧
      splitTopLevel " x(".toList = [" x(".toList] := by
  obtain ⟨-, hjoined, hbalanced, hagain⟩ := splitTopLevel_lossless ",a)b,c(,DECIMAL(10,2) ,, x(".toList
  have hsplit : splitTopLevel ",a)b,c(,DECIMAL(10,2) ,, x(".toList =
      ["a)b,c(".toList, "DECIMAL(10,2) ".toList, " x(".toList] := by decide +kernel
  have hfirst : "a)b,c(".toList ∈ (splitTopLevel ",a)b,c(,DECIMAL(10,2) ,, x(".toList).dropLast := by
    rw [hsplit]
    exact List.mem_cons_self
  have hlast : " x(".toList ∈ splitTopLevel ",a)b,c(,DECIMAL(10,2) ,, x(".toList := by
    rw [hsplit]
    simp
  refine ⟨hsplit, ?_, hfirst, hbalanced _ hfirst, hlast, hagain _ hlast⟩
  rw [← hjoined, hsplit]
  simp

end TableLoader.Dump
