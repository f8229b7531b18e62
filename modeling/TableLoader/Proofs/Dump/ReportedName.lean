import TableLoader.Proofs.Dump.RoundTrip
import TableLoader.Proofs.Text.LetterCase

/-! # The name that is reported for a table

A statement may name its table by a plain word or between backticks, with a qualifier before it and the words
`IF NOT EXISTS` before that. The pattern for MySQL takes the first run of name characters that it meets, so it
reports the table's own name only where no qualifier stands and every character belongs to plain names. -/
namespace TableLoader.Dump

theorem afterWords_cons (word : String) (words : List String) (cs : List Char) :
    afterWords (word :: words) cs =
      ((afterWord word.toList cs).bind afterBlanks).bind (afterWords words) := rfl

theorem afterWord_two (a b : Char) (rest : List Char) :
    afterWord "if".toList (a :: b :: rest) = none ∨
      (afterWord "if".toList (a :: b :: rest) = some rest ∧ Text.foldsTo 'f' b = true) := by
  change afterWord ['i', 'f'] (a :: b :: rest) = none ∨ (afterWord ['i', 'f'] (a :: b :: rest) = some rest ∧ _)
  simp only [afterWord]
  split
  · split
    · next h => exact Or.inr ⟨rfl, h⟩
    · exact Or.inl rfl
  · exact Or.inl rfl

theorem afterWords_guard_eq_none {a b : Char} (rest : List Char)
    (h : Text.foldsTo 'f' b = true → ∀ more, afterBlanks rest = some more →
      afterWords ["not", "exists"] more = none) :
    afterWords ["if", "not", "exists"] (a :: b :: rest) = none := by
  rw [afterWords_cons]
  rcases afterWord_two a b rest with hw | ⟨hw, hb⟩
  · rw [hw]; rfl
  · rw [hw, Option.bind_some]
    cases hm : afterBlanks rest with
    | none => rfl
    | some more => exact h hb more hm

inductive Spelling where
  | word (cs : List Char) (ne : cs ≠ []) (plain : ∀ c ∈ cs, c.isAlphanum = true ∨ c = '_')
  | quoted (cs : List Char) (ne : cs ≠ []) (inside : ∀ c ∈ cs, c ∉ ['\x60', '(', ')', '\n'])

namespace Spelling

def name : Spelling → List Char
  | word cs .. => cs
  | quoted cs .. => cs

def text : Spelling → List Char
  | word cs .. => cs
  | quoted cs .. => Dump.quoted [] cs []

def run (s : Spelling) : List Char := s.name.takeWhile isNameChar

theorem name_ne_nil (s : Spelling) : s.name ≠ [] := by
  cases s with
  | word cs ne plain => exact ne
  | quoted cs ne inside => exact ne

theorem run_eq_name_iff (s : Spelling) : s.run = s.name ↔ ∀ c ∈ s.name, isNameChar c = true :=
  List.takeWhile_eq_self_iff

theorem isNameChar_of_plain {c : Char} (h : c.isAlphanum = true ∨ c = '_') :
    isNameChar c = true := by
  rcases h with h | h <;> simp [isNameChar, h]

theorem fst_takeName {cs run : List Char} (h : cs.takeWhile isNameChar = run) :
    (takeName cs).map (·.1) = if run = [] then none else some run := by
  subst h
  simp only [takeName]
  split <;> rfl

/-- The pattern reads the run of the name that stands in front, if it has one. -/
theorem backtickName?_text (s : Spelling) {rest : List Char}
    (hr : ∀ c ∈ rest.head?, isNameChar c = false) :
    backtickName? (s.text ++ rest) = if s.run = [] then none else some s.run := by
  cases s with
  | word cs ne plain =>
    have hw : ∀ c ∈ cs, isNameChar c = true := fun c hc => isNameChar_of_plain (plain c hc)
    have hrun : cs.takeWhile isNameChar = cs := List.takeWhile_eq_self_iff.mpr hw
    obtain ⟨ht, -⟩ := Text.takeWhile_append_stop hw hr
    have hq : ∀ inner, cs ++ rest = '\x60' :: inner → False := by
      intro inner he
      obtain ⟨c, cs, rfl⟩ := List.exists_cons_of_ne_nil ne
      have hc := hw c List.mem_cons_self
      rw [(List.cons.inj he).1] at hc
      exact absurd hc (by decide)
    rw [text, backtickName?, fst_takeName (ht.trans hrun.symm)]
    · rfl
    · exact hq
  | quoted cs ne inside =>
    have ht : (cs ++ '\x60' :: rest).takeWhile isNameChar = cs.takeWhile isNameChar := by
      rw [List.takeWhile_append]
      split
      · next hl =>
        have hq : isNameChar '\x60' = false := by decide
        rw [List.takeWhile_cons_of_neg (by simp [hq]), List.append_nil]
        exact ((List.takeWhile_prefix _).eq_of_length hl).symm
      · rfl
    have htext : (quoted cs ne inside).text ++ rest = '\x60' :: (cs ++ '\x60' :: rest) := by
      simp [text, Dump.quoted]
    rw [htext, backtickName?, fst_takeName ht]
    rfl

theorem trimStart_text (s : Spelling) (rest : List Char) :
    Text.trimStart (s.text ++ rest) = s.text ++ rest := by
  cases s with
  | word cs ne plain =>
    obtain ⟨c, cs, rfl⟩ := List.exists_cons_of_ne_nil ne
    have hc : Text.isBlank c = false := by
      rcases plain c List.mem_cons_self with h | rfl
      · exact Text.isBlank_of_isAlphanum h
      · decide
    simp [text, Text.trimStart, hc]
  | quoted cs ne inside => rfl

theorem isBlank_of_plain {c : Char} (h : c.isAlphanum = true ∨ c = '_') : Text.isBlank c = false := by
  rcases h with h | rfl
  · exact Text.isBlank_of_isAlphanum h
  · decide

/-- No name is taken for the words before it: a plain word is followed by a mark, and a backtick begins no
word. -/
theorem afterWords_text (s : Spelling) {rest : List Char}
    (hr : (∃ more, rest = '.' :: more) ∨ ∃ more, rest = ' ' :: '(' :: more) :
    afterWords ["if", "not", "exists"] (s.text ++ rest) = none := by
  cases s with
  | quoted cs ne inside => rfl
  | word cs ne plain =>
    match cs, ne with
    | [a], _ =>
      rcases hr with ⟨more, rfl⟩ | ⟨more, rfl⟩
      · exact afterWords_guard_eq_none _ fun hf => absurd hf (by decide)
      · exact afterWords_guard_eq_none _ fun hf => absurd hf (by decide)
    | [a, b], _ =>
      rcases hr with ⟨more, rfl⟩ | ⟨more, rfl⟩
      · refine afterWords_guard_eq_none ('.' :: more) fun _ _ he => ?_
        simp [afterBlanks, show Text.isBlank '.' = false by decide] at he
      · refine afterWords_guard_eq_none (' ' :: '(' :: more) fun _ _ he => ?_
        obtain rfl : '(' :: more = _ := Option.some.inj he
        rfl
    | a :: b :: c :: cs, _ =>
      refine afterWords_guard_eq_none (c :: (cs ++ rest)) fun _ _ he => ?_
      have hc : Text.isBlank c = false := isBlank_of_plain (plain c (by simp))
      simp [afterBlanks, hc] at he

end Spelling

/-- A statement up to its opening parenthesis. -/
structure Heading where
  guarded : Bool
  qualifier : Option Spelling
  name : Spelling

namespace Heading

def guard (h : Heading) : List Char := if h.guarded then guardMark else []

def qualification (h : Heading) : List Char := h.qualifier.elim [] fun q => q.text ++ ['.']

def front (h : Heading) : Line :=
  createMark ++ (h.guard ++ (h.qualification ++ (h.name.text ++ [' '])))

def statement (h : Heading) (body : List Char) : List Char :=
  h.front ++ '(' :: (body ++ [')', ';'])

def first (h : Heading) : Spelling := h.qualifier.getD h.name

/-- What the pattern finds in the heading. A first name that begins with no name character makes it take the
guard for the name. -/
def found? (h : Heading) : Option (List Char) :=
  if h.first.run ≠ [] then some h.first.run
  else if h.guarded then some "IF".toList
  else none

/-- Whether what the pattern finds is the name of the table. -/
def Kept (h : Heading) : Prop :=
  match h.qualifier with
  | none => ∀ c ∈ h.name.name, isNameChar c = true
  | some q => q.run = h.name.name ∨ (q.run = [] ∧ h.guarded = true ∧ h.name.name = "IF".toList)

theorem found?_eq_name_iff (h : Heading) : h.found? = some h.name.name ↔ h.Kept := by
  unfold found? Kept first
  cases hq : h.qualifier with
  | none =>
    rw [← h.name.run_eq_name_iff, Option.getD_none]
    by_cases hr : h.name.run = []
    · have hn : ¬ h.name.run = h.name.name := fun he => h.name.name_ne_nil (he ▸ hr)
      have hif : ¬ "IF".toList = h.name.name := by
        intro he
        have hchars : ∀ c ∈ "IF".toList, isNameChar c = true := by
          simpa using (show isNameChar 'I' = true ∧ isNameChar 'F' = true by decide)
        exact hn (h.name.run_eq_name_iff.mpr (he ▸ hchars))
      rw [if_neg (not_not.mpr hr)]
      split
      · exact iff_of_false (fun he => hif (Option.some.inj he)) hn
      · exact iff_of_false (by simp) hn
    · simp [hr]
  | some q =>
    rw [Option.getD_some]
    by_cases hr : q.run = []
    · have hn : ¬ [] = h.name.name := fun he => h.name.name_ne_nil he.symm
      cases h.guarded <;> simp [hr, hn, eq_comm]
    · simp [hr]

instance (h : Heading) : Decidable h.Kept := decidable_of_iff _ h.found?_eq_name_iff

theorem exists_after_first (h : Heading) (rest : List Char) :
    ∃ after, h.front ++ '(' :: rest = createMark ++ (h.guard ++ (h.first.text ++ after)) ∧
      ((∃ more, after = '.' :: more) ∨ ∃ more, after = ' ' :: '(' :: more) := by
  cases hq : h.qualifier with
  | none =>
    refine ⟨' ' :: '(' :: rest, ?_, Or.inr ⟨rest, rfl⟩⟩
    simp [front, qualification, first, hq]
  | some q =>
    refine ⟨'.' :: (h.name.text ++ ' ' :: '(' :: rest), ?_, Or.inl ⟨_, rfl⟩⟩
    simp [front, qualification, first, hq]

theorem nameHere?_front (h : Heading) (rest : List Char) :
    nameHere? backtickName? (h.front ++ '(' :: rest) = h.found? := by
  obtain ⟨after, he, ha⟩ := h.exists_after_first rest
  have hstop : ∀ c ∈ after.head?, isNameChar c = false := by
    rcases ha with ⟨more, rfl⟩ | ⟨more, rfl⟩ <;> (rintro _ ⟨⟩; decide)
  have hread := h.first.backtickName?_text hstop
  rw [he, nameHere?, TableText.afterWords_createMark, Option.bind_some]
  unfold guard found?
  cases h.guarded with
  | true =>
    have hif : backtickName? (guardMark ++ (h.first.text ++ after)) = some "IF".toList := rfl
    simp only [↓reduceIte, TableText.trimStart_guardMark, TableText.afterWords_guardMark,
      Option.bind_some, h.first.trimStart_text, hread, hif]
    by_cases hr : h.first.run = [] <;> simp [hr]
  | false =>
    simp only [Bool.false_eq_true, ↓reduceIte, List.nil_append, h.first.trimStart_text,
      h.first.afterWords_text ha, Option.bind_none, Option.none_or, hread]
    by_cases hr : h.first.run = [] <;> simp [hr]

theorem findName?_front (h : Heading) {rest name : List Char} (hf : h.found? = some name) :
    findName? backtickName? (h.front ++ '(' :: rest) = some name := by
  have hh := h.nameHere?_front rest
  obtain ⟨c, cs, hc⟩ := List.exists_cons_of_ne_nil
    (show h.front ++ '(' :: rest ≠ [] from List.append_ne_nil_of_right_ne_nil _ (List.cons_ne_nil _ _))
  rw [hc] at hh ⊢
  rw [findName?, hh, hf, Option.some_or]

theorem findName?_eq_none {cs : List Char}
    (h : ∀ k, nameHere? backtickName? (cs.drop k) = none) : findName? backtickName? cs = none := by
  induction cs with
  | nil => rfl
  | cons c cs ih =>
    have hhere := h 0
    rw [findName?, ih fun k => h (k + 1), ← List.drop_zero (l := c :: cs), hhere]
    rfl

theorem findName?_front_eq_none (h : Heading) {rest : List Char} (hf : h.found? = none)
    (once : ∀ k, 0 < k →
      afterWords ["create", "table"] ((h.front ++ '(' :: rest).drop k) = none) :
    findName? backtickName? (h.front ++ '(' :: rest) = none := by
  apply findName?_eq_none
  intro k
  rcases Nat.eq_zero_or_pos k with rfl | hk
  · rw [List.drop_zero, h.nameHere?_front, hf]
  · rw [nameHere?, once k hk, Option.bind_none]

end Heading

theorem splitOnP_append {front : List Char} (hn : '\n' ∉ front) (more : List Char) :
    (front ++ more).splitOnP (· == '\n') = (more.splitOnP (· == '\n')).modifyHead (front ++ ·) := by
  induction front with
  | nil =>
    cases hs : more.splitOnP (· == '\n') <;> simp [hs]
  | cons c front ih =>
    obtain ⟨hc, hn⟩ := not_or.mp (fun h => hn (List.mem_cons.mpr h))
    have hc : ¬ (c == '\n') = true := fun he => hc (eq_of_beq he).symm
    rw [List.cons_append, List.splitOnP_cons_eq_if_modifyHead, if_neg hc, ih hn]
    simp [List.modifyHead_modifyHead, Function.comp_def]

/-- What stands on one line in front of a text stands in front of its first line. -/
theorem exists_lines_append {front : List Char} (hn : '\n' ∉ front) {last : Char}
    (hl : front.getLast? = some last) (hlast : last ≠ '\r') (more : List Char) :
    ∃ r ls, Text.lines (front ++ more) = (front ++ r) :: ls := by
  have hne : front ≠ [] := by
    rintro rfl
    simp at hl
  obtain ⟨piece, pieces, hs⟩ := List.exists_cons_of_ne_nil (List.splitOnP_ne_nil (· == '\n') more)
  rw [Text.lines, splitOnP_append hn, hs, List.modifyHead_cons]
  by_cases hp : pieces = []
  · subst hp
    exact ⟨piece, [], by simp [Text.finishLines, hne]⟩
  · rw [Text.finishLines_cons hp, Text.dropReturn]
    split
    · next hr =>
      have hpiece : piece ≠ [] := by
        rintro rfl
        rw [List.append_nil, hl] at hr
        exact hlast (Option.some.inj hr)
      exact ⟨piece.dropLast, _, by rw [List.dropLast_append_of_ne_nil hpiece]⟩
    · exact ⟨piece, _, rfl⟩

theorem scan_outside {e : Ending} {ls : List Line} (h : ∀ line ∈ ls, isHeader line = false) :
    scan e [] 0 ls = [] := by
  induction ls with
  | nil => rfl
  | cons line ls ih =>
    obtain ⟨hh, hls⟩ := List.forall_mem_cons.mp h
    rw [scan_skip hh, ih hls]

/-- Behind a header that no other one follows the scanner finds one fragment, which begins with its line. -/
theorem scan_headless {e : Ending} {ls : List Line} (h : ∀ line ∈ ls, isHeader line = false)
    (current : List Line) (hc : current ≠ []) (depth : Int) :
    ∃ j, scan e current depth ls = [current ++ ls.take j] := by
  induction ls generalizing current depth with
  | nil => exact ⟨0, by simp [scan, flush, hc]⟩
  | cons line ls ih =>
    obtain ⟨hh, hls⟩ := List.forall_mem_cons.mp h
    have hskip := scan_outside (e := e) hls
    rw [scan, if_neg (by simp [hh]), if_neg hc]
    split
    · exact ⟨1, by rw [hskip]; rfl⟩
    · obtain ⟨j, hj⟩ := ih hls (current ++ [line]) (by simp) (depth + nesting line)
      exact ⟨j + 1, by rw [hj]; simp⟩

theorem exists_findName?_of_tableOf? {name? : List Char → Option (List Char)} {cs : List Char}
    {t : Table} (h : tableOf? name? cs = some t) :
    ∃ name, findName? name? cs = some name ∧ t.name.toList = name := by
  obtain ⟨name, -, hn, -, -, rfl⟩ := tableOf?_eq_some_iff.mp h
  exact ⟨name, hn, String.toList_ofList⟩

namespace Heading

theorem notMem_text {s : Spelling} {x : Char} (hx : x ∈ ['(', ')', '\n']) : x ∉ s.text := by
  simp only [List.mem_cons, List.not_mem_nil, or_false] at hx
  cases s with
  | word cs ne plain =>
    intro hm
    rcases plain x hm with h | h
    · rcases hx with rfl | rfl | rfl <;> exact absurd h (by decide)
    · rcases hx with rfl | rfl | rfl <;> exact absurd h (by decide)
  | quoted cs ne inside =>
    have hcs : x ∉ cs := fun hm => inside x hm (by rcases hx with rfl | rfl | rfl <;> simp)
    rcases hx with rfl | rfl | rfl <;> simp [Spelling.text, quoted, hcs]

theorem notMem_front (h : Heading) {x : Char} (hx : x ∈ ['(', ')', '\n']) : x ∉ h.front := by
  have hname : x ∉ h.name.text := notMem_text hx
  have hq : x ∉ h.qualification := by
    unfold qualification
    cases h.qualifier with
    | none => simp
    | some q =>
      have hm : x ∉ q.text := notMem_text hx
      simp only [List.mem_cons, List.not_mem_nil, or_false] at hx
      rcases hx with rfl | rfl | rfl <;> simp [hm]
  simp only [List.mem_cons, List.not_mem_nil, or_false] at hx
  have hg : x ∉ h.guard := by
    unfold guard
    split
    · rcases hx with rfl | rfl | rfl <;> decide
    · simp
  have hc : x ∉ createMark := by rcases hx with rfl | rfl | rfl <;> decide
  have hb : x ∉ [' '] := by rcases hx with rfl | rfl | rfl <;> decide
  simp only [front, List.mem_append, not_or]
  exact ⟨hc, hg, hq, hname, hb⟩

theorem isHeader_front (h : Heading) (rest : List Char) :
    isHeader (h.front ++ '(' :: rest) = true := by
  rw [front, List.append_assoc]
  exact isHeader_createMark_append _

theorem exists_fragments (h : Heading) {body : List Char} {e : Ending}
    (later : ∀ line ∈ (Text.lines (h.statement body)).tail, isHeader line = false) :
    ∃ rest, fragments e (h.statement body) = [h.front ++ '(' :: rest] := by
  have hn : '\n' ∉ h.front ++ ['('] := by
    simpa using h.notMem_front (x := '\n') (by simp)
  obtain ⟨r, ls, hl⟩ := exists_lines_append hn List.getLast?_concat (by decide) (body ++ [')', ';'])
  have hs : h.statement body = h.front ++ ['('] ++ (body ++ [')', ';']) := by simp [statement]
  rw [← hs] at hl
  rw [hl, List.tail_cons] at later
  have hheader := h.isHeader_front r
  have hfront : h.front ++ ['('] ++ r = h.front ++ '(' :: r := by simp
  have hjoin : ∀ ls : List Line, ∃ rest,
      Text.joinLines ((h.front ++ '(' :: r) :: ls) = h.front ++ '(' :: rest := by
    intro ls
    by_cases hls : ls = []
    · subst hls
      exact ⟨r, List.intercalate_singleton⟩
    · exact ⟨r ++ '\n' :: Text.joinLines ls, by rw [Text.joinLines_cons hls]; simp⟩
  rw [fragments, hl, hfront, scan, if_pos hheader]
  split
  · obtain ⟨rest, hj⟩ := hjoin []
    exact ⟨rest, by rw [scan_outside later]; simp [flush, hj]⟩
  · obtain ⟨j, hj⟩ := scan_headless (e := e) later [h.front ++ '(' :: r] (by simp)
      (nesting (h.front ++ '(' :: r))
    obtain ⟨rest, hr⟩ := hjoin (ls.take j)
    exact ⟨rest, by rw [hj]; simp [flush, hr]⟩

/-- Of a heading that no other one follows at most one table is reported, under what the pattern finds in the
heading; and that is the table's own name just where it is kept. -/
theorem mysqlTables_statement (h : Heading) {body : List Char}
    (later : ∀ line ∈ (Text.lines (h.statement body)).tail, isHeader line = false)
    (once : h.found? = none → ∀ f ∈ fragments .parenthesis (h.statement body), ∀ k, 0 < k →
      afterWords ["create", "table"] (f.drop k) = none) :
    mysqlTables (String.ofList (h.statement body)) = [] ∨
      ∃ t, mysqlTables (String.ofList (h.statement body)) = [t] ∧
        h.found? = some t.name.toList ∧ (t.name.toList = h.name.name ↔ h.Kept) := by
  obtain ⟨rest, hf⟩ := h.exists_fragments (e := .parenthesis) later
  rw [hf] at once
  rw [mysqlTables, tablesBy, String.toList_ofList, hf, List.filterMap_cons, List.filterMap_nil]
  cases ht : tableOf? backtickName? (h.front ++ '(' :: rest) with
  | none => exact Or.inl rfl
  | some t =>
    refine Or.inr ⟨t, rfl, ?_⟩
    obtain ⟨name, hn, hname⟩ := exists_findName?_of_tableOf? ht
    have hfound : h.found? = some t.name.toList := by
      cases hc : h.found? with
      | some found =>
        rw [h.findName?_front hc] at hn
        rw [hname, Option.some.inj hn]
      | none =>
        rw [h.findName?_front_eq_none hc fun k hk => once hc _ List.mem_cons_self k hk] at hn
        exact absurd hn (by simp)
    refine ⟨hfound, ?_⟩
    rw [← h.found?_eq_name_iff, hfound, Option.some_inj]

def logs : Heading := ⟨true, none, .quoted "logs".toList (by decide) (by simp)⟩

def idColumn : List Char := " id int ".toList

theorem mysqlTables_statement_logs :
    (∀ line ∈ (Text.lines (logs.statement idColumn)).tail, isHeader line = false) ∧
      logs.Kept ∧
      (mysqlTables (String.ofList (logs.statement idColumn)) = [] ∨
        ∃ t, mysqlTables (String.ofList (logs.statement idColumn)) = [t] ∧
          logs.found? = some t.name.toList ∧ (t.name.toList = logs.name.name ↔ logs.Kept)) := by
  have hl : ∀ line ∈ (Text.lines (logs.statement idColumn)).tail, isHeader line = false := by
    decide +kernel
  have hn : logs.found? ≠ none := by decide +kernel
  have hk : logs.Kept := by decide +kernel
  exact ⟨hl, hk, logs.mysqlTables_statement hl fun h => absurd h hn⟩

def orderItems : Heading :=
  ⟨false, none, .quoted "order-items".toList (by decide) (by simp)⟩

def shopOrders : Heading :=
  ⟨false, some (.word "shop".toList (by decide) (by simp)),
    .word "orders".toList (by decide) (by simp)⟩

def summer : Heading := ⟨true, none, .quoted "été".toList (by decide) (by simp)⟩

/-- A name is cut at its hyphen, gives way to its qualifier, or to a word of the guard. -/
theorem mysqlTables_statement_misnamed :
    mysqlTables (String.ofList (orderItems.statement idColumn)) =
        [⟨"order", [⟨"id", "int", true⟩]⟩] ∧
      mysqlTables (String.ofList (shopOrders.statement idColumn)) =
        [⟨"shop", [⟨"id", "int", true⟩]⟩] ∧
      mysqlTables (String.ofList (summer.statement idColumn)) =
        [⟨"IF", [⟨"id", "int", true⟩]⟩] := by
  decide +kernel

end Heading

end TableLoader.Dump
