import Mathlib
import TableLoader.Insert

/-! # A plain reader of insert statements

The reader knows the shape of a statement and nothing of how one is written. A quoted name ends at its first
closing delimiter, a string at the first quote that is neither doubled nor escaped, and a bare word is a
maximal run. Main statements: what follows a string cannot change where it ends, and a list of items written
with a mark between each two is read back item by item. -/
namespace TableLoader.Insert

inductive Lexeme where
  | word (text : List Char)
  /-- The inside of a string, with its escapes and doubled quotes. -/
  | string (inner : List Char)
  deriving DecidableEq, Repr

namespace Lexeme

def text : Lexeme → List Char
  | .word text => text
  | .string inner => '\'' :: (inner ++ ['\''])

def ofLiteral : List Char → Lexeme
  | '\'' :: cs => .string cs.dropLast
  | cs => .word cs

end Lexeme

def isWordChar (c : Char) : Bool := c.isAlphanum || c == '+' || c == '-' || c == '.'

/-- What stands before the quote that closes a string, and what follows it. A backslash takes the next
character with it, and a doubled quote is a quote. -/
def takeString : List Char → Option (List Char × List Char)
  | [] => none
  | '\\' :: c :: cs => (takeString cs).map fun (inner, rest) => ('\\' :: c :: inner, rest)
  | ['\\'] => none
  | '\'' :: '\'' :: cs => (takeString cs).map fun (inner, rest) => ('\'' :: '\'' :: inner, rest)
  | '\'' :: cs => some ([], cs)
  | c :: cs => (takeString cs).map fun (inner, rest) => (c :: inner, rest)

def escapedChar : Char → Char
  | 'n' => '\n'
  | 'r' => '\r'
  | 't' => '\t'
  | c => c

def unescape : List Char → List Char
  | '\\' :: c :: cs => escapedChar c :: unescape cs
  | '\'' :: '\'' :: cs => '\'' :: unescape cs
  | c :: cs => c :: unescape cs
  | [] => []

def expect (mark cs : List Char) : Option (List Char) :=
  if mark.isPrefixOf cs then some (cs.drop mark.length) else none

def readLiteral : List Char → Option (Lexeme × List Char)
  | '\'' :: cs => (takeString cs).map fun (inner, rest) => (.string inner, rest)
  | cs =>
    if cs.takeWhile isWordChar = [] then none
    else some (.word (cs.takeWhile isWordChar), cs.dropWhile isWordChar)

/-- A name between the delimiters of the style, up to the first closing one. -/
def readName (quote : IdentifierQuote) : List Char → Option (List Char × List Char)
  | [] => none
  | c :: cs =>
    if c = quote.delimiters.1 then
      (expect [quote.delimiters.2] (cs.dropWhile (· != quote.delimiters.2))).map fun rest =>
        (cs.takeWhile (· != quote.delimiters.2), rest)
    else none

def readSeparated {β : Type} (item : List Char → Option (β × List Char)) (mark cs : List Char) :
    Option (List β × List Char) :=
  match item cs with
  | none => none
  | some (b, rest) =>
    match expect mark rest with
    | none => some ([b], rest)
    | some next =>
      if next.length < cs.length then
        (readSeparated item mark next).map fun (bs, rest) => (b :: bs, rest)
      else none
termination_by cs.length

def readTupleBy (literal : List Char → Option (Lexeme × List Char)) (cs : List Char) :
    Option (List Lexeme × List Char) := do
  let cs ← expect ['('] cs
  let (literals, cs) ← readSeparated literal [',', ' '] cs
  let cs ← expect [')'] cs
  pure (literals, cs)

def readTuple : List Char → Option (List Lexeme × List Char) := readTupleBy readLiteral

structure Reading where
  table : List Char
  columns : List (List Char)
  tuples : List (List Lexeme)
  deriving DecidableEq, Repr

def intoMark : List Char := "INSERT INTO ".toList

def columnsMark : List Char := " (".toList

def valuesMark : List Char := ") VALUES\n".toList

/-- The reading of a whole text, from the first character to the semicolon that ends it. -/
def readStatementBy (literal : List Char → Option (Lexeme × List Char)) (quote : IdentifierQuote)
    (sql : String) : Option Reading := do
  let cs ← expect intoMark sql.toList
  let (table, cs) ← readName quote cs
  let cs ← expect columnsMark cs
  let (columns, cs) ← readSeparated (readName quote) [',', ' '] cs
  let cs ← expect valuesMark cs
  let (tuples, cs) ← readSeparated (readTupleBy literal) [',', '\n'] cs
  if cs = [';'] then some ⟨table, columns, tuples⟩ else none

def readStatement (quote : IdentifierQuote) (sql : String) : Option Reading :=
  readStatementBy readLiteral quote sql

@[simp] theorem expect_append (mark rest : List Char) : expect mark (mark ++ rest) = some rest := by
  simp [expect]

theorem expect_cons_ne {m c : Char} (h : m ≠ c) (mark rest : List Char) :
    expect (m :: mark) (c :: rest) = none := by
  simp [expect, List.isPrefixOf, h]

theorem takeString_quoteChar (c : Char) (cs : List Char) :
    takeString (Literal.quoteChar c ++ cs) =
      (takeString cs).map fun (inner, rest) => (Literal.quoteChar c ++ inner, rest) := by
  unfold Literal.quoteChar
  split
  case h_7 hb hq _ _ _ _ => rw [List.singleton_append, takeString] <;> simp_all
  all_goals simp [takeString]

theorem unescape_quoteChar (c : Char) (cs : List Char) :
    unescape (Literal.quoteChar c ++ cs) = (if c = '\x00' then [] else [c]) ++ unescape cs := by
  unfold Literal.quoteChar
  split <;> simp_all [unescape, escapedChar]

/-- A rule for what stands before the quote that closes a string and for what follows it, by which each character
is written so that the string goes on. -/
structure StringRule where
  take : List Char → Option (List Char × List Char)
  take_quoteChar : ∀ c cs, take (Literal.quoteChar c ++ cs) =
    (take cs).map fun (inner, rest) => (Literal.quoteChar c ++ inner, rest)
  take_closing : ∀ cs, cs.head? ≠ some '\'' → take ('\'' :: cs) = some ([], cs)

namespace StringRule

variable (rule : StringRule)

theorem take_flatMap (text rest : List Char) :
    rule.take (text.flatMap Literal.quoteChar ++ rest) =
      (rule.take rest).map fun (inner, left) => (text.flatMap Literal.quoteChar ++ inner, left) := by
  induction text with
  | nil => simp
  | cons c text ih =>
    rw [List.flatMap_cons, List.append_assoc, rule.take_quoteChar, ih, Option.map_map]
    simp [Function.comp_def]

/-- A written text ends at its own closing quote unless another quote follows, which would double it. -/
theorem take_closed_iff (text rest : List Char) :
    rule.take (text.flatMap Literal.quoteChar ++ '\'' :: rest) =
        some (text.flatMap Literal.quoteChar, rest) ↔ rest.head? ≠ some '\'' := by
  rw [rule.take_flatMap]
  by_cases h : rest.head? = some '\''
  · obtain ⟨more, rfl⟩ := List.head?_eq_some_iff.mp h
    have hdouble := rule.take_quoteChar '\'' more
    simp only [Literal.quoteChar, List.cons_append, List.nil_append] at hdouble
    rw [hdouble, Option.map_map]
    simp [h]
  · rw [rule.take_closing rest h]
    simp [h]

end StringRule

def escaping : StringRule where
  take := takeString
  take_quoteChar := takeString_quoteChar
  take_closing := by
    intro cs h
    cases cs with
    | nil => rfl
    | cons c cs =>
      have hc : c ≠ '\'' := by simpa using h
      simp [takeString, hc]

theorem takeString_flatMap (cs : List Char) {rest : List Char} (h : rest.head? ≠ some '\'') :
    takeString (cs.flatMap Literal.quoteChar ++ '\'' :: rest) =
      some (cs.flatMap Literal.quoteChar, rest) :=
  (escaping.take_closed_iff cs rest).mpr h

/-- What a string stands for is the text it was written from, but for NUL. -/
theorem unescape_flatMap (cs : List Char) :
    unescape (cs.flatMap Literal.quoteChar) = cs.filter (· != '\x00') := by
  induction cs with
  | nil => rfl
  | cons c cs ih =>
    rw [List.flatMap_cons, unescape_quoteChar, ih]
    by_cases hc : c = '\x00' <;> simp [hc]

theorem closing_notMem_strip (quote : IdentifierQuote) (name : List Char) :
    ∀ c ∈ strip quote name, (c != quote.delimiters.2) = true := by
  intro c hc
  have h := (List.mem_filter.mp hc).2
  exact (Bool.and_eq_true_iff.mp h).2

theorem readName_quoteName (quote : IdentifierQuote) (name rest : List Char) :
    readName quote (quoteName quote name ++ rest) = some (strip quote name, rest) := by
  have hc := closing_notMem_strip quote name
  simp only [quoteName, List.cons_append, List.append_assoc, readName, List.nil_append, ↓reduceIte]
  rw [List.takeWhile_append_of_pos hc, List.dropWhile_append_of_pos hc]
  simp [expect]

/-- Items with a mark between each two are read back one by one. `Ends` tells what may follow an item, the
mark among it. -/
theorem readSeparated_intercalate {α β : Type} {item : List Char → Option (β × List Char)}
    {value : α → β} {as : List α} (mark : List Char) (render : α → List Char)
    (Ends : List Char → Prop) (hmark : mark ≠ []) (hnext : ∀ rest, Ends (mark ++ rest))
    (hitem : ∀ a ∈ as, ∀ rest, Ends rest → item (render a ++ rest) = some (value a, rest))
    (hne : as ≠ []) {rest : List Char} (hends : Ends rest) (hend : expect mark rest = none) :
    readSeparated item mark (mark.intercalate (as.map render) ++ rest) =
      some (as.map value, rest) := by
  induction as with
  | nil => exact absurd rfl hne
  | cons a as ih =>
    have ha := hitem a (List.mem_cons_self ..)
    cases as with
    | nil =>
      rw [readSeparated, List.map_singleton, List.intercalate_singleton, ha rest hends]
      simp [hend]
    | cons b as =>
      have hb := ih (fun c hc => hitem c (List.mem_cons_of_mem _ hc)) (List.cons_ne_nil b as)
      have hlen : 0 < mark.length := List.length_pos_of_ne_nil hmark
      rw [readSeparated, List.map_cons, List.map_cons, List.intercalate_cons_cons, List.append_assoc,
        List.append_assoc, ha _ (hnext _)]
      simp only [expect_append]
      rw [if_pos (by simp only [List.length_append]; omega), ← List.map_cons, hb]
      rfl

end TableLoader.Insert
