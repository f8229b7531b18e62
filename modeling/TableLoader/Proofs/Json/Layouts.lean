import TableLoader.Proofs.Json.Numerals
import TableLoader.Proofs.Json.Quoted
import TableLoader.Proofs.Json.Source

/-! # Layouts of printed values

A value may be printed without blanks or with one item on each line. Both are layouts, which differ in the blanks
between the marks only, and what a printed value is read as does not depend on them. -/
namespace TableLoader.Json

mutual

def source : Json → Source
  | .null => .null
  | .bool b => .bool b
  | .number (some n) => .number n.literal
  | .number none => .null
  | .text (some s) => .text (some s)
  | .text none => .null
  | .array items => .array (sources items)
  | .object entries => .object (entrySources entries)

def sources : List Json → List Source
  | [] => []
  | item :: items => item.source :: sources items

def entrySources : List (Option String × Json) → List (Option String × Source)
  | [] => []
  | (key, item) :: entries => (key, item.source) :: entrySources entries

end

mutual

/-- Whether every key of every object is a text. -/
def keyed : Json → Bool
  | .array items => allKeyed items
  | .object entries => entriesKeyed entries
  | _ => true

def allKeyed : List Json → Bool
  | [] => true
  | item :: items => item.keyed && allKeyed items

def entriesKeyed : List (Option String × Json) → Bool
  | [] => true
  | (key, item) :: entries => key.isSome && (item.keyed && entriesKeyed entries)

end

/-- The blanks of a printed value: in front of every item and every closing bracket, by the depth that it stands at,
and behind every colon. -/
structure Layout where
  gap : ℕ → List Char
  after : List Char
  isSpace_gap : ∀ depth, ∀ c ∈ gap depth, isSpace c = true
  isSpace_after : ∀ c ∈ after, isSpace c = true

namespace Layout

def compact : Layout where
  gap _ := []
  after := []
  isSpace_gap _ _ h := absurd h List.not_mem_nil
  isSpace_after _ h := absurd h List.not_mem_nil

theorem isSpace_newLine (depth : ℕ) : ∀ c ∈ newLine depth, isSpace c = true := by
  intro c hc
  rcases List.mem_cons.mp hc with rfl | hc
  · decide
  · rw [List.eq_of_mem_replicate hc]
    decide

def lines : Layout where
  gap := newLine
  after := [' ']
  isSpace_gap := isSpace_newLine
  isSpace_after := List.forall_mem_singleton.mpr rfl

end Layout

section Written

variable (layout : Layout)

mutual

def written (depth : ℕ) : Json → List Char
  | .array items =>
    if items.isEmpty then ['[', ']']
    else '[' :: (writtenItems (depth + 1) items ++ (layout.gap depth ++ [']']))
  | .object entries =>
    if entries.isEmpty then ['{', '}']
    else '{' :: (writtenEntries (depth + 1) entries ++ (layout.gap depth ++ ['}']))
  | .null => "null".toList
  | .bool b => if b then "true".toList else "false".toList
  | .number value => numberText value
  | .text value => textText value

def writtenItems (depth : ℕ) : List Json → List Char
  | [] => []
  | [item] => layout.gap depth ++ written depth item
  | item :: next :: items =>
    layout.gap depth ++ (written depth item ++ ',' :: writtenItems depth (next :: items))

def writtenEntries (depth : ℕ) : List (Option String × Json) → List Char
  | [] => []
  | [(key, value)] =>
    layout.gap depth ++ (textText key ++ ':' :: (layout.after ++ written depth value))
  | (key, value) :: next :: entries =>
    layout.gap depth ++ (textText key ++ ':' :: (layout.after ++
      (written depth value ++ ',' :: writtenEntries depth (next :: entries))))

end

end Written

mutual

theorem compact_eq_written (depth : ℕ) (v : Json) : v.compact = v.written .compact depth := by
  cases v with
  | array items =>
    rw [compact, written, compactItems_eq_written (depth + 1)]
    cases items <;> rfl
  | object entries =>
    rw [compact, written, compactEntries_eq_written (depth + 1)]
    cases entries <;> rfl
  | _ => rfl

theorem compactItems_eq_written (depth : ℕ) (items : List Json) :
    compactItems items = writtenItems .compact depth items := by
  match items with
  | [] => rfl
  | [item] =>
    rw [compactItems, writtenItems, compact_eq_written depth item]
    rfl
  | item :: next :: items =>
    rw [compactItems, writtenItems, compact_eq_written depth item,
      compactItems_eq_written depth (next :: items)]
    rfl

theorem compactEntries_eq_written (depth : ℕ) (entries : List (Option String × Json)) :
    compactEntries entries = writtenEntries .compact depth entries := by
  match entries with
  | [] => rfl
  | [(key, item)] =>
    rw [compactEntries, writtenEntries, compact_eq_written depth item]
    rfl
  | (key, item) :: next :: entries =>
    rw [compactEntries, writtenEntries, compact_eq_written depth item,
      compactEntries_eq_written depth (next :: entries)]
    rfl

end

mutual

theorem pretty_eq_written (depth : ℕ) (v : Json) : v.pretty depth = v.written .lines depth := by
  cases v with
  | array items =>
    rw [pretty, written, prettyItems_eq_written (depth + 1), List.append_assoc]
    rfl
  | object entries =>
    rw [pretty, written, prettyEntries_eq_written (depth + 1), List.append_assoc]
    rfl
  | _ => rfl

theorem prettyItems_eq_written (depth : ℕ) (items : List Json) :
    prettyItems depth items = writtenItems .lines depth items := by
  match items with
  | [] => rfl
  | [item] =>
    rw [prettyItems, writtenItems, pretty_eq_written depth item]
    rfl
  | item :: next :: items =>
    rw [prettyItems, writtenItems, pretty_eq_written depth item,
      prettyItems_eq_written depth (next :: items), List.append_assoc]
    rfl

theorem prettyEntries_eq_written (depth : ℕ) (entries : List (Option String × Json)) :
    prettyEntries depth entries = writtenEntries .lines depth entries := by
  match entries with
  | [] => rfl
  | [(key, item)] =>
    rw [prettyEntries, writtenEntries, pretty_eq_written depth item, List.append_assoc]
    rfl
  | (key, item) :: next :: entries =>
    rw [prettyEntries, writtenEntries, pretty_eq_written depth item,
      prettyEntries_eq_written depth (next :: entries), List.append_assoc]
    rfl

end

theorem render_eq (v : Json) : v.render = String.ofList (v.written .compact 0) := by
  rw [render, compact_eq_written 0]

theorem renderPretty_eq (v : Json) : v.renderPretty = String.ofList (v.written .lines 0) := by
  rw [renderPretty, pretty_eq_written]

end TableLoader.Json
