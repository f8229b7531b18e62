import Mathlib
import TableLoader.Request

/-! # The literals of a request

Where the text of a request says what number a cell holds, and the cell that the literal becomes when the text is
decoded. -/
namespace TableLoader

namespace Json

theorem getElem?_mapM {α β : Type} {f : α → Option β} {as : List α} {bs : List β}
    (h : as.mapM f = some bs) {i : ℕ} {a : α} (ha : as[i]? = some a) :
    ∃ b, f a = some b ∧ bs[i]? = some b := by
  induction as generalizing bs i with
  | nil => simp at ha
  | cons c as ih =>
    simp only [List.mapM_cons, Option.pure_def, Option.bind_eq_bind, Option.bind_eq_some_iff,
      Option.some.injEq] at h
    obtain ⟨b, hb, bs, hbs, rfl⟩ := h
    cases i with
    | zero =>
      rw [List.getElem?_cons_zero] at ha
      obtain rfl := Option.some.inj ha
      exact ⟨b, hb, rfl⟩
    | succ i =>
      rw [List.getElem?_cons_succ] at ha ⊢
      exact ih hbs ha

namespace Source

theorem values_eq_map (items : List Source) : values items = items.map value := by
  induction items with
  | nil => rfl
  | cons item items ih => rw [values, ih, List.map_cons]

theorem entryValues_eq_map (entries : List (Option String × Source)) :
    entryValues entries = entries.map fun entry => (entry.1, entry.2.value) := by
  induction entries with
  | nil => rfl
  | cons entry entries ih => rw [entryValues, ih, List.map_cons]

def items : Source → List Source
  | .array items => items
  | _ => []

/-- The member of a record with a given name, which an array holds at a given place. -/
def member? (name : String) (place : ℕ) : Source → Option Source
  | .object entries => (entries.find? (·.1 = some name)).map (·.2)
  | .array items => items[place]?
  | _ => none

/-- The literal of the cell at a position in the rows of a request, if a number is written there. -/
def literalAt? (s : Source) (i j : ℕ) : Option NumberLiteral :=
  match ((s.member? "rows" 2).bind (·.items[i]?)).bind (·.items[j]?) with
  | some (.number literal) => some literal
  | _ => none

theorem literalAt?_eq_some {s : Source} {i j : ℕ} {l : NumberLiteral} (h : s.literalAt? i j = some l) :
    ∃ rows row, s.member? "rows" 2 = some rows ∧ rows.items[i]? = some row ∧
      row.items[j]? = some (.number l) := by
  unfold literalAt? at h
  split at h
  · next literal hl =>
    obtain rfl := Option.some.inj h
    obtain ⟨row, hrow, hcell⟩ := Option.bind_eq_some_iff.mp hl
    obtain ⟨rows, hrows, hrow⟩ := Option.bind_eq_some_iff.mp hrow
    exact ⟨rows, row, hrows, hrow, hcell⟩
  · simp at h

theorem getElem?_members? {names : List String} {unknown : UnknownKeys} {s : Source}
    {members : List (Option Json)} (h : members? names unknown s.value = some members) {k : ℕ}
    {name : String} (hk : names[k]? = some name) {member : Source}
    (hm : s.member? name k = some member) : members[k]? = some (some member.value) := by
  cases s with
  | object entries =>
    obtain ⟨entry, hentry, rfl⟩ := Option.map_eq_some_iff.mp hm
    rw [value, entryValues_eq_map, members?] at h
    split at h
    · obtain rfl := Option.some.inj h
      rw [List.getElem?_map, hk, Option.map_some, valuesOf, List.head?_map, List.head?_filter,
        List.find?_map]
      have hfind : entries.find? ((fun e : Option String × Json => decide (e.1 = some name)) ∘
          fun e => (e.1, e.2.value)) = some entry := hentry
      rw [hfind]
      rfl
    · simp at h
  | array items =>
    rw [value, values_eq_map, members?] at h
    split at h
    · obtain rfl := Option.some.inj h
      have hm : items[k]? = some member := hm
      have hlt := (List.getElem?_eq_some_iff.mp hm).1
      rw [List.getElem?_append_left (by simpa using hlt), List.getElem?_map, List.getElem?_map, hm]
      rfl
    · simp at h
  | _ => simp [member?] at hm

theorem getElem?_asList? {α : Type} {item : Json → Option α} {s : Source} {as : List α}
    (h : asList? item s.value = some as) {i : ℕ} {v : Source} (hv : s.items[i]? = some v) :
    ∃ a, item v.value = some a ∧ as[i]? = some a := by
  cases s with
  | array items =>
    rw [asList?, value, values_eq_map, asArray?, Option.bind_some] at h
    refine getElem?_mapM h ?_
    have hv : items[i]? = some v := hv
    rw [List.getElem?_map, hv]
    rfl
  | _ => simp [items] at hv

end Source

end Json

namespace Request

theorem rows_of_ofJson? {value : Json} {r : Request} (h : ofJson? value = some r) :
    ∃ members rows, Json.members? keys .ignored value = some members ∧ members[2]? = some rows ∧
      Json.memberOr [] (Json.asList? (Json.asList? Cell.ofJson?)) rows = some r.rows := by
  simp only [ofJson?, Option.bind_eq_bind, Option.bind_eq_some_iff] at h
  obtain ⟨members, hm, h⟩ := h
  split at h
  · next table mapping rows fields =>
    simp only [Option.bind_eq_some_iff] at h
    obtain ⟨table, -, mapping, -, rowsRead, hrows, fields, -, h⟩ := h
    obtain rfl := Option.some.inj h
    exact ⟨_, rows, hm, rfl, hrows⟩
  · simp at h

/-- A literal becomes the cell at its own position, with the number that it stands for. -/
theorem cell_of_literalAt? {s : Json.Source} {r : Request} (h : ofJson? s.value = some r) {i j : ℕ}
    {l : NumberLiteral} (hl : s.literalAt? i j = some l) :
    ∃ row n, r.rows[i]? = some row ∧ row[j]? = some (.number n) ∧ l.toNumber? = some n := by
  obtain ⟨rows, row, hrows, hrow, hcell⟩ := Json.Source.literalAt?_eq_some hl
  obtain ⟨members, read, hmembers, hread, hr⟩ := rows_of_ofJson? h
  have hkey : keys[2]? = some "rows" := rfl
  rw [Json.Source.getElem?_members? hmembers hkey hrows] at hread
  obtain rfl := Option.some.inj hread
  obtain ⟨cells, hcells, hi⟩ := Json.Source.getElem?_asList? hr hrow
  obtain ⟨cell, hc, hj⟩ := Json.Source.getElem?_asList? hcells hcell
  obtain ⟨n, hn, rfl⟩ := Option.map_eq_some_iff.mp hc
  exact ⟨cells, n, hi, hj, hn⟩

end Request

end TableLoader
