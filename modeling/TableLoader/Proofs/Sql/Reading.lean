import TableLoader.Proofs.Number.Numerals
import TableLoader.Sql.DataTypeReader

/-! # Readers on known tokens

Readers compose along the tokens that they leave. Numbers that are written in full are read back, and so are
the measures made of them, when they are in the range of the grammar. -/
namespace TableLoader.Sql

section Reader

open Reader

variable {α β : Type} {s t : List Token}

theorem bind_of_read {r : Reader α} {v : α} (h : r s = .read v t) (f : α → Reader β) :
    (r >>= f) s = f v t := by
  simp only [Bind.bind, h]

theorem bind_of_refused {r : Reader α} (h : r s = .refused) (f : α → Reader β) :
    (r >>= f) s = .refused := by
  simp only [Bind.bind, h]

theorem parenthesized_of_read {r : Reader α} {v : α} (h : r s = .read v (.symbol ")" :: t)) :
    parenthesized r (.symbol "(" :: s) = .read v t := by
  have ho : expectSymbol "(" (.symbol "(" :: s) = .read () s := rfl
  rw [parenthesized, bind_of_read ho, bind_of_read h]
  rfl

theorem ifParenthesized_of_read {r : Reader α} {v : α}
    (h : r s = .read v (.symbol ")" :: t)) :
    ifParenthesized r (.symbol "(" :: s) = .read (some v) t := by
  have ho : nextIsSymbol "(" (.symbol "(" :: s) = .read true (.symbol "(" :: s) := rfl
  rw [ifParenthesized, bind_of_read ho, if_pos rfl, bind_of_read (parenthesized_of_read h)]
  rfl

/-- Items that a comma follows stand in front of those to come. -/
theorem itemsUpTo_flatMap {item : Reader α} {tokens : β → List Token} {value : β → α} {xs : List β}
    (h : ∀ x ∈ xs, ∀ ts, item (tokens x ++ .symbol "," :: ts) = .read (value x) (.symbol "," :: ts))
    (bound : ℕ) (ts : List Token) :
    itemsUpTo item (bound + xs.length) (xs.flatMap (fun x => tokens x ++ [.symbol ","]) ++ ts) =
      (do return xs.map value ++ (← itemsUpTo item bound) : Reader (List α)) ts := by
  induction xs with
  | nil =>
    simp only [List.length_nil, List.flatMap_nil, List.nil_append, List.map_nil, Bind.bind]
    cases itemsUpTo item bound ts <;> rfl
  | cons x xs ih =>
    obtain ⟨hx, hxs⟩ := List.forall_mem_cons.mp h
    have hc : ∀ ts, symbol "," (.symbol "," :: ts) = .read true ts := fun _ => rfl
    have hi := hx (xs.flatMap (fun x => tokens x ++ [.symbol ","]) ++ ts)
    rw [List.flatMap_cons, List.append_assoc, List.append_assoc, List.singleton_append,
      List.length_cons, ← add_assoc, itemsUpTo, bind_of_read hi, bind_of_read (hc _), if_pos rfl]
    simp only [Bind.bind, ih hxs]
    cases itemsUpTo item bound ts <;> rfl

theorem commaList_flatMap {item : Reader α} {tokens : β → List Token} {value : β → α} {xs : List β}
    (h : ∀ x ∈ xs, ∀ ts, item (tokens x ++ .symbol "," :: ts) = .read (value x) (.symbol "," :: ts))
    (ts : List Token) :
    ∃ bound, commaList item (xs.flatMap (fun x => tokens x ++ [.symbol ","]) ++ ts) =
      (do return xs.map value ++ (← itemsUpTo item (bound + 1)) : Reader (List α)) ts := by
  have hone : ∀ n ∈ xs.map fun x => (tokens x ++ [Token.symbol ","]).length, 1 ≤ n := by
    intro n hn
    obtain ⟨x, -, rfl⟩ := List.mem_map.mp hn
    simp
  have hl : xs.length ≤ (xs.flatMap fun x => tokens x ++ [Token.symbol ","]).length := by
    have hsum := List.length_le_sum_of_one_le _ hone
    rwa [List.length_map, ← List.length_flatMap] at hsum
  obtain ⟨bound, hb⟩ := Nat.exists_eq_add_of_le'
    (show xs.length ≤ (xs.flatMap (fun x => tokens x ++ [Token.symbol ","]) ++ ts).length by
      rw [List.length_append]
      omega)
  refine ⟨bound, ?_⟩
  rw [← itemsUpTo_flatMap h, commaList, hb, add_right_comm]

end Reader

def numberToken (n : ℕ) : Token := .number (String.ofList (natText n))

section Measures

open Reader

variable {n : ℕ}

theorem naturalOf?_natText (hn : n < twoTo 64) :
    naturalOf? (String.ofList (natText n)) = some n := by
  have hd : (natText n).all Char.isDigit = true := List.all_eq_true.mpr (natText_digits n)
  rw [naturalOf?, String.toList_ofList]
  simp only [natOfDigits_natText]
  exact if_pos ⟨natText_ne_nil n, hd, hn⟩

theorem natural_numberToken (hn : n < twoTo 64) (ts : List Token) :
    natural (numberToken n :: ts) = .read n ts := by
  have ht : next (numberToken n :: ts) = .read (numberToken n) ts := rfl
  rw [natural, bind_of_read ht, numberToken]
  simp only [naturalOf?_natText hn]
  rfl

theorem scale_numberToken (hn : n < twoTo 63) (rest : List Token) :
    scale (numberToken n :: rest) = .read (n : ℤ) rest := by
  have hle : twoTo 63 ≤ twoTo 64 := by decide
  have hm : symbol "-" (numberToken n :: rest) = .read false (numberToken n :: rest) := rfl
  have hp : discard (symbol "+") (numberToken n :: rest) = .read () (numberToken n :: rest) := rfl
  have hr := natural_numberToken (lt_of_lt_of_le hn hle) rest
  rw [scale, bind_of_read hm, if_neg Bool.false_ne_true, bind_of_read hp, bind_of_read hr,
    decide_eq_true hn]
  rfl

theorem lengthMeasure_number (hn : n < twoTo 64) (rest : List Token) :
    lengthMeasure (.symbol "(" :: numberToken n :: .symbol ")" :: rest) =
      .read (.length n) rest := by
  have hp := ifParenthesized_of_read (natural_numberToken hn (.symbol ")" :: rest))
  rw [lengthMeasure, bind_of_read hp]
  rfl

theorem characterMeasure_number (hn : n < twoTo 64) (rest : List Token) :
    characterMeasure (.symbol "(" :: numberToken n :: .symbol ")" :: rest) =
      .read (.length n) rest := by
  have hm : keyword "MAX" (numberToken n :: .symbol ")" :: rest) =
      .read false (numberToken n :: .symbol ")" :: rest) := rfl
  rw [characterMeasure,
    bind_of_read (ifParenthesized_of_read (v := Measure.length n) (t := rest) ?_)]
  · rfl
  · rw [bind_of_read hm, if_neg Bool.false_ne_true, bind_of_read (natural_numberToken hn _)]
    rfl

theorem scaledMeasure_numbers {p s : ℕ} (hp : p < twoTo 64) (hs : s < twoTo 63)
    (rest : List Token) :
    scaledMeasure (.symbol "(" :: numberToken p :: .symbol "," :: numberToken s ::
      .symbol ")" :: rest) = .read (.scaled p s) rest := by
  have hc : ∀ ts, symbol "," (.symbol "," :: ts) = .read true ts := fun _ => rfl
  rw [scaledMeasure,
    bind_of_read (ifParenthesized_of_read (v := Measure.scaled p s) (t := rest) ?_)]
  · rfl
  · rw [bind_of_read (natural_numberToken hp _), bind_of_read (hc _), if_pos rfl,
      bind_of_read (scale_numberToken hs _)]
    rfl

end Measures

/-- A known type whose name has been taken is the whole type, since MySQL has no array types. -/
theorem dataType_of_knownType {key : String} {ts rest : List Token} {type : DataType}
    (h : ∀ inner, knownType .mysql inner key ts = .read (some type) rest) (word : String) :
    dataType .mysql (.word word key none :: ts) = .read type rest := by
  have hl : Reader.look id (.word word key none :: ts) =
      .read (.word word key none :: ts) (.word word key none :: ts) := rfl
  have hn : (discard Reader.next : Reader Unit) (.word word key none :: ts) = .read () ts := rfl
  rw [dataType, dataTypeWithin, bind_of_read hl]
  refine (bind_of_read hn _).trans ?_
  refine (bind_of_read (h _) _).trans ?_
  rfl

end TableLoader.Sql
