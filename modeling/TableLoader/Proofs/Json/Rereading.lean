import TableLoader.Proofs.Json.Layouts

/-! # Reading a layout back

In whatever gaps of blanks a value is laid out, the reader finds its items and entries between the marks and takes
each of them as what it was written for. -/
namespace TableLoader.Json

theorem skipSpace_append {blanks : List Char} (h : ∀ c ∈ blanks, isSpace c = true) (cs : List Char) :
    skipSpace (blanks ++ cs) = skipSpace cs :=
  List.dropWhile_append_of_pos h

theorem skipSpace_cons {c : Char} (h : isSpace c = false) (cs : List Char) :
    skipSpace (c :: cs) = c :: cs :=
  List.dropWhile_cons_of_neg (by simp [h])

theorem skipSpace_skipSpace (cs : List Char) : skipSpace (skipSpace cs) = skipSpace cs :=
  List.dropWhile_idempotent ..

theorem ends_append {blanks : List Char} (h : ∀ c ∈ blanks, isSpace c = true) {rest : List Char}
    (hr : NumberLiteral.Ends rest) : NumberLiteral.Ends (blanks ++ rest) := by
  cases blanks with
  | nil => exact hr
  | cons c blanks =>
    rintro _ ⟨⟩
    have hc := h c List.mem_cons_self
    have hspace : ∀ d, isSpace d = true → d.isDigit = false ∧ d ≠ '.' ∧ d ≠ 'e' ∧ d ≠ 'E' := by
      intro d hd
      simp only [isSpace, Bool.or_eq_true, beq_iff_eq] at hd
      obtain ((rfl | rfl) | rfl) | rfl := hd <;> decide
    exact hspace c hc

/-- What a written value begins with: no blank, and no bracket that closes. -/
def Begins (cs : List Char) : Prop :=
  ∃ c more, cs = c :: more ∧ isSpace c = false ∧ c ≠ ']' ∧ c ≠ '}'

theorem Begins.append {cs : List Char} (h : Begins cs) (rest : List Char) : Begins (cs ++ rest) := by
  obtain ⟨c, more, rfl, hc⟩ := h
  exact ⟨c, more ++ rest, rfl, hc⟩

theorem Begins.skipSpace {cs : List Char} (h : Begins cs) : skipSpace cs = cs := by
  obtain ⟨c, more, rfl, hc, -⟩ := h
  exact skipSpace_cons hc more

theorem Begins.length_pos {cs : List Char} (h : Begins cs) : 0 < cs.length := by
  obtain ⟨c, more, rfl, -⟩ := h
  exact Nat.succ_pos _

theorem exists_text_cons (n : Number) : ∃ c more, n.text = c :: more ∧ (c = '-' ∨ c.isDigit = true) := by
  obtain ⟨c, hc, hd⟩ := n.head?_text
  obtain ⟨more, hmore⟩ := List.head?_eq_some_iff.mp hc
  exact ⟨c, more, hmore, hd⟩

theorem ne_of_sign_or_digit {c d : Char} (h : c = '-' ∨ c.isDigit = true)
    (hd : d ≠ '-' ∧ d.isDigit = false) : c ≠ d := by
  rintro rfl
  rcases h with rfl | h
  · exact hd.1 rfl
  · simp [h] at hd

theorem begins_numberText (value : Option Number) : Begins (numberText value) := by
  cases value with
  | none => exact ⟨'n', _, rfl, by decide⟩
  | some n =>
    obtain ⟨c, more, h, hc⟩ := exists_text_cons n
    refine ⟨c, more, h, ?_, ne_of_sign_or_digit hc (by decide), ne_of_sign_or_digit hc (by decide)⟩
    by_contra hs
    simp only [isSpace, Bool.not_eq_false, Bool.or_eq_true, beq_iff_eq] at hs
    obtain ((rfl | rfl) | rfl) | rfl := hs <;> revert hc <;> decide

theorem begins_textText (value : Option String) : Begins (textText value) := by
  cases value with
  | none => exact ⟨'n', _, rfl, by decide⟩
  | some s => exact ⟨'\"', _, rfl, by decide⟩

section Scalars

theorem readWord_append (word : String) (value : Source) (rest : List Char) :
    readWord word value (word.toList ++ rest) = some (value, rest) := by
  rw [readWord, if_pos (List.isPrefixOf_iff_prefix.mpr (List.prefix_append _ _)), List.drop_left]

theorem readScalar_null (rest : List Char) : readScalar ("null".toList ++ rest) = some (.null, rest) :=
  readWord_append "null" .null rest

theorem readScalar_bool (b : Bool) (rest : List Char) :
    readScalar ((if b then "true".toList else "false".toList) ++ rest) = some (.bool b, rest) := by
  cases b with
  | true => exact readWord_append "true" (.bool true) rest
  | false => exact readWord_append "false" (.bool false) rest

theorem readScalar_number (n : Number) {rest : List Char} (hr : NumberLiteral.Ends rest) :
    readScalar (n.text ++ rest) = some (.number n.literal, rest) := by
  have hread := n.read_text hr
  obtain ⟨c, more, h, hc⟩ := exists_text_cons n
  rw [h, List.cons_append] at hread ⊢
  rw [readScalar, hread]
  · rfl
  all_goals
    rintro more ⟨⟩
    revert hc
    decide

theorem readScalar_text (s : String) (rest : List Char) :
    readScalar (quoted s ++ rest) = some (.text (some s), rest) := by
  rw [quoted, List.cons_append, List.append_assoc, List.singleton_append, readScalar, readText_flatMap]
  rfl

theorem readValue_eq_readScalar {c : Char} (hbracket : c ≠ '[') (hbrace : c ≠ '{') (fuel : ℕ)
    (cs : List Char) : readValue fuel (c :: cs) = readScalar (c :: cs) := by
  cases fuel with
  | zero => rfl
  | succ fuel => simp [readValue, hbracket, hbrace]

end Scalars

section Marks

variable {value : List Char → Option (Source × List Char)} {cs tail rest : List Char} {item : Source}

theorem readItems_last (hv : value (skipSpace cs) = some (item, tail))
    (ht : skipSpace tail = ']' :: rest) (count : ℕ) :
    readItems value (count + 1) cs = some ([item], rest) := by
  simp [readItems, hv, ht]

theorem readItems_comma (hv : value (skipSpace cs) = some (item, tail))
    (ht : skipSpace tail = ',' :: rest) (count : ℕ) :
    readItems value (count + 1) cs = (readItems value count rest).map fun r => (item :: r.1, r.2) := by
  simp only [readItems, hv, ht, Option.bind_eq_bind, Option.bind_some]
  cases readItems value count rest <;> rfl

variable {quoted colon after : List Char} {key : Option String}

theorem readEntries_last (hq : skipSpace cs = '\"' :: quoted) (hk : readText quoted = some (key, colon))
    (hc : skipSpace colon = ':' :: after) (hv : value (skipSpace after) = some (item, tail))
    (ht : skipSpace tail = '}' :: rest) (count : ℕ) :
    readEntries value (count + 1) cs = some ([(key, item)], rest) := by
  simp [readEntries, hq, hk, hc, hv, ht]

theorem readEntries_comma (hq : skipSpace cs = '\"' :: quoted) (hk : readText quoted = some (key, colon))
    (hc : skipSpace colon = ':' :: after) (hv : value (skipSpace after) = some (item, tail))
    (ht : skipSpace tail = ',' :: rest) (count : ℕ) :
    readEntries value (count + 1) cs =
      (readEntries value count rest).map fun r => ((key, item) :: r.1, r.2) := by
  simp only [readEntries, hq, hk, hc, hv, ht, Option.bind_eq_bind, Option.bind_some]
  cases readEntries value count rest <;> rfl

/-- The blanks behind an opening bracket are passed over before an item is looked for. -/
theorem readItems_skipSpace (count : ℕ) (cs : List Char) :
    readItems value count (skipSpace cs) = readItems value count cs := by
  cases count with
  | zero => rfl
  | succ count => simp only [readItems, skipSpace_skipSpace]

theorem readEntries_skipSpace (count : ℕ) (cs : List Char) :
    readEntries value count (skipSpace cs) = readEntries value count cs := by
  cases count with
  | zero => rfl
  | succ count => simp only [readEntries, skipSpace_skipSpace]

theorem readValue_items {fuel : ℕ} {items : List Source} (hb : Begins (skipSpace cs))
    (h : readItems (readValue fuel) ((skipSpace cs).length + 1) cs = some (items, rest)) :
    readValue (fuel + 1) ('[' :: cs) = some (.array items, rest) := by
  rw [← readItems_skipSpace] at h
  obtain ⟨c, more, hcs, -, hc, -⟩ := hb
  rw [hcs, List.length_cons] at h
  simp [readValue, hcs, hc, h]

theorem readValue_entries {fuel : ℕ} {entries : List (Option String × Source)}
    (hb : Begins (skipSpace cs))
    (h : readEntries (readValue fuel) ((skipSpace cs).length + 1) cs = some (entries, rest)) :
    readValue (fuel + 1) ('{' :: cs) = some (.object entries, rest) := by
  rw [← readEntries_skipSpace] at h
  obtain ⟨c, more, hcs, -, -, hc⟩ := hb
  rw [hcs, List.length_cons] at h
  simp [readValue, hcs, hc, h]

end Marks

section Layout

variable (layout : Layout)

theorem begins_written (depth : ℕ) (v : Json) : Begins (written layout depth v) := by
  cases v with
  | null => exact ⟨'n', _, rfl, by decide⟩
  | bool b => cases b <;> exact ⟨_, _, rfl, by decide⟩
  | number value => exact begins_numberText value
  | text value => exact begins_textText value
  | array items => cases items <;> exact ⟨'[', _, rfl, by decide⟩
  | object entries => cases entries <;> exact ⟨'{', _, rfl, by decide⟩

theorem writtenItems_cons (depth : ℕ) (item : Json) (items : List Json) :
    writtenItems layout depth (item :: items) = layout.gap depth ++ (written layout depth item ++
      if items.isEmpty then [] else ',' :: writtenItems layout depth items) := by
  cases items with
  | nil => simp [writtenItems]
  | cons next items => rfl

theorem writtenEntries_cons (depth : ℕ) (key : Option String) (item : Json)
    (entries : List (Option String × Json)) :
    writtenEntries layout depth ((key, item) :: entries) =
      layout.gap depth ++ (textText key ++ ':' :: (layout.after ++ (written layout depth item ++
        if entries.isEmpty then [] else ',' :: writtenEntries layout depth entries))) := by
  cases entries with
  | nil => simp [writtenEntries]
  | cons next entries => rfl

theorem length_le_writtenItems (depth : ℕ) {items : List Json} (h : items ≠ []) :
    (layout.gap depth).length + items.length ≤ (writtenItems layout depth items).length := by
  induction items with
  | nil => exact absurd rfl h
  | cons item items ih =>
    have hitem := (begins_written layout depth item).length_pos
    rw [writtenItems_cons]
    cases items with
    | nil =>
      simp only [List.isEmpty_nil, if_true, List.append_nil, List.length_append, List.length_singleton]
      omega
    | cons next items =>
      have hrest := ih (List.cons_ne_nil _ _)
      simp only [List.isEmpty_cons, Bool.false_eq_true, if_false, List.length_append,
        List.length_cons] at hrest ⊢
      omega

theorem length_le_writtenEntries (depth : ℕ) {entries : List (Option String × Json)}
    (h : entries ≠ []) :
    (layout.gap depth).length + entries.length ≤ (writtenEntries layout depth entries).length := by
  induction entries with
  | nil => exact absurd rfl h
  | cons entry entries ih =>
    obtain ⟨key, item⟩ := entry
    rw [writtenEntries_cons]
    cases entries with
    | nil =>
      simp only [List.length_append, List.length_cons, List.length_nil]
      omega
    | cons next entries =>
      have hrest := ih (List.cons_ne_nil _ _)
      simp only [List.isEmpty_cons, Bool.false_eq_true, if_false, List.length_append,
        List.length_cons] at hrest ⊢
      omega

theorem skipSpace_item (depth : ℕ) (item : Json) (rest : List Char) :
    skipSpace (layout.gap depth ++ (written layout depth item ++ rest)) =
      written layout depth item ++ rest := by
  rw [skipSpace_append (layout.isSpace_gap depth), ((begins_written layout depth item).append rest).skipSpace]

theorem skipSpace_entry (depth : ℕ) (key : String) (rest : List Char) :
    skipSpace (layout.gap depth ++ (textText (some key) ++ rest)) =
      '\"' :: (key.toList.flatMap escapeChar ++ '\"' :: rest) := by
  rw [skipSpace_append (layout.isSpace_gap depth), ((begins_textText (some key)).append rest).skipSpace,
    textText, quoted, List.cons_append, List.append_assoc, List.singleton_append]

theorem skipSpace_after (item : Json) (depth : ℕ) (rest : List Char) :
    skipSpace (layout.after ++ (written layout depth item ++ rest)) = written layout depth item ++ rest := by
  rw [skipSpace_append layout.isSpace_after, ((begins_written layout depth item).append rest).skipSpace]

theorem skipSpace_writtenItems (depth : ℕ) {items : List Json} (h : items ≠ []) (rest : List Char) :
    Begins (skipSpace (writtenItems layout depth items ++ rest)) ∧
      items.length ≤ (skipSpace (writtenItems layout depth items ++ rest)).length := by
  have hlength := length_le_writtenItems layout depth h
  obtain ⟨item, items, rfl⟩ := List.exists_cons_of_ne_nil h
  rw [writtenItems_cons, List.length_append] at hlength
  rw [writtenItems_cons, List.append_assoc, List.append_assoc, skipSpace_item, ← List.append_assoc]
  constructor
  · exact ((begins_written layout depth item).append _).append rest
  · rw [List.length_append]
    omega

theorem skipSpace_writtenEntries (depth : ℕ) {entries : List (Option String × Json)}
    (h : entries ≠ []) (rest : List Char) :
    Begins (skipSpace (writtenEntries layout depth entries ++ rest)) ∧
      entries.length ≤ (skipSpace (writtenEntries layout depth entries ++ rest)).length := by
  have hlength := length_le_writtenEntries layout depth h
  obtain ⟨⟨key, item⟩, entries, rfl⟩ := List.exists_cons_of_ne_nil h
  have hbegins := (begins_textText key).append (':' :: (layout.after ++ (written layout depth item ++
    if entries.isEmpty then [] else ',' :: writtenEntries layout depth entries)))
  rw [writtenEntries_cons, List.length_append] at hlength
  rw [writtenEntries_cons, List.append_assoc, skipSpace_append (layout.isSpace_gap depth),
    (hbegins.append rest).skipSpace]
  constructor
  · exact hbegins.append rest
  · rw [List.length_append]
    omega

theorem ends_mark {c : Char} (h : c.isDigit = false ∧ c ≠ '.' ∧ c ≠ 'e' ∧ c ≠ 'E') (rest : List Char) :
    NumberLiteral.Ends (c :: rest) := by
  rintro _ ⟨⟩
  exact h

mutual

/-- A written value is read as what it was written for, whatever follows it that is not part of a number. -/
theorem readValue_written (depth fuel : ℕ) (v : Json) (hk : v.keyed = true)
    (hl : (written layout depth v).length ≤ fuel) {rest : List Char} (hr : NumberLiteral.Ends rest) :
    readValue fuel (written layout depth v ++ rest) = some (v.source, rest) := by
  -- Along the value: a bracket takes one from the fuel, and the text inside is shorter by its two brackets.
  match v with
  | .null =>
    rw [written, source, ← readScalar_null rest]
    exact readValue_eq_readScalar (by decide) (by decide) ..
  | .bool b =>
    rw [written, source, ← readScalar_bool b rest]
    cases b <;> exact readValue_eq_readScalar (by decide) (by decide) ..
  | .number none =>
    rw [written, source, ← readScalar_null rest]
    exact readValue_eq_readScalar (by decide) (by decide) ..
  | .number (some n) =>
    rw [written, source, ← readScalar_number n hr]
    obtain ⟨c, more, h, hc⟩ := exists_text_cons n
    rw [numberText, h]
    exact readValue_eq_readScalar (ne_of_sign_or_digit hc (by decide))
      (ne_of_sign_or_digit hc (by decide)) ..
  | .text none =>
    rw [written, source, ← readScalar_null rest]
    exact readValue_eq_readScalar (by decide) (by decide) ..
  | .text (some s) =>
    rw [written, source, ← readScalar_text s rest]
    exact readValue_eq_readScalar (by decide) (by decide) ..
  | .array [] =>
    cases fuel with
    | zero => simp [written] at hl
    | succ fuel => rfl
  | .object [] =>
    cases fuel with
    | zero => simp [written] at hl
    | succ fuel => rfl
  | .array (item :: items) =>
    cases fuel with
    | zero => simp [written] at hl
    | succ fuel =>
      simp only [written, List.isEmpty_cons, Bool.false_eq_true, if_false, List.length_cons,
        List.length_append] at hl
      obtain ⟨hbegins, hcount⟩ := skipSpace_writtenItems layout (depth + 1)
        (List.cons_ne_nil item items) (layout.gap depth ++ ']' :: rest)
      have hitems := readItems_written (depth + 1) fuel (item :: items) (List.cons_ne_nil _ _) hk
        (by omega) _ (Nat.le_succ_of_le hcount) (layout.isSpace_gap depth) rest
      simpa [written, source] using readValue_items hbegins hitems
  | .object (entry :: entries) =>
    cases fuel with
    | zero => simp [written] at hl
    | succ fuel =>
      simp only [written, List.isEmpty_cons, Bool.false_eq_true, if_false, List.length_cons,
        List.length_append] at hl
      obtain ⟨hbegins, hcount⟩ := skipSpace_writtenEntries layout (depth + 1)
        (List.cons_ne_nil entry entries) (layout.gap depth ++ '}' :: rest)
      have hentries := readEntries_written (depth + 1) fuel (entry :: entries) (List.cons_ne_nil _ _) hk
        (by omega) _ (Nat.le_succ_of_le hcount) (layout.isSpace_gap depth) rest
      simpa [written, source] using readValue_entries hbegins hentries

theorem readItems_written (depth fuel : ℕ) (items : List Json) (hne : items ≠ [])
    (hk : allKeyed items = true) (hl : (writtenItems layout depth items).length ≤ fuel)
    (count : ℕ) (hc : items.length ≤ count) {blanks : List Char}
    (hb : ∀ c ∈ blanks, isSpace c = true) (rest : List Char) :
    readItems (readValue fuel) count (writtenItems layout depth items ++ (blanks ++ ']' :: rest)) =
      some (sources items, rest) := by
  -- A number at the end of an item is ended by the comma, or by what stands in front of the bracket.
  match items, count with
  | [], _ => exact absurd rfl hne
  | _ :: _, 0 => simp at hc
  | [item], count + 1 =>
    simp only [allKeyed, Bool.and_true] at hk
    simp only [writtenItems, List.length_append] at hl
    have hv := readValue_written depth fuel item hk (by omega)
      (ends_append hb (ends_mark (c := ']') (by decide) rest))
    rw [← skipSpace_item, ← List.append_assoc] at hv
    have hclose : skipSpace (blanks ++ ']' :: rest) = ']' :: rest := by
      rw [skipSpace_append hb, skipSpace_cons (by decide)]
    exact readItems_last hv hclose count
  | item :: next :: items, count + 1 =>
    rw [allKeyed, Bool.and_eq_true] at hk
    simp only [writtenItems, List.length_append, List.length_cons] at hl
    have hv := readValue_written depth fuel item hk.1 (by omega) (ends_mark (c := ',') (by decide)
      (writtenItems layout depth (next :: items) ++ (blanks ++ ']' :: rest)))
    have hrest := readItems_written depth fuel (next :: items) (List.cons_ne_nil _ _) hk.2 (by omega)
      count (Nat.le_of_succ_le_succ hc) hb rest
    rw [writtenItems, List.append_assoc, List.append_assoc, List.cons_append]
    rw [← skipSpace_item] at hv
    rw [readItems_comma hv (skipSpace_cons (by decide) _), hrest]
    rfl

theorem readEntries_written (depth fuel : ℕ) (entries : List (Option String × Json))
    (hne : entries ≠ []) (hk : entriesKeyed entries = true)
    (hl : (writtenEntries layout depth entries).length ≤ fuel)
    (count : ℕ) (hc : entries.length ≤ count) {blanks : List Char}
    (hb : ∀ c ∈ blanks, isSpace c = true) (rest : List Char) :
    readEntries (readValue fuel) count
      (writtenEntries layout depth entries ++ (blanks ++ '}' :: rest)) =
        some (entrySources entries, rest) := by
  match entries, count with
  | [], _ => exact absurd rfl hne
  | _ :: _, 0 => simp at hc
  | (none, _) :: _, _ + 1 => simp [entriesKeyed] at hk
  | [(some key, item)], count + 1 =>
    simp only [entriesKeyed, Bool.and_true, Option.isSome_some, Bool.true_and] at hk
    simp only [writtenEntries, List.length_append, List.length_cons] at hl
    have hv := readValue_written depth fuel item hk (by omega)
      (ends_append hb (ends_mark (c := '}') (by decide) rest))
    rw [← skipSpace_after] at hv
    have hclose : skipSpace (blanks ++ '}' :: rest) = '}' :: rest := by
      rw [skipSpace_append hb, skipSpace_cons (by decide)]
    have hquote := skipSpace_entry layout depth key
      (':' :: (layout.after ++ (written layout depth item ++ (blanks ++ '}' :: rest))))
    have htext : writtenEntries layout depth [(some key, item)] ++ (blanks ++ '}' :: rest) =
        layout.gap depth ++ (textText (some key) ++
          ':' :: (layout.after ++ (written layout depth item ++ (blanks ++ '}' :: rest)))) := by
      simp [writtenEntries]
    rw [htext]
    exact readEntries_last hquote (readText_flatMap key _) (skipSpace_cons (by decide) _) hv hclose count
  | (some key, item) :: next :: entries, count + 1 =>
    rw [entriesKeyed, Option.isSome_some, Bool.true_and, Bool.and_eq_true] at hk
    rw [writtenEntries_cons] at hl
    simp only [List.isEmpty_cons, Bool.false_eq_true, if_false, List.length_append,
      List.length_cons] at hl
    have hv := readValue_written depth fuel item hk.1 (by omega) (ends_mark (c := ',') (by decide)
      (writtenEntries layout depth (next :: entries) ++ (blanks ++ '}' :: rest)))
    rw [← skipSpace_after] at hv
    have hrest := readEntries_written depth fuel (next :: entries) (List.cons_ne_nil _ _) hk.2
      (by omega) count (Nat.le_of_succ_le_succ hc) hb rest
    have hquote := skipSpace_entry layout depth key (':' :: (layout.after ++
      (written layout depth item ++
        ',' :: (writtenEntries layout depth (next :: entries) ++ (blanks ++ '}' :: rest)))))
    have htext : writtenEntries layout depth ((some key, item) :: next :: entries) ++
        (blanks ++ '}' :: rest) = layout.gap depth ++ (textText (some key) ++ ':' :: (layout.after ++
          (written layout depth item ++
            ',' :: (writtenEntries layout depth (next :: entries) ++ (blanks ++ '}' :: rest))))) := by
      rw [writtenEntries_cons]
      simp
    rw [htext, readEntries_comma hquote (readText_flatMap key _) (skipSpace_cons (by decide) _) hv
      (skipSpace_cons (by decide) _), hrest]
    rfl

end

/-- A printed value is read back, in any layout. -/
theorem parse?_written (v : Json) (hk : v.keyed = true) :
    parse? (String.ofList (written layout 0 v)) = some v.source.value := by
  have hends : NumberLiteral.Ends [] := fun _ h => absurd h (Option.not_mem_none _)
  have hread := readValue_written layout 0 (written layout 0 v).length v hk le_rfl hends
  rw [List.append_nil] at hread
  rw [parse?, Source.parse?, String.length_ofList, String.toList_ofList,
    (begins_written layout 0 v).skipSpace, hread]
  rfl

end Layout

end TableLoader.Json
