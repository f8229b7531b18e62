import TableLoader.Proofs.Request.StandardStrings

/-! # Where a string ends

A string can only be drawn out by a quote behind it. Whatever else follows, a reader that knows escapes and one
that does not stop at the same quote, and the former takes from it the text that was written. -/
namespace TableLoader.Insert

theorem readLiteral_quote_eq_iff (text rest : List Char) :
    readLiteral (Literal.quote text ++ rest) =
        some (.string (text.flatMap Literal.quoteChar), rest) ↔ rest.head? ≠ some '\'' := by
  have h := escaping.take_closed_iff text rest
  rw [← h, Literal.quote, List.cons_append, List.append_assoc, List.singleton_append, readLiteral]
  simp [Option.map_eq_some_iff, escaping]

theorem readStandard_quote_eq_iff (text rest : List Char) :
    readStandard (Literal.quote text ++ rest) =
        some (.string (text.flatMap Literal.quoteChar), rest) ↔ rest.head? ≠ some '\'' := by
  have h := standard.take_closed_iff text rest
  rw [← h, Literal.quote, List.cons_append, List.append_assoc, List.singleton_append, readStandard]
  simp [Option.map_eq_some_iff, standard]

/-- Both readers take a written string and nothing more just where no quote follows, and with its escapes
resolved it is the text but for NUL. -/
theorem quote_selfDelimiting (text rest : List Char) :
    ∃ inner, (Lexeme.string inner).text = Literal.quote text ∧
      (readLiteral (Literal.quote text ++ rest) = some (.string inner, rest) ↔
        rest.head? ≠ some '\'') ∧
      (readStandard (Literal.quote text ++ rest) = some (.string inner, rest) ↔
        rest.head? ≠ some '\'') ∧
      unescape inner = text.filter (· != '\x00') := by
  refine ⟨text.flatMap Literal.quoteChar, rfl, ?_, ?_, unescape_flatMap text⟩
  · exact readLiteral_quote_eq_iff text rest
  · exact readStandard_quote_eq_iff text rest

/-- A backslash and a quote at the end of a text are told from the quote that closes it. -/
example : readLiteral (Literal.quote ['\\', '\''] ++ [',', '\'']) =
      some (.string ['\\', '\\', '\'', '\''], [',', '\'']) ∧
    unescape ['\\', '\\', '\'', '\''] = ['\\', '\''] := by
  decide +kernel

end TableLoader.Insert
