import TableLoader.Proofs.Cell.Numbers
import TableLoader.Proofs.Json.Literals
import TableLoader.Proofs.Json.Source
import TableLoader.Proofs.Request.Alignment

/-! # Numbers from a request to its statement

A number literal of a request passes through a cell into the statement. Under a numeric column it comes out as a
bare numeral, with the value of the literal as long as the literal is whole or short. -/
open TableLoader.Insert (Lexeme Reading readStatement columns typeAt cellAt rowLexemes)

namespace TableLoader.Request

theorem source_of_parse? {text : String} {r : Request} (h : parse? text = some r) :
    ∃ source, Json.Source.parse? text = some source ∧ ofJson? source.value = some r := by
  obtain ⟨value, hvalue, hr⟩ := Option.bind_eq_some_iff.mp h
  obtain ⟨source, hsource, rfl⟩ := Option.map_eq_some_iff.mp hvalue
  exact ⟨source, hsource, hr⟩

theorem getElem?_rowLexemes_number {cols : List Field} {row : Row} {j : ℕ} {field : Field} {n : Number}
    (hf : cols[j]? = some field) (hn : field.sqlType.category = .numeric)
    (hc : row[j]? = some (.number n)) : (rowLexemes cols row)[j]? = some (.word n.text) := by
  obtain ⟨m, hm, -⟩ := n.exists_numeral
  have hword : Lexeme.ofLiteral n.text = .word n.text := by
    rw [← hm]
    exact Insert.ofLiteral_word (isWordChar_numeral m.ofText?_text).2
  have hlt : j < max row.length cols.length :=
    lt_max_of_lt_right (List.getElem?_eq_some_iff.mp hf).1
  have ht : typeAt cols j = field.sqlType := by simp [typeAt, hf]
  have hcell : cellAt row j = .number n := by simp [cellAt, hc]
  rw [Insert.getElem?_rowLexemes, if_pos hlt, ht, hcell, Literal.format_number hn, hword]

/-- Wherever a literal of the source stands under a numeric column, a numeral of what it is turned into stands
in the reading. -/
def CarriesNumbers (source : Json.Source) (cols : List Field) (reading : Reading) : Prop :=
  ∀ (i j : ℕ) (literal : NumberLiteral) (field : Field), source.literalAt? i j = some literal →
    cols[j]? = some field → field.sqlType.category = .numeric →
    ∃ numeral : Numeral, reading.tuples[i]?.bind (·[j]?) = some (.word numeral.text) ∧
      literal.WrittenAs numeral.value

/-- Numbers come through from the text of a request to the statement that is written for it. -/
theorem generate_carriesNumbers {text : String} {r : Request} {s : Settings} {sql : String}
    (hr : parse? text = some r) (h : r.generate s = .ok sql) :
    ∃ source reading, Json.Source.parse? text = some source ∧
      readStatement s.identifierQuote sql = some reading ∧
      CarriesNumbers source (columns r.fields r.mapping) reading := by
  obtain ⟨source, hsource, hvalue⟩ := source_of_parse? hr
  obtain ⟨-, reading, hread, -, htuples⟩ := read_generate h
  refine ⟨source, reading, hsource, hread, ?_⟩
  intro i j literal field hl hf hn
  obtain ⟨row, n, hrow, hcell, hnumber⟩ := cell_of_literalAt? hvalue hl
  obtain ⟨numeral, htext, hval⟩ := n.exists_numeral
  refine ⟨numeral, ?_, ?_⟩
  · rw [htuples, List.getElem?_map, hrow, Option.map_some, Option.bind_some,
      getElem?_rowLexemes_number hf hn hcell, htext]
  · rw [hval]
    exact NumberLiteral.writtenAs_of_toNumber? hnumber

def priceText : String :=
  "\x7b\"table\": \"t\", \"mapping\": \x7b\"A\": \"a\", \"B\": \"b\"\x7d, \"rows\": [[-7, 2.50]], " ++
    "\"fields\": [\x7b\"name\": \"a\", \"type\": \"INT\"\x7d, \x7b\"name\": \"b\", \"type\": \"DECIMAL(4,2)\"\x7d]\x7d"

def priceRequest : Request where
  table := "t"
  mapping := ⟨[("A", "a"), ("B", "b")], by decide⟩
  rows := [[.number (.negative 6), .number (.double ⟨false, ⟨1024, by decide⟩, ⟨1125899906842624, by decide⟩⟩)]]
  fields := [⟨"a", "INT", true⟩, ⟨"b", "DECIMAL(4,2)", true⟩]

theorem carriesNumbers_priceText :
    parse? priceText = some priceRequest ∧
      priceRequest.generate {} = .ok "INSERT INTO \x60t\x60 (\x60a\x60, \x60b\x60) VALUES\n(-7, 2.5);" ∧
      ∃ source reading, Json.Source.parse? priceText = some source ∧
        readStatement .backtick "INSERT INTO \x60t\x60 (\x60a\x60, \x60b\x60) VALUES\n(-7, 2.5);" =
          some reading ∧
        CarriesNumbers source (columns priceRequest.fields priceRequest.mapping) reading := by
  have hr : parse? priceText = some priceRequest := by decide +kernel
  have h : priceRequest.generate {} =
      .ok "INSERT INTO \x60t\x60 (\x60a\x60, \x60b\x60) VALUES\n(-7, 2.5);" := by decide +kernel
  exact ⟨hr, h, generate_carriesNumbers hr h⟩

def longKeyText : String :=
  "\x7b\"table\": \"t\", \"mapping\": \x7b\"A\": \"a\"\x7d, \"rows\": [[123456789012345678901]], " ++
    "\"fields\": [\x7b\"name\": \"a\", \"type\": \"DECIMAL(30,0)\"\x7d]\x7d"

def longKeyRequest : Request where
  table := "t"
  mapping := Mapping.empty.insert "A" "a"
  rows := [[.number (.double ⟨false, ⟨1089, by decide⟩, ⟨3031604780121305, by decide⟩⟩)]]
  fields := [⟨"a", "DECIMAL(30,0)", true⟩]

/-- The last digits of the key are lost. -/
theorem longKey_rounded :
    parse? longKeyText = some longKeyRequest ∧
      longKeyRequest.generate {} =
        .ok "INSERT INTO \x60t\x60 (\x60a\x60) VALUES\n(1.2345678901234567e+20);" ∧
      ∃ source reading literal field, Json.Source.parse? longKeyText = some source ∧
        readStatement .backtick "INSERT INTO \x60t\x60 (\x60a\x60) VALUES\n(1.2345678901234567e+20);" =
          some reading ∧
        source.literalAt? 0 0 = some literal ∧
        (columns longKeyRequest.fields longKeyRequest.mapping)[0]? = some field ∧
        field.sqlType.category = .numeric ∧
        ∀ numeral : Numeral, reading.tuples[0]?.bind (·[0]?) = some (.word numeral.text) →
          numeral.value ≠ literal.value := by
  have hliteral : (Json.Source.parse? longKeyText).bind (·.literalAt? 0 0) =
      some ⟨false, "123456789012345678901".toList, [], none⟩ := by decide +kernel
  have hreading : (readStatement .backtick
      "INSERT INTO \x60t\x60 (\x60a\x60) VALUES\n(1.2345678901234567e+20);").map (·.tuples) =
      some [[.word "1.2345678901234567e+20".toList]] := by decide +kernel
  obtain ⟨source, hsource, hl⟩ := Option.bind_eq_some_iff.mp hliteral
  obtain ⟨reading, hread, htuples⟩ := Option.map_eq_some_iff.mp hreading
  refine ⟨by decide +kernel, by decide +kernel, source, reading, _, ⟨"a", "DECIMAL(30,0)", true⟩, hsource,
    hread, hl, by decide +kernel, by decide +kernel, fun numeral htext => ?_⟩
  rw [htuples] at htext
  have htext : "1.2345678901234567e+20".toList = numeral.text := Lexeme.word.inj (Option.some.inj htext)
  have hkept : Decimal.ofText? "1.2345678901234567e+20".toList = some ⟨false, 12345678901234567, 4⟩ := by
    decide +kernel
  rw [htext, numeral.ofText?_text] at hkept
  have hwritten : natOfDigits ("123456789012345678901".toList ++ []) = 123456789012345678901 := by
    decide +kernel
  rw [← numeral.value_decimal, Option.some.inj hkept, NumberLiteral.value, NumberLiteral.decimal]
  simp only [Decimal.value, hwritten]
  norm_num

end TableLoader.Request
