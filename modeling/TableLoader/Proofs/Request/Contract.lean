import TableLoader.Proofs.Json.Records
import TableLoader.Service

/-! # The contract of the exchanged texts

Requests, schemas, reports of failures and settings are decoded from what they are printed as. Whole numbers, texts
and all that surrounds them come back unconditionally, and a double exactly when its own text is read as it. -/
namespace TableLoader

namespace Json

/-- Whether a value is decoded from each of its printings. -/
def Returns {α : Type} (encode : α → Json) (decode : Json → Option α) (a : α) : Prop :=
  ∀ text ∈ (encode a).printings, (parse? text).bind decode = some a

theorem returns_iff {α : Type} {encode : α → Json} {decode : Json → Option α} {a : α}
    (hk : (encode a).keyed = true) : Returns encode decode a ↔ decode (encode a).reread = some a :=
  decoded_printings decode hk (some a)

theorem returns_of_reread {α : Type} {encode : α → Json} {decode : Json → Option α} {a : α}
    (hk : (encode a).keyed = true) (hr : (encode a).reread = encode a)
    (hd : decode (encode a) = some a) : Returns encode decode a := by
  rw [returns_iff hk, hr, hd]

def hasKey (name : String) : Json → Bool
  | .object entries => entries.any (·.1 = some name)
  | _ => false

end Json

/-- Whether the text of a double is read as that double. -/
def Binary64.ReadsBack (x : Binary64) : Prop :=
  Json.parse? (String.ofList x.text) = some (.number (some (.double x)))

theorem Binary64.readsBack_iff (x : Binary64) :
    x.ReadsBack ↔ (Number.double x).reread? = some (.double x) := by
  have hparse : Json.parse? (String.ofList x.text) = some (.number (Number.double x).reread?) := by
    rw [← Json.reread_number]
    exact Json.parse?_of_mem_printings rfl _ List.mem_cons_self
  rw [ReadsBack, hparse, Option.some.injEq, Json.number.injEq]

section Records

theorem Field.reread_toJson (f : Field) : f.toJson.reread = f.toJson := by
  simp [toJson]

theorem Field.keyed_toJson (f : Field) : f.toJson.keyed = true := rfl

theorem Field.ofJson?_toJson (f : Field) : ofJson? f.toJson = some f := by
  rw [ofJson?, toJson, Json.members?_complete (by rfl) (by decide)]
  rfl

theorem Field.ofJson?_fields (fields : List Field) :
    Json.asList? ofJson? (.array (fields.map toJson)) = some fields :=
  (Json.asList?_map_eq_some_iff fields).mpr fun f _ => f.ofJson?_toJson

theorem Table.reread_toJson (t : Table) : t.toJson.reread = t.toJson := by
  simp [toJson, Function.comp_def, Field.reread_toJson]

theorem Table.keyed_toJson (t : Table) : t.toJson.keyed = true := by
  simp [toJson, Field.keyed_toJson]

theorem Table.ofJson?_toJson (t : Table) : ofJson? t.toJson = some t := by
  rw [ofJson?, toJson, Json.members?_complete (by rfl) (by decide)]
  simp [Json.member, Json.memberOr, Json.asString?, Json.ofString, Field.ofJson?_fields]

theorem Schema.reread_toJson (s : Schema) : s.toJson.reread = s.toJson := by
  simp [toJson, Function.comp_def, Table.reread_toJson]

theorem Schema.keyed_toJson (s : Schema) : s.toJson.keyed = true := by
  simp [toJson, Table.keyed_toJson]

theorem Schema.ofJson?_toJson (s : Schema) : ofJson? s.toJson = some s := by
  have htables : Json.asList? Table.ofJson? (.array (s.tables.map Table.toJson)) = some s.tables :=
    (Json.asList?_map_eq_some_iff s.tables).mpr fun t _ => t.ofJson?_toJson
  rw [ofJson?, toJson, Json.members?_complete (by rfl) (by decide)]
  simp [Json.member, htables]

namespace FailureReport

theorem reread_toJson (r : FailureReport) : r.toJson.reread = r.toJson := by
  unfold toJson
  split <;> split <;> simp [Json.reread_ofStrings]

theorem keyed_toJson (r : FailureReport) : r.toJson.keyed = true := by
  unfold toJson
  split <;> split <;> simp [Json.keyed_ofStrings]

theorem ofJson?_toJson (r : FailureReport) : ofJson? r.toJson = some r := by
  have herrors : Json.asList? Json.asString? (Json.ofStrings r.errors) = some r.errors :=
    (Json.asList?_map_eq_some_iff r.errors).mpr fun _ _ => rfl
  obtain ⟨title, detail, errors⟩ := r
  rw [ofJson?, toJson, Json.members?_record]
  · by_cases hdetail : detail = "" <;> by_cases hempty : errors = [] <;>
      simp_all [List.lookup, Json.member, Json.memberOr, Json.asString?, Json.ofString]
  all_goals by_cases hdetail : detail = "" <;> by_cases hempty : errors = [] <;>
    simp [hdetail, hempty]

theorem hasKey_toJson (r : FailureReport) :
    (r.toJson.hasKey "detail" = true ↔ r.detail ≠ "") ∧
      (r.toJson.hasKey "errors" = true ↔ r.errors ≠ []) := by
  by_cases hdetail : r.detail = "" <;> by_cases hempty : r.errors = [] <;>
    simp [toJson, Json.record, Json.hasKey, hdetail, hempty]

end FailureReport

namespace Settings

theorem reread_toJson (s : Settings) : s.toJson.reread = s.toJson := by
  simp [toJson]

theorem keyed_toJson (s : Settings) : s.toJson.keyed = true := by
  simp [toJson]

theorem ofName?_quote (q : IdentifierQuote) : IdentifierQuote.ofName? q.name = some q := by
  cases q <;> decide

theorem ofName?_dialect (d : Dialect) : Dialect.ofName? d.name = some d := by
  cases d <;> decide

theorem ofJson?_toJson {s : Settings} (h : s.maxInputSize < 2 ^ 64) : ofJson? s.toJson = some s := by
  have hsize : Json.asNat? (.ofNat s.maxInputSize) = some s.maxInputSize := by
    show some (s.maxInputSize % 2 ^ 64) = some s.maxInputSize
    rw [Nat.mod_eq_of_lt h]
  rw [ofJson?, toJson, Json.members?_complete (by rfl) (by decide)]
  simp [ofMembers?, Json.memberOr, Json.asBool?, Json.asCase?, Json.ofString, hsize, ofName?_quote,
    ofName?_dialect]

end Settings

namespace Mapping

theorem insertEntry_of_lt {source target : String} {entries : List (String × String)}
    (h : ∀ entry ∈ entries, entry.1 < source) :
    insertEntry source target entries = entries ++ [(source, target)] := by
  induction entries with
  | nil => rfl
  | cons entry entries ih =>
    rw [List.forall_mem_cons] at h
    rw [insertEntry, if_neg (String.lt_asymm h.1), if_pos h.1, ih h.2]
    rfl

theorem entries_foldl {entries : List (String × String)} {m : Mapping}
    (h : (m.entries ++ entries).Pairwise fun a b => a.1 < b.1) :
    (entries.foldl (fun m e => m.insert e.1 e.2) m).entries = m.entries ++ entries := by
  induction entries generalizing m with
  | nil => rw [List.foldl_nil, List.append_nil]
  | cons entry entries ih =>
    have hlast : ∀ e ∈ m.entries, e.1 < entry.1 := fun e he =>
      (List.pairwise_append.mp h).2.2 e he entry List.mem_cons_self
    have hinsert : (m.insert entry.1 entry.2).entries = m.entries ++ [entry] :=
      insertEntry_of_lt hlast
    have happend : m.entries ++ [entry] ++ entries = m.entries ++ entry :: entries := by
      rw [List.append_assoc, List.singleton_append]
    rw [List.foldl_cons, ih (by rwa [hinsert, happend]), hinsert, happend]

theorem eq_of_entries {m n : Mapping} (h : m.entries = n.entries) : m = n := by
  cases m
  cases n
  cases h
  rfl

theorem ofList_entries (m : Mapping) : ofList m.entries = m := by
  have h : (ofList m.entries).entries = m.entries := entries_foldl m.ascending
  exact eq_of_entries h

theorem reread_toJson (m : Mapping) : m.toJson.reread = m.toJson := by
  simp [toJson, Function.comp_def]

theorem keyed_toJson (m : Mapping) : m.toJson.keyed = true := by
  simp [toJson]

theorem ofJson?_toJson (m : Mapping) : ofJson? m.toJson = some m := by
  rw [toJson, Json.record, List.map_map, ofJson?, List.mapM_map,
    (Json.mapM_eq_some_iff m.entries).mpr ?_]
  · exact congrArg some m.ofList_entries
  · intro entry _
    rfl

end Mapping

def Field.briefJson (f : Field) : Json :=
  .record [("name", .ofString f.name), ("type", .ofString f.declaredType)]

theorem Field.ofJson?_briefJson (f : Field) : ofJson? f.briefJson = some { f with nullable := true } := by
  rw [ofJson?, briefJson, Json.members?_record (by simp) (by simp)]
  simp [List.lookup, Json.member, Json.memberOr, Json.asString?, Json.ofString]

/-- Whatever else a field says, it is nullable as if it said so when it does not say otherwise. -/
theorem Field.ofJson?_of_not_nullable {entries : List (Option String × Json)}
    (h : ∀ entry ∈ entries, entry.1 ≠ some "nullable") :
    ofJson? (.object entries) = ofJson? (.object ((some "nullable", .bool true) :: entries)) := by
  have hnone : Json.valuesOf "nullable" entries = [] := by
    rw [Json.valuesOf, List.map_eq_nil_iff, List.filter_eq_nil_iff]
    intro entry hentry
    simpa using h entry hentry
  have hname : Json.valuesOf "name" ((some "nullable", .bool true) :: entries) =
      Json.valuesOf "name" entries := Json.valuesOf_cons ..
  have htype : Json.valuesOf "type" ((some "nullable", .bool true) :: entries) =
      Json.valuesOf "type" entries := Json.valuesOf_cons ..
  have hnullable : Json.valuesOf "nullable" ((some "nullable", .bool true) :: entries) = [.bool true] :=
    (Json.valuesOf_cons ..).trans (congrArg (Json.bool true :: ·) hnone)
  simp only [ofJson?, Json.members?, List.all_cons, List.all_nil, List.map_cons, List.map_nil, hname,
    htype, hnullable, hnone]
  -- The two objects pass the same checks, and only the last member differs.
  generalize entries.all _ = declared
  generalize decide ((Json.valuesOf "name" entries).length ≤ 1) = nameOnce
  generalize decide ((Json.valuesOf "type" entries).length ≤ 1) = typeOnce
  cases declared <;> cases nameOnce <;> cases typeOnce <;> rfl

end Records

section Cells

/-- The kinds of cells, which their printings tell apart. -/
inductive CellKind where
  | null
  | bool
  | number
  | text
  deriving DecidableEq, Repr

namespace Cell

def kind : Cell → CellKind
  | .null => .null
  | .bool _ => .bool
  | .number _ => .number
  | .text _ => .text

def reread? : Cell → Option Cell
  | .number n => n.reread?.map .number
  | c => some c

theorem keyed_toJson (c : Cell) : c.toJson.keyed = true := by
  cases c <;> rfl

theorem ofJson?_reread (c : Cell) : ofJson? c.toJson.reread = c.reread? := by
  cases c with
  | number n => rw [toJson, Json.reread_number, ofJson?, reread?]
  | _ => rfl

theorem reread?_eq_some_iff (c : Cell) :
    c.reread? = some c ↔ ∀ x, c = .number (.double x) → x.ReadsBack := by
  cases c with
  | number n =>
    cases n with
    | double x => simp [reread?, Binary64.readsBack_iff]
    | _ => simp [reread?, Number.reread?]
  | _ => simp [reread?]

theorem kind_of_reread? {c d : Cell} (h : c.reread? = some d) : d.kind = c.kind := by
  cases c with
  | number n =>
    obtain ⟨m, -, rfl⟩ := Option.map_eq_some_iff.mp h
    rfl
  | _ =>
    obtain rfl := Option.some.inj h
    rfl

/-- The kind of cell that a value is taken for, whether or not its number or text can be read. -/
def kindOf? : Json → Option CellKind
  | .null => some .null
  | .bool _ => some .bool
  | .number _ => some .number
  | .text _ => some .text
  | _ => none

theorem kindOf?_reread (c : Cell) : kindOf? c.toJson.reread = some c.kind := by
  cases c <;> rfl

end Cell

end Cells

namespace Request

/-- Whether every double among the cells reads back. -/
def DoublesReadBack (r : Request) : Prop :=
  ∀ row ∈ r.rows, ∀ x, Cell.number (.double x) ∈ row → x.ReadsBack

theorem keyed_toJson (r : Request) : r.toJson.keyed = true := by
  simp [toJson, rowToJson, Mapping.keyed_toJson, Field.keyed_toJson, Cell.keyed_toJson]

theorem reread_rowToJson (row : Row) :
    (rowToJson row).reread = .array (row.map fun c => c.toJson.reread) := by
  rw [rowToJson, Json.reread_array, List.map_map]
  rfl

theorem reread_toJson (r : Request) : r.toJson.reread = .record [("table", .ofString r.table),
    ("mapping", r.mapping.toJson),
    ("rows", .array (r.rows.map fun row => .array (row.map fun c => c.toJson.reread))),
    ("fields", .array (r.fields.map Field.toJson))] := by
  simp [toJson, Function.comp_def, Mapping.reread_toJson, Field.reread_toJson, reread_rowToJson]

theorem ofJson?_reread (r : Request) : ofJson? r.toJson.reread =
    (Json.asList? (Json.asList? Cell.ofJson?)
      (.array (r.rows.map fun row => .array (row.map fun c => c.toJson.reread)))).map
        fun rows => { r with rows } := by
  rw [reread_toJson, ofJson?, Json.members?_complete (by rfl) (by decide)]
  simp only [List.map_cons, List.map_nil, Option.bind_eq_bind, Option.bind_some, Json.memberOr,
    Json.asString?, Json.ofString, Mapping.ofJson?_toJson, Field.ofJson?_fields]
  cases Json.asList? (Json.asList? Cell.ofJson?) _ <;> rfl

theorem ofJson?_reread_eq_some_iff (r : Request) :
    ofJson? r.toJson.reread = some r ↔ r.DoublesReadBack := by
  have hrows : ofJson? r.toJson.reread = some r ↔ Json.asList? (Json.asList? Cell.ofJson?)
      (.array (r.rows.map fun row => .array (row.map fun c => c.toJson.reread))) = some r.rows := by
    rw [ofJson?_reread, Option.map_eq_some_iff]
    constructor
    · rintro ⟨rows, hrows, h⟩
      rw [hrows, ← congrArg Request.rows h]
    · intro hrows
      exact ⟨r.rows, hrows, rfl⟩
  simp only [hrows, Json.asList?_map_eq_some_iff, Cell.ofJson?_reread, Cell.reread?_eq_some_iff]
  constructor
  · intro h row hrow x hx
    exact h row hrow _ hx x rfl
  · rintro h row hrow _ hc x rfl
    exact h row hrow x hc

end Request

/-- What the exchange of printed values preserves. -/
structure ContractKept : Prop where
  /-- A request comes back exactly when its doubles are read back. -/
  request : ∀ r : Request, Json.Returns Request.toJson Request.ofJson? r ↔ r.DoublesReadBack
  /-- A request that came from a text comes back when it is printed again. -/
  again : ∀ text r, Request.parse? text = some r → r.DoublesReadBack →
    ∀ printing ∈ r.toJson.printings, Request.parse? printing = some r
  schema : ∀ s : Schema, Json.Returns Schema.toJson Schema.ofJson? s
  report : ∀ r : FailureReport, Json.Returns FailureReport.toJson FailureReport.ofJson? r
  /-- The printed report has neither an empty detail nor an empty list of errors. -/
  omitted : ∀ r : FailureReport, ∀ text ∈ r.toJson.printings, ∃ value, Json.parse? text = some value ∧
    (value.hasKey "detail" = true ↔ r.detail ≠ "") ∧ (value.hasKey "errors" = true ↔ r.errors ≠ [])
  /-- The largest size is a number of 64 bits. -/
  settings : ∀ s : Settings, s.maxInputSize < 2 ^ 64 → Json.Returns Settings.toJson Settings.ofJson? s
  /-- Doubles of at most fifteen digits near the units are read back. -/
  short : ∀ x : Binary64, x.literal.IsShort → x.ReadsBack
  cell : ∀ c : Cell, Json.Returns Cell.toJson Cell.ofJson? c ↔
    ∀ x, c = .number (.double x) → x.ReadsBack
  /-- Whatever a printed cell is decoded to is of its kind. -/
  kind : ∀ c : Cell, ∀ text ∈ c.toJson.printings, ∀ d,
    (Json.parse? text).bind Cell.ofJson? = some d → d.kind = c.kind
  /-- Cells of two kinds have no printing in common. -/
  distinct : ∀ c d : Cell, ∀ text ∈ c.toJson.printings, text ∈ d.toJson.printings → c.kind = d.kind
  /-- A field that does not say whether it is nullable comes back as nullable. -/
  brief : ∀ f : Field, ∀ text ∈ f.briefJson.printings,
    (Json.parse? text).bind Field.ofJson? = some { f with nullable := true }
  nullable : ∀ entries : List (Option String × Json), (∀ entry ∈ entries, entry.1 ≠ some "nullable") →
    Field.ofJson? (.object entries) = Field.ofJson? (.object ((some "nullable", .bool true) :: entries))

theorem contractKept : ContractKept where
  request r := (Json.returns_iff r.keyed_toJson).trans r.ofJson?_reread_eq_some_iff
  again text r _ h := (Json.returns_iff r.keyed_toJson).mpr (r.ofJson?_reread_eq_some_iff.mpr h)
  schema s := Json.returns_of_reread s.keyed_toJson s.reread_toJson s.ofJson?_toJson
  report r := Json.returns_of_reread r.keyed_toJson r.reread_toJson r.ofJson?_toJson
  omitted r text htext := by
    refine ⟨r.toJson, ?_, r.hasKey_toJson⟩
    rw [Json.parse?_of_mem_printings r.keyed_toJson text htext, r.reread_toJson]
  settings s h := Json.returns_of_reread s.keyed_toJson s.reread_toJson (Settings.ofJson?_toJson h)
  short x h := by
    rw [x.readsBack_iff, Number.reread?, Binary64.toBinary64?_literal_of_short h]
    rfl
  cell c := by
    rw [Json.returns_iff c.keyed_toJson, c.ofJson?_reread, c.reread?_eq_some_iff]
  kind c text htext d hd := by
    rw [Json.parse?_of_mem_printings c.keyed_toJson text htext, Option.bind_some, c.ofJson?_reread] at hd
    exact Cell.kind_of_reread? hd
  distinct c d text hc hd := by
    have hparse := Json.parse?_of_mem_printings c.keyed_toJson text hc
    rw [Json.parse?_of_mem_printings d.keyed_toJson text hd, Option.some.injEq] at hparse
    have hkind := c.kindOf?_reread
    rw [← hparse, d.kindOf?_reread] at hkind
    exact (Option.some.inj hkind).symm
  brief f := by
    rw [Json.decoded_printings Field.ofJson? (by simp [Field.briefJson])]
    have hread : f.briefJson.reread = f.briefJson := by simp [Field.briefJson]
    rw [hread, f.ofJson?_briefJson]
  nullable _ h := Field.ofJson?_of_not_nullable h

def ledgerRequest : Request where
  table := "ledger \"A\"\n"
  mapping := ⟨[("A", "id"), ("B", "remark")], by decide⟩
  rows := [[.null, .bool true, .number (.natural ⟨12, by decide⟩), .number (.negative ⟨11, by decide⟩),
      .number (.double ⟨false, ⟨1019, by decide⟩, ⟨2702159776422298, by decide⟩⟩),
      .number (.double (.zero true))],
    [.text "null", .text "true", .text "12", .text "-12", .text "0.1", .text "-0.0\x01"]]
  fields := [⟨"id", "INT", false⟩, ⟨"remark", "TEXT", true⟩]

/-- A request with the double 427.16915470315877, whose text is read as the next one. -/
def lossyRequest : Request := { Request.empty "t" with
  rows := [[.number (.double ⟨false, ⟨1031, by decide⟩, ⟨3011239614603393, by decide⟩⟩)]] }

theorem contractKept_ledgerRequest :
    ledgerRequest.DoublesReadBack ∧
      Json.Returns Request.toJson Request.ofJson? ledgerRequest ∧
      Json.Returns Settings.toJson Settings.ofJson? { maxInputSize := 2 ^ 64 - 1, dialect := .sqlite } ∧
      ¬ Json.Returns Request.toJson Request.ofJson? lossyRequest := by
  have htenth : Binary64.ReadsBack ⟨false, 1019, 2702159776422298⟩ :=
    (Binary64.readsBack_iff _).mpr (by decide +kernel)
  have hzero : Binary64.ReadsBack (.zero true) := (Binary64.readsBack_iff _).mpr (by decide +kernel)
  have hlossy : ¬ Binary64.ReadsBack ⟨false, 1031, 3011239614603393⟩ :=
    mt (Binary64.readsBack_iff _).mp (by decide +kernel)
  have hledger : ledgerRequest.DoublesReadBack := by
    intro row hrow x hx
    simp only [ledgerRequest, List.mem_cons, List.not_mem_nil, or_false] at hrow
    rcases hrow with rfl | rfl
    · simp at hx
      rcases hx with rfl | rfl
      · exact htenth
      · exact hzero
    · simp at hx
  refine ⟨hledger, (contractKept.request _).mpr hledger, contractKept.settings _ (by decide), ?_⟩
  intro h
  have hread := (contractKept.request _).mp h
  exact hlossy (hread _ List.mem_cons_self _ List.mem_cons_self)

end TableLoader
