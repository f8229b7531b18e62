import TableLoader.Proofs.Dump.Fallback
import TableLoader.Proofs.Request.Contract
import TableLoader.Session

/-! # Runs of a session

What a command can do is told once, and all else follows by induction on the commands of a run: refused commands
leave no trace, the tables at hand are those of the last dump that was read, settings and tables do not depend on
the requests made meanwhile, and commands make every request. -/
namespace TableLoader.Session

variable {s t : Session} {c : Command} {cs : List Command}

/-- What becomes of a command, one rule for each way it can go. -/
inductive Outcome (s : Session) : Command → Except Refusal Session → Prop where
  | configured {size validate quote dialect q d} :
      named IdentifierQuote.parse s.settings.identifierQuote quote = .ok q →
      named Dialect.parse s.settings.dialect dialect = .ok d →
      Outcome s (.configure size validate quote dialect) (.ok { s with
        settings := ⟨size.getD s.settings.maxInputSize, q,
          validate.getD s.settings.validateBeforeGenerate, d⟩ })
  | unknownQuote {size validate quote dialect message} :
      named IdentifierQuote.parse s.settings.identifierQuote quote = .error message →
      Outcome s (.configure size validate quote dialect) (.error (.setting message))
  | unknownDialect {size validate quote dialect q message} :
      named IdentifierQuote.parse s.settings.identifierQuote quote = .ok q →
      named Dialect.parse s.settings.dialect dialect = .error message →
      Outcome s (.configure size validate quote dialect) (.error (.setting message))
  | read {dump schema} : Schema.ofDump (.ofSettings s.settings) dump = .ok schema →
      Outcome s (.readDump dump) (.ok { s with tables := schema.tables })
  | unreadable {dump failure} : Schema.ofDump (.ofSettings s.settings) dump = .error failure →
      Outcome s (.readDump dump) (.error (.dump failure))
  | newRequest (table) : Outcome s (.newRequest table) (.ok (s.newRequest table))
  | map (source target) : Outcome s (.map source target) (.ok (s.map source target))
  | setFields (fields) : Outcome s (.setFields fields) (.ok (s.setFields fields))
  | setRows (rows) : Outcome s (.setRows rows) (.ok (s.setRows rows))
  | addRow (row) : Outcome s (.addRow row) (.ok (s.addRow row))
  | used {index table} : s.tables[index]? = some table →
      Outcome s (.useTable index) (.ok { s with
        request := { s.request with table := table.name, fields := table.fields } })
  | noSuchTable {index} : s.tables.length ≤ index →
      Outcome s (.useTable index) (.error .noSuchTable)

theorem outcome_step (s : Session) (c : Command) : Outcome s c (s.step c) := by
  cases c with
  | configure size validate quote dialect =>
    rw [step, configure]
    cases hq : named IdentifierQuote.parse s.settings.identifierQuote quote with
    | error message => exact .unknownQuote hq
    | ok q =>
      cases hd : named Dialect.parse s.settings.dialect dialect with
      | error message => exact .unknownDialect hq hd
      | ok d => exact .configured hq hd
  | readDump dump =>
    rw [step, readDump]
    cases h : Schema.ofDump (.ofSettings s.settings) dump with
    | error failure => exact .unreadable h
    | ok schema => exact .read h
  | newRequest table => exact .newRequest table
  | map source target => exact .map source target
  | setFields fields => exact .setFields fields
  | setRows rows => exact .setRows rows
  | addRow row => exact .addRow row
  | useTable index =>
    rw [step, useTable?]
    cases h : s.tables[index]? with
    | none => exact .noSuchTable (List.getElem?_eq_none_iff.mp h)
    | some table => exact .used h

/-- The rules leave no choice: each command has the one outcome that the step gives. -/
theorem outcome_iff {o : Except Refusal Session} : Outcome s c o ↔ s.step c = o := by
  constructor
  · intro h
    cases h with
    | configured hq hd => rw [step, configure, hq, hd]; rfl
    | unknownQuote hq => rw [step, configure, hq]; rfl
    | unknownDialect hq hd => rw [step, configure, hq, hd]; rfl
    | read h => rw [step, readDump, h]; rfl
    | unreadable h => rw [step, readDump, h]; rfl
    | used h => rw [step, useTable?, h]; rfl
    | noSuchTable h => rw [step, useTable?, List.getElem?_eq_none h]; rfl
    | _ => rfl
  · rintro rfl
    exact outcome_step s c

theorem after_of_step (h : s.step c = .ok t) : s.after c = t := by rw [after, h]

theorem after_of_refused {r : Refusal} (h : s.step c = .error r) : s.after c = s := by rw [after, h]

/-- One unknown name keeps the rest of the command from taking effect as well. -/
example : (start.run [.configure (some 5) none (some "ansi") (some "oracle")]).settings = {} := rfl

theorem after_of_outcome {P : Session → Prop} (hrefused : P s)
    (haccepted : ∀ t, Outcome s c (.ok t) → P t) : P (s.after c) := by
  cases h : s.step c with
  | error r =>
    rw [after_of_refused h]
    exact hrefused
  | ok t =>
    rw [after_of_step h]
    exact haccepted t (outcome_iff.mpr h)

@[simp] theorem run_nil (s : Session) : s.run [] = s := rfl

@[simp] theorem run_cons (s : Session) (c : Command) (cs : List Command) :
    s.run (c :: cs) = (s.after c).run cs := rfl

theorem run_append (s : Session) (cs ds : List Command) : s.run (cs ++ ds) = (s.run cs).run ds :=
  List.foldl_append

/-! ## Refused commands -/

/-- The commands of a run that are accepted when their turn comes. -/
def accepted (s : Session) : List Command → List Command
  | [] => []
  | c :: cs =>
    match s.step c with
    | .ok t => c :: accepted t cs
    | .error _ => accepted s cs

theorem accepted_cons_of_step (h : s.step c = .ok t) : s.accepted (c :: cs) = c :: t.accepted cs := by
  rw [accepted, h]

theorem accepted_cons_of_refused {r : Refusal} (h : s.step c = .error r) :
    s.accepted (c :: cs) = s.accepted cs := by
  rw [accepted, h]

/-- Without its refused commands a run goes the same way, and nothing more is refused. -/
theorem run_accepted (s : Session) (cs : List Command) :
    s.run (s.accepted cs) = s.run cs ∧ s.accepted (s.accepted cs) = s.accepted cs := by
  induction cs generalizing s with
  | nil => exact ⟨rfl, rfl⟩
  | cons c cs ih =>
    cases h : s.step c with
    | ok t =>
      obtain ⟨hrun, hagain⟩ := ih t
      rw [accepted_cons_of_step h, accepted_cons_of_step h, run_cons, run_cons, after_of_step h, hrun,
        hagain]
      exact ⟨rfl, rfl⟩
    | error r =>
      rw [accepted_cons_of_refused h, run_cons, after_of_refused h]
      exact ih s

/-! ## What bears on what -/

inductive Part where
  | settings
  | tables
  | request

/-- Tables are read under the settings, and a request can take its table from those read. -/
def Command.bears : Part → Command → Bool
  | .settings, .configure .. | .tables, .configure .. | .tables, .readDump _ | .request, _ => true
  | .settings, _ | .tables, _ => false

/-- Two sessions agree in a part and in what it is made from. -/
def Agree : Part → Session → Session → Prop
  | .settings, s, t => s.settings = t.settings
  | .tables, s, t => s.settings = t.settings ∧ s.tables = t.tables
  | .request, s, t => s = t

theorem settings_after_configure (h : s.settings = t.settings) (size : Option ℕ) (validate : Option Bool)
    (quote dialect : Option String) :
    (s.after (.configure size validate quote dialect)).settings =
      (t.after (.configure size validate quote dialect)).settings := by
  rw [after, after, step, step, configure, configure, h]
  cases named IdentifierQuote.parse t.settings.identifierQuote quote with
  | error message => exact h
  | ok q =>
    cases named Dialect.parse t.settings.dialect dialect with
    | error message => exact h
    | ok d => rfl

theorem tables_after_readDump (hs : s.settings = t.settings) (ht : s.tables = t.tables) (dump : String) :
    (s.after (.readDump dump)).tables = (t.after (.readDump dump)).tables := by
  rw [after, after, step, step, readDump, readDump, hs]
  cases Schema.ofDump (.ofSettings t.settings) dump with
  | error failure => exact ht
  | ok schema => rfl

/-- A command that does not bear on the settings leaves them alone, refused or not. -/
theorem settings_after (h : c.bears .settings = false) : (s.after c).settings = s.settings := by
  apply after_of_outcome (P := fun t => t.settings = s.settings) rfl
  intro t ho
  cases ho with
  | configured => cases h
  | _ => rfl

theorem tables_after (h : ∀ dump, c ≠ .readDump dump) : (s.after c).tables = s.tables := by
  apply after_of_outcome (P := fun t => t.tables = s.tables) rfl
  intro t ho
  cases ho with
  | @read dump => exact absurd rfl (h dump)
  | _ => rfl

theorem agree_after {p : Part} (h : Agree p s t) (hc : c.bears p = true) :
    Agree p (s.after c) (t.after c) := by
  cases p with
  | request =>
    obtain rfl : s = t := h
    exact rfl
  | settings =>
    cases c with
    | configure => exact settings_after_configure h ..
    | _ => cases hc
  | tables =>
    obtain ⟨hs, ht⟩ := h
    cases c with
    | configure =>
      refine ⟨settings_after_configure hs .., ?_⟩
      rw [tables_after (by simp), tables_after (by simp)]
      exact ht
    | readDump dump =>
      refine ⟨?_, tables_after_readDump hs ht dump⟩
      rw [settings_after rfl, settings_after rfl]
      exact hs
    | _ => cases hc

theorem agree_after_left {p : Part} (h : Agree p s t) (hc : c.bears p = false) :
    Agree p (s.after c) t := by
  cases p with
  | request => cases hc
  | settings => exact (settings_after hc).trans h
  | tables =>
    have hconfigure : c.bears .settings = false := by
      cases c with
      | configure => cases hc
      | _ => rfl
    have hread : ∀ dump, c ≠ .readDump dump := by
      rintro dump rfl
      cases hc
    exact ⟨(settings_after hconfigure).trans h.1, (tables_after hread).trans h.2⟩

/-- A part ends up the same when the commands without bearing on it are left out. -/
theorem run_agree {p : Part} (h : Agree p s t) (cs : List Command) :
    Agree p (s.run cs) (t.run (cs.filter (·.bears p))) := by
  induction cs generalizing s t with
  | nil => exact h
  | cons c cs ih =>
    by_cases hc : c.bears p = true
    · rw [List.filter_cons_of_pos hc]
      exact ih (agree_after h hc)
    · rw [List.filter_cons_of_neg hc]
      exact ih (agree_after_left h (Bool.eq_false_iff.mpr hc))

/-- What was done to earlier requests is forgotten when a new one is begun. -/
theorem run_newRequest (s : Session) (before : List Command) (table : String) (cs : List Command) :
    s.run (before ++ .newRequest table :: cs) =
      s.run (before.filter (·.bears .tables) ++ .newRequest table :: cs) := by
  obtain ⟨hs, ht⟩ : Agree .tables (s.run before) (s.run (before.filter (·.bears .tables))) :=
    run_agree (p := .tables) ⟨rfl, rfl⟩ before
  have hnew : (s.run before).after (.newRequest table) =
      (s.run (before.filter (·.bears .tables))).after (.newRequest table) := by
    change Session.mk _ _ _ = Session.mk _ _ _
    rw [hs, ht]
  rw [run_append, run_append, run_cons, run_cons, hnew]

/-! ## Where the tables come from -/

def NoneRead (s : Session) : List Command → Prop
  | [] => True
  | c :: cs => (∀ dump t, c = .readDump dump → s.step c ≠ .ok t) ∧ (s.after c).NoneRead cs

/-- The last dump that is read along a run, and its tables under the settings in force before it. -/
def LastRead (s : Session) (cs : List Command) (dump : String) (tables : List Table) : Prop :=
  ∃ before rest, cs = before ++ .readDump dump :: rest ∧
    Schema.ofDump (.ofSettings (s.run before).settings) dump = .ok ⟨tables⟩ ∧
    (s.run (before ++ [.readDump dump])).NoneRead rest

theorem tables_run_of_noneRead (h : s.NoneRead cs) : (s.run cs).tables = s.tables := by
  induction cs generalizing s with
  | nil => rfl
  | cons c cs ih =>
    rw [run_cons, ih h.2]
    cases hstep : s.step c with
    | error r => rw [after_of_refused hstep]
    | ok t =>
      apply tables_after
      rintro dump rfl
      exact h.1 dump t rfl hstep

theorem LastRead.cons {dump : String} {tables : List Table}
    (h : (s.after c).LastRead cs dump tables) : s.LastRead (c :: cs) dump tables := by
  obtain ⟨before, rest, rfl, hread, hrest⟩ := h
  exact ⟨c :: before, rest, rfl, hread, hrest⟩

/-- The tables at hand are those of the last dump that was read, under the settings of that moment. -/
theorem tables_run (s : Session) (cs : List Command) :
    s.NoneRead cs ∧ (s.run cs).tables = s.tables ∨
      ∃ dump, s.LastRead cs dump (s.run cs).tables := by
  induction cs generalizing s with
  | nil => exact .inl ⟨trivial, rfl⟩
  | cons c cs ih =>
    rcases ih (s.after c) with ⟨hnone, htables⟩ | ⟨dump, hlast⟩
    · by_cases hread : ∀ dump t, c = .readDump dump → s.step c ≠ .ok t
      · have h : s.NoneRead (c :: cs) := ⟨hread, hnone⟩
        exact .inl ⟨h, tables_run_of_noneRead h⟩
      · push Not at hread
        obtain ⟨dump, t, rfl, hstep⟩ := hread
        right
        refine ⟨dump, [], cs, rfl, ?_, hnone⟩
        cases outcome_iff.mpr hstep with
        | @read _ schema hschema =>
          rw [run_cons, htables, after_of_step hstep]
          exact hschema
    · exact .inr ⟨dump, hlast.cons⟩

theorem tables_of_ofDump {i : Importer} {dump : String} {schema : Schema}
    (h : Schema.ofDump i dump = .ok schema) :
    schema.tables ≠ [] ∧ ∀ table ∈ schema.tables, table.fields ≠ [] := by
  obtain ⟨found, hrun, htables⟩ := ((Importer.follows_run i dump).schema schema).mp h
  have ho := (Importer.outcome_run i dump).firstOutcome
  obtain ⟨-, hfound⟩ := (ho.found found).mp hrun
  rw [htables]
  exact ⟨hfound.nonempty, ho.fields found hrun⟩

theorem tables_ne_nil_of_run (h : s.tables ≠ []) (cs : List Command) : (s.run cs).tables ≠ [] := by
  rcases tables_run s cs with ⟨-, htables⟩ | ⟨dump, hlast⟩
  · rw [htables]
    exact h
  · obtain ⟨before, rest, -, hread, -⟩ := hlast
    exact (tables_of_ofDump hread).1

/-- Every table that a session holds has a field to write. -/
theorem fields_ne_nil_of_run {table : Table} (h : table ∈ (start.run cs).tables) :
    table.fields ≠ [] := by
  rcases tables_run start cs with ⟨-, htables⟩ | ⟨dump, hlast⟩
  · rw [htables] at h
    cases h
  · obtain ⟨before, rest, -, hread, -⟩ := hlast
    exact (tables_of_ofDump hread).2 table h

/-! ## Requests made by commands -/

theorem run_addRows (s : Session) (rows : List Row) :
    s.run (rows.map .addRow) = s.setRows (s.request.rows ++ rows) := by
  induction rows generalizing s with
  | nil => rw [List.append_nil]; rfl
  | cons row rows ih =>
    rw [List.map_cons, run_cons, ih]
    change setRows s ((s.request.rows ++ [row]) ++ rows) = _
    rw [List.append_assoc]
    rfl

theorem run_maps (s : Session) (entries : List (String × String)) :
    s.run (entries.map fun e => .map e.1 e.2) = { s with request := { s.request with
      mapping := entries.foldl (fun m e => m.insert e.1 e.2) s.request.mapping } } := by
  induction entries generalizing s with
  | nil => rfl
  | cons e entries ih =>
    rw [List.map_cons, run_cons, ih]
    rfl

def commandsFor (r : Request) : List Command :=
  .newRequest r.table :: (r.mapping.entries.map (fun e => .map e.1 e.2) ++
    .setFields r.fields :: r.rows.map .addRow)

/-- Every request can be made in every session, and nothing else changes. -/
theorem run_commandsFor (s : Session) (r : Request) :
    s.run (commandsFor r) = { s with request := r } := by
  rw [commandsFor, run_cons, run_append, run_maps, run_cons, run_addRows]
  change Session.mk _ _ ⟨_, Mapping.ofList r.mapping.entries, _, _⟩ = _
  rw [r.mapping.ofList_entries]
  rfl

end TableLoader.Session
