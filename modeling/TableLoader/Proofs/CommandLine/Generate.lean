import Mathlib
import TableLoader.CommandLine.Disk

/-! # The task `generate`

A run that is to write a statement succeeds just where a statement is asked for and can be written, and then
leaves it in the one place that was named. A run that fails writes nothing. Where the input comes from and
whether the run tells of its work change nothing but standard error. -/
namespace TableLoader.CommandLine

/-- The bytes of a text are those that it is encoded as, and no others. -/
theorem Source.ofBytes_eq_text_iff {bytes : ByteArray} {content : String} :
    Source.ofBytes bytes = .text content ↔ bytes = content.toUTF8 := by
  unfold Source.ofBytes String.fromUTF8?
  constructor
  · intro h
    split at h
    · next found hf =>
      split at hf
      · obtain rfl := Source.text.inj h
        obtain rfl := Option.some.inj hf
        rfl
      · simp at hf
    · simp at h
  · rintro rfl
    rw [String.toUTF8_eq_toByteArray, dif_pos content.isValidUTF8]
    rfl

namespace Disk

theorem file?_write_of_ne (disk : Disk) (path content : String) {other : List String}
    (h : other ≠ parts path) : (disk.write path content).file? other = disk.file? other := by
  have hb : (other == parts path) = false := by simpa using h
  rw [file?, file?, write, List.lookup_cons, hb]
  dsimp only
  induction disk.files with
  | nil => rfl
  | cons file files ih =>
    obtain ⟨name, bytes⟩ := file
    by_cases hn : name = parts path
    · have ho : (other == name) = false := by simpa [hn] using h
      rw [List.filter_cons_of_neg (by simp [hn]), ih, List.lookup_cons, ho]
    · rw [List.filter_cons_of_pos (by simpa using hn), List.lookup_cons, List.lookup_cons, ih]

/-- What is written where nothing stands in its way is read back. -/
theorem read_write {disk : Disk} {path : String} (h : disk.refusal? path = none) (content : String) :
    (disk.write path content).read path = .text content := by
  unfold refusal? at h
  split_ifs at h with hempty hdir hfile hparent hslash
  have hnotdir : (disk.write path content).isDirectory (parts path) = false := by
    simp only [isDirectory, Bool.not_eq_true, Bool.or_eq_false_iff, List.any_eq_false,
      Bool.and_eq_true, not_and] at hdir ⊢
    refine ⟨hdir.1, ?_⟩
    intro file hf hp
    rcases List.mem_cons.mp hf with rfl | hf
    · simp
    · exact hdir.2 file (List.mem_of_mem_filter hf) hp
  have hheld : (disk.write path content).file? (parts path) = some content.toUTF8 := by
    simp [file?, write]
  rw [read, if_neg hempty, hnotdir, if_neg Bool.false_ne_true, hheld]
  dsimp only
  rw [if_neg hslash]
  exact Source.ofBytes_eq_text_iff.mpr rfl

end Disk

/-- The way to quote that an option names, or that of the settings where there is no option. -/
def QuotedAs (settings : Settings) : Option String → IdentifierQuote → Prop
  | none, style => style = settings.identifierQuote
  | some name, style => IdentifierQuote.parse name = .ok style

/-- The statement that an input asks for: its text is a request, and the request with the options put into it
has that statement. -/
def Asks (settings : Settings) (table quote : Option String) (input : Source) (sql : String) : Prop :=
  ∃ style text request, QuotedAs settings quote style ∧ input = .text text ∧
    Request.parse? text = some request ∧
    { request with table := table.getD request.table }.generate
      { settings with identifierQuote := style } = .ok sql

theorem QuotedAs.unique {settings : Settings} {quote : Option String} {a b : IdentifierQuote}
    (ha : QuotedAs settings quote a) (hb : QuotedAs settings quote b) : a = b := by
  cases quote with
  | none => exact ha.trans hb.symm
  | some name => exact Except.ok.inj (ha.symm.trans hb)

theorem asks_text_iff {settings : Settings} {table quote : Option String} {style : IdentifierQuote}
    {text : String} {request : Request} (hq : QuotedAs settings quote style)
    (hr : Request.parse? text = some request) (sql : String) :
    Asks settings table quote (.text text) sql ↔
      { request with table := table.getD request.table }.generate
        { settings with identifierQuote := style } = .ok sql := by
  constructor
  · rintro ⟨style', text', request', hq', ht, hr', hsql⟩
    obtain rfl := Source.text.inj ht
    obtain rfl := Option.some.inj (hr.symm.trans hr')
    obtain rfl := hq.unique hq'
    exact hsql
  · intro hsql
    exact ⟨style, text, request, hq, rfl, hr, hsql⟩

theorem Asks.unique {settings : Settings} {table quote : Option String} {input : Source}
    {a b : String} (ha : Asks settings table quote input a) (hb : Asks settings table quote input b) :
    a = b := by
  obtain ⟨style, text, request, hq, rfl, hr, ha⟩ := ha
  have hb := (asks_text_iff hq hr b).mp hb
  exact Except.ok.inj (ha.symm.trans hb)

theorem withQuote_cases (settings : Settings) (quote : Option String) :
    (∃ style, QuotedAs settings quote style ∧
        withQuote settings quote = .ok { settings with identifierQuote := style }) ∨
      ((∀ style, ¬ QuotedAs settings quote style) ∧
        ∃ fault, withQuote settings quote = .error fault) := by
  cases quote with
  | none => exact Or.inl ⟨settings.identifierQuote, rfl, rfl⟩
  | some name =>
    simp only [withQuote, QuotedAs]
    cases IdentifierQuote.parse name with
    | ok style => exact Or.inl ⟨style, rfl, rfl⟩
    | error reason => exact Or.inr ⟨by simp, _, rfl⟩

theorem inputFrom_cases (input : String) (source : Source) :
    (∃ text, source = .text text ∧ inputFrom input source = .ok text) ∨
      ((∀ text, source ≠ .text text) ∧ ∃ fault, inputFrom input source = .error fault) := by
  cases source with
  | text content => exact Or.inl ⟨content, rfl, rfl⟩
  | absent reason => exact Or.inr ⟨by simp, _, rfl⟩
  | unreadable reason => exact Or.inr ⟨by simp, _, rfl⟩

def deliver (output : Option String) (sql before after : String) : Plan :=
  match output with
  | none => .finish ⟨0, sql ++ "\n", before⟩
  | some path => .write path sql before after

/-- To deliver the one statement that is asked for, or to fail where none is. -/
inductive Planned (output : Option String) (asked : String → Prop) : Plan → Prop where
  | deliver {sql : String} (before after : String) : asked sql → (∀ other, asked other → other = sql) →
      Planned output asked (deliver output sql before after)
  | fail (before : String) (fault : Fault) : (∀ sql, ¬ asked sql) →
      Planned output asked (.fail before fault)

theorem planned_planGenerate (settings : Settings) (verbose : Bool) (output : Option String)
    (request : Request) :
    Planned output (request.generate settings = .ok ·) (planGenerate settings verbose output request) := by
  unfold planGenerate
  cases hg : request.generate settings with
  | error failure => exact .fail _ _ (by simp)
  | ok sql =>
    have hone : ∀ other, Except.ok (ε := Failure) sql = .ok other → other = sql := by
      intro other h
      exact (Except.ok.inj h).symm
    cases output with
    | none => exact Planned.deliver _ "" rfl hone
    | some path => exact Planned.deliver _ _ rfl hone

/-- Each step of a plan either leads on or ends it without a statement. -/
theorem planned_plan {i : Invocation} {config input : Source} {settings : Settings}
    {output table quote : Option String} (ht : i.task = .generate output table quote)
    (hs : settingsFrom i.config config = .ok settings) :
    Planned output (Asks settings table quote input) (plan i config input) := by
  simp only [plan, ht, hs, bind, Except.bind, pure, Except.pure]
  rcases withQuote_cases settings quote with ⟨style, hq, hw⟩ | ⟨hq, fault, hw⟩
  · rcases inputFrom_cases i.input input with ⟨text, rfl, hin⟩ | ⟨hin, fault, hf⟩
    · cases hr : Request.parse? text with
      | some request =>
        simp only [hw, hin, requestFrom, hr]
        have hasks : Asks settings table quote (.text text) = _ :=
          funext fun sql => propext (asks_text_iff hq hr sql)
        rw [hasks]
        exact planned_planGenerate _ _ _ _
      -- The text is no request.
      | none =>
        simp only [hw, hin, requestFrom, hr]
        refine .fail _ _ ?_
        rintro sql ⟨_, text', request, _, ht', hr', _⟩
        obtain rfl := Source.text.inj ht'
        simp [hr] at hr'
    · simp only [hw, hf]
      refine .fail _ _ ?_
      rintro sql ⟨_, text, _, _, ht', _⟩
      exact hin text ht'
  · simp only [hw]
    refine .fail _ _ ?_
    rintro sql ⟨style, _, _, hq', _⟩
    exact hq style hq'

def Plan.carryOut (disk : Disk) : Plan → Outcome × Disk
  | .finish outcome => (outcome, disk)
  | .write path content before after =>
    ((Plan.write path content before after).complete (disk.refusal? path),
      if disk.refusal? path = none then disk.write path content else disk)

def Invocation.configSource (i : Invocation) (disk : Disk) : Source :=
  (i.config.map disk.read).getD (.absent "")

def Invocation.inputSource (i : Invocation) (disk : Disk) (stdin : ByteArray) : Source :=
  if i.input = "-" then .ofBytes stdin else disk.read i.input

theorem Invocation.run_eq_carryOut (i : Invocation) (disk : Disk) (stdin : ByteArray) :
    i.run disk stdin = (plan i (i.configSource disk) (i.inputSource disk stdin)).carryOut disk := by
  unfold Invocation.run
  simp only [Invocation.configSource, Invocation.inputSource]
  cases plan i _ _ <;> rfl

/-- What a run that is to write a statement leaves behind, on standard output and on the disk. -/
structure Delivered (output : Option String) (asked : String → Prop) (disk : Disk)
    (result : Outcome × Disk) : Prop where
  code : result.1.code = 0 ↔ (∃ sql, asked sql) ∧ ∀ path ∈ output, disk.refusal? path = none
  printed : output = none → ∀ sql, asked sql → result.1.stdout = sql ++ "\n" ∧ result.2 = disk
  stored : ∀ path, output = some path → disk.refusal? path = none → ∀ sql, asked sql →
    result.1.stdout = "" ∧ result.2.read path = .text sql ∧
      ∀ other, other ≠ Disk.parts path → result.2.file? other = disk.file? other
  kept : result.1.code ≠ 0 → result.1.stdout = "" ∧ result.2 = disk

theorem Planned.delivered {output : Option String} {asked : String → Prop} {p : Plan}
    (h : Planned output asked p) (disk : Disk) : Delivered output asked disk (p.carryOut disk) := by
  cases h with
  | fail before fault hnone =>
    constructor
    · simp only [Plan.fail, Plan.carryOut, Nat.one_ne_zero, false_iff, not_and]
      rintro ⟨sql, hsql⟩
      exact absurd hsql (hnone sql)
    · intro _ sql hsql
      exact absurd hsql (hnone sql)
    · intro path _ _ sql hsql
      exact absurd hsql (hnone sql)
    · intro _
      exact ⟨rfl, rfl⟩
  | @deliver sql before after hsql hone =>
    cases output with
    | none =>
      constructor
      · simp only [CommandLine.deliver, Plan.carryOut, Option.not_mem_none, false_implies, true_iff]
        exact ⟨⟨sql, hsql⟩, fun _ => trivial⟩
      · intro _ other hother
        rw [hone other hother]
        exact ⟨rfl, rfl⟩
      · intro path hpath
        simp at hpath
      · intro hcode
        exact absurd rfl hcode
    | some path =>
      cases hr : disk.refusal? path with
      | none =>
        simp only [CommandLine.deliver, Plan.carryOut, hr, Plan.complete, if_pos]
        constructor
        · simp only [Option.mem_some_iff, true_iff]
          refine ⟨⟨sql, hsql⟩, ?_⟩
          rintro _ rfl
          exact hr
        · simp
        · intro path' hpath _ other hother
          obtain rfl := Option.some.inj hpath
          rw [hone other hother]
          exact ⟨rfl, disk.read_write hr sql, fun _ => disk.file?_write_of_ne path sql⟩
        · simp
      | some reason =>
        simp only [CommandLine.deliver, Plan.carryOut, hr, Plan.complete, reduceCtorEq, if_false]
        constructor
        · simp [hr]
        · simp
        · intro path' hpath hfree
          obtain rfl := Option.some.inj hpath
          simp [hr] at hfree
        · intro _
          exact ⟨rfl, rfl⟩

def AlikeButStderr (a b : Outcome × Disk) : Prop :=
  a.1.code = b.1.code ∧ a.1.stdout = b.1.stdout ∧ a.2 = b.2

theorem Planned.alikeButStderr {output : Option String} {asked : String → Prop} {p q : Plan}
    (hp : Planned output asked p) (hq : Planned output asked q) (disk : Disk) :
    AlikeButStderr (p.carryOut disk) (q.carryOut disk) := by
  cases hp with
  | fail _ _ hnone =>
    cases hq with
    | fail _ _ _ => exact ⟨rfl, rfl, rfl⟩
    | deliver _ _ hsql _ => exact absurd hsql (hnone _)
  | deliver _ _ hsql hone =>
    cases hq with
    | fail _ _ hnone => exact absurd hsql (hnone _)
    | deliver _ _ hsql' _ =>
      obtain rfl := hone _ hsql'
      cases output with
      | none => exact ⟨rfl, rfl, rfl⟩
      | some path =>
        cases hr : disk.refusal? path with
        | none => simp [AlikeButStderr, CommandLine.deliver, Plan.carryOut, Plan.complete, hr]
        | some reason => simp [AlikeButStderr, CommandLine.deliver, Plan.carryOut, Plan.complete, hr]

theorem plan_text {i : Invocation} {output table quote : Option String}
    (ht : i.task = .generate output table quote) (config : Source) (input text : String) :
    plan { i with input } config (.text text) = plan i config (.text text) := by
  simp only [plan, ht, inputFrom]

/-- A run depends on its input as it is read, and only standard error on anything besides. -/
theorem alikeButStderr_run {i j : Invocation} {output table quote : Option String} {settings : Settings}
    {disk : Disk} {stdin stdin' : ByteArray} (hi : i.task = .generate output table quote)
    (hj : j.task = .generate output table quote) (hconfig : j.config = i.config)
    (hs : settingsFrom i.config (i.configSource disk) = .ok settings)
    (hinput : i.inputSource disk stdin = j.inputSource disk stdin') :
    AlikeButStderr (i.run disk stdin) (j.run disk stdin') := by
  have hs' : settingsFrom j.config (j.configSource disk) = .ok settings := by
    rw [Invocation.configSource, hconfig]
    exact hs
  have hp : Planned output (Asks settings table quote (j.inputSource disk stdin')) _ := planned_plan hi hs
  have hq : Planned output (Asks settings table quote (j.inputSource disk stdin')) _ := planned_plan hj hs'
  rw [i.run_eq_carryOut, j.run_eq_carryOut, hinput]
  exact hp.alikeButStderr hq disk

/-- What a run of the task leaves behind, and that it does not depend on how its input comes in or on what it
tells of its work. -/
theorem run_generate {arguments : List String} {i : Invocation} {output table quote : Option String}
    (hi : Invocation.ofArguments arguments = .ok i) (ht : i.task = .generate output table quote)
    {disk : Disk} {settings : Settings} (hs : settingsFrom i.config (i.configSource disk) = .ok settings)
    (stdin : ByteArray) :
    Delivered output (Asks settings table quote (i.inputSource disk stdin)) disk
        (run arguments disk stdin) ∧
      (∀ verbose, AlikeButStderr ({ i with verbose }.run disk stdin) (run arguments disk stdin)) ∧
      ∀ path bytes, path ≠ "-" → disk.read path = .ofBytes bytes →
        AlikeButStderr ({ i with input := path }.run disk stdin) ({ i with input := "-" }.run disk bytes) ∧
        ∀ text, Source.ofBytes bytes = .text text →
          { i with input := path }.run disk stdin = { i with input := "-" }.run disk bytes := by
  have hrun : run arguments disk stdin = i.run disk stdin := by
    rw [run, hi]
  rw [hrun]
  refine ⟨?_, ?_, ?_⟩
  · rw [i.run_eq_carryOut]
    exact (planned_plan ht hs).delivered disk
  · intro verbose
    exact alikeButStderr_run (i := { i with verbose }) ht ht rfl hs rfl
  · intro path bytes hpath hread
    have hfile : { i with input := path }.inputSource disk stdin = .ofBytes bytes := by
      rw [Invocation.inputSource, if_neg hpath]
      exact hread
    have hstdin : { i with input := "-" }.inputSource disk bytes = .ofBytes bytes := if_pos rfl
    constructor
    · exact alikeButStderr_run (i := { i with input := path }) (j := { i with input := "-" }) ht ht rfl hs
        (hfile.trans hstdin.symm)
    · intro text htext
      rw [Invocation.run_eq_carryOut, Invocation.run_eq_carryOut, hfile, hstdin, htext]
      have hplan := (plan_text ht (i.configSource disk) path text).trans
        (plan_text ht (i.configSource disk) "-" text).symm
      exact congrArg (Plan.carryOut disk) hplan

def loadText : String :=
  "\x7b\"table\":\"t\",\"mapping\":\x7b\"A\":\"id\"\x7d,\"rows\":[[\"1\"],[null]]," ++
    "\"fields\":[\x7b\"name\":\"id\",\"type\":\"INT\"\x7d]\x7d"

def loadRequest : Request where
  table := "t"
  mapping := ⟨[("A", "id")], by decide⟩
  rows := [[.text "1"], [.null]]
  fields := [⟨"id", "INT", true⟩]

def loadDisk : Disk := ((Disk.mk []).write "out/load.sql" "DROP TABLE t;").write "load.json" loadText

theorem run_generate_over_file :
    let arguments := ["-v", "generate", "load.json", "--quote", "double", "-tu", "-oout/load.sql"]
    let i : Invocation := ⟨none, true, "load.json", .generate "out/load.sql" "u" "double"⟩
    Invocation.ofArguments arguments = .ok i ∧
      settingsFrom i.config (i.configSource loadDisk) = .ok {} ∧
      (run arguments loadDisk .empty).1.code = 0 ∧ (run arguments loadDisk .empty).1.stdout = "" ∧
      (run arguments loadDisk .empty).2.read "out/load.sql" =
        .text "INSERT INTO \"u\" (\"id\") VALUES\n(1),\n(NULL);" ∧
      (run arguments loadDisk .empty).2.file? ["load.json"] = loadDisk.file? ["load.json"] ∧
      ({ i with verbose := false }.run loadDisk .empty).2 = (run arguments loadDisk .empty).2 ∧
      i.run loadDisk .empty = { i with input := "-" }.run loadDisk loadText.toUTF8 := by
  intro arguments i
  have hi : Invocation.ofArguments arguments = .ok i := by rfl
  have hs : settingsFrom i.config (i.configSource loadDisk) = .ok {} := rfl
  have hfree : loadDisk.refusal? "out/load.sql" = none := by decide +kernel
  have hread : loadDisk.read "load.json" = .text loadText := Disk.read_write (by decide +kernel) loadText
  have hbytes : Source.ofBytes loadText.toUTF8 = .text loadText := Source.ofBytes_eq_text_iff.mpr rfl
  have hr : Request.parse? loadText = some loadRequest := by decide +kernel
  have hq : QuotedAs {} (some "double") .double := rfl
  have hask : Asks {} (some "u") (some "double") (i.inputSource loadDisk .empty)
      "INSERT INTO \"u\" (\"id\") VALUES\n(1),\n(NULL);" := by
    rw [Invocation.inputSource, if_neg (by decide), hread]
    exact (asks_text_iff hq hr _).mpr (by decide +kernel)
  obtain ⟨hdelivered, hverbose, hsource⟩ := run_generate hi rfl hs .empty
  have hcode := hdelivered.code.mpr ⟨⟨_, hask⟩, by simpa using hfree⟩
  obtain ⟨hout, hheld, hothers⟩ := hdelivered.stored _ rfl hfree _ hask
  have hstdin := (hsource "load.json" loadText.toUTF8 (by decide) (hread.trans hbytes.symm)).2 _ hbytes
  exact ⟨hi, hs, hcode, hout, hheld, hothers _ (by decide), (hverbose false).2.2, hstdin⟩

end TableLoader.CommandLine
