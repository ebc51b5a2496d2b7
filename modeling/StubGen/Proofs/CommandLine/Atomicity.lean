import StubGen.CommandLine.Workspace

/-!
# All or nothing

A run of the program on a file system, with whatever libraries, either does all that it is asked to do or leaves every
file as it is (`run_generate`).

* A `FileSystem` answers reads from its state, and a write changes one file or fails and changes none.  A workspace is
  one (`Workspace.fileSystem`).
* `FileSystem.generated?` is the module that a run is to deliver, as a function of the files before it.
-/

namespace StubGen.CommandLine

/-- Files in a state.  What cannot be read has no text, and a failed write leaves no state of its own. -/
structure FileSystem (σ Place : Type) where
  isFile : σ → String → Bool
  read? : σ → String → Option String
  standardInput? : σ → Option String
  write? : σ → String → String → Option σ
  /-- The place of the file that a path leads to. -/
  locate? : σ → String → Option Place
  content? : σ → Place → Option String
  /-- A write changes the file that the path leads to and no other one. -/
  content?_of_write? : ∀ {before after : σ} {path text : String}, write? before path text = some after →
    ∃ place, locate? before path = some place ∧ content? after place = some text ∧
      ∀ other, other ≠ place → content? after other = content? before other

namespace FileSystem

variable {σ Place : Type}

/-- The program on a file system, with these libraries. -/
def host (files : FileSystem σ Place) (libraries : Libraries) : Host (StateM σ) where
  libraries := libraries
  isFile path := do return files.isFile (← get) path
  contents path := do return files.read? (← get) path
  standardInput := do return files.standardInput? (← get)
  store path text := do
    match files.write? (← get) path text with
    | some after => do
      set after
      return true
    | none => return false

/-! ### What a run is to deliver -/

/-- The configuration of the file that is named, else of the one in the working directory if there is one, and else the
defaults. -/
def config? (files : FileSystem σ Place) (libraries : Libraries) (state : σ) : Option String → Option Config
  | some path => (files.read? state path).bind libraries.config?
  | none => if files.isFile state configName then (files.read? state configName).bind libraries.config? else some {}

/-- The document of an input. -/
def document? (files : FileSystem σ Place) (libraries : Libraries) (state : σ) (input : String) : Option Json :=
  (if input = "-" then files.standardInput? state else files.read? state input).bind libraries.document?

end FileSystem

/-- The grammar of the name, or else the one that the document looks like. -/
def grammarOf? (named : Option String) (root : Json) : Option Grammar :=
  match named with
  | some name => Grammar.ofName? name
  | none => Grammar.detect? root

namespace FileSystem

variable {σ Place : Type}

/-- The module of an input, generated in its grammar under the options of the configuration. -/
def generated? (files : FileSystem σ Place) (libraries : Libraries) (state : σ) (named grammar : Option String)
    (input : String) : Option Generated := do
  let config ← files.config? libraries state named
  let root ← files.document? libraries state input
  let grammar ← grammarOf? grammar root
  (grammar.generate config.options root).toOption

/-! ### Reading -/

/-- The step leaves the state as it is, and gives this value or fails. -/
def Reads {α : Type} (step : ExceptT CommandError (StateM σ) α) (state : σ) (value : Option α) : Prop :=
  ∃ result : Result α, step.run.run state = (result, state) ∧ result.toOption = value

namespace Reads

variable {α β : Type} {state : σ} {step : ExceptT CommandError (StateM σ) α}
  {next : α → ExceptT CommandError (StateM σ) β} {value : Option α}

theorem ok (value : α) : Reads (pure value) state (some value) := ⟨.ok value, rfl, rfl⟩

theorem error (cause : CommandError) : Reads (throw cause : ExceptT CommandError (StateM σ) α) state none :=
  ⟨.error cause, rfl, rfl⟩

theorem bind {more : α → Option β} (hstep : Reads step state value)
    (hnext : ∀ value, Reads (next value) state (more value)) : Reads (step >>= next) state (value.bind more) := by
  obtain ⟨result, hrun, rfl⟩ := hstep
  cases result with
  | error cause =>
    refine ⟨.error cause, ?_, rfl⟩
    rw [ExceptT.run_bind, StateT.run_bind, hrun]
    rfl
  | ok value =>
    obtain ⟨result, hmore, hresult⟩ := hnext value
    refine ⟨result, ?_, hresult⟩
    rw [ExceptT.run_bind, StateT.run_bind, hrun]
    exact hmore

/-- A question about the state, and what is done with the answer. -/
theorem asking {question : StateM σ α} {answer : α} {value : Option β} (h : question.run state = (answer, state))
    (hnext : Reads (next answer) state value) : Reads (liftM question >>= next) state value := by
  obtain ⟨result, hrun, hvalue⟩ := hnext
  refine ⟨result, ?_, hvalue⟩
  have hasked : (liftM question : ExceptT CommandError (StateM σ) α).run.run state = (.ok answer, state) := by
    rw [ExceptT.run_liftM, StateT.run_map, h]
    rfl
  rw [ExceptT.run_bind, StateT.run_bind, hasked]
  exact hrun

end Reads

variable (files : FileSystem σ Place) (libraries : Libraries) (state : σ)

private theorem reads_loadFile (path : String) :
    Reads (loadFile (files.host libraries) path) state ((files.read? state path).bind libraries.config?) := by
  unfold loadFile
  refine .asking rfl ?_
  cases files.read? state path with
  | none => exact .error _
  | some text =>
    rw [Option.bind_some]
    dsimp only [host]
    cases libraries.config? text with
    | none => exact .error _
    | some config => exact .ok config

private theorem reads_loadConfig (named : Option String) :
    Reads (loadConfig (files.host libraries) named) state (files.config? libraries state named) := by
  cases named with
  | some path => exact reads_loadFile files libraries state path
  | none =>
    unfold loadConfig config?
    refine .asking rfl ?_
    cases files.isFile state configName with
    | false => exact .ok _
    | true => exact reads_loadFile files libraries state configName

/-- A text is parsed without a look at the state. -/
private theorem reads_parse (path text : String) :
    Reads (match libraries.document? text with
      | some root => pure root
      | none => throw (.notJson path)) state (libraries.document? text) := by
  cases libraries.document? text with
  | none => exact .error _
  | some root => exact .ok root

private theorem reads_loadInput (path : String) :
    Reads (loadInput (files.host libraries) path) state (files.document? libraries state path) := by
  unfold loadInput document?
  split
  · refine .asking rfl ?_
    cases files.standardInput? state with
    | none => exact (Reads.error _).bind (reads_parse libraries state path)
    | some text => exact (Reads.ok text).bind (reads_parse libraries state path)
  · refine .asking rfl ?_
    cases files.read? state path with
    | none => exact (Reads.error _).bind (reads_parse libraries state path)
    | some text => exact (Reads.ok text).bind (reads_parse libraries state path)

private theorem toOption_moduleText (config : Config) (grammar : Option String) (input : String) (root : Json) :
    (moduleText config grammar input root).toOption =
      (grammarOf? grammar root).bind fun grammar =>
        (grammar.generate config.options root).toOption.map Generated.text := by
  have hchosen : (chooseGrammar grammar root).toOption = grammarOf? grammar root := by
    cases grammar with
    | none =>
      rw [chooseGrammar, grammarOf?]
      cases Grammar.detect? root <;> rfl
    | some name =>
      rw [chooseGrammar, grammarOf?]
      cases Grammar.ofName? name <;> rfl
  rw [← hchosen, moduleText]
  cases chooseGrammar grammar root with
  | error cause => rfl
  | ok grammar =>
    change Except.toOption
        (do return (← (grammar.generate config.options root).mapError (CommandError.failed input)).text) =
      (grammar.generate config.options root).toOption.map Generated.text
    cases grammar.generate config.options root <;> rfl

/-- How a command ends that is to deliver a text: the text comes where it is wanted, or the command fails. -/
inductive Ends (files : FileSystem σ Place) (before : σ) (output : Option String) :
    Option String → Result String → σ → Prop
  | failed (cause : CommandError) : Ends files before output none (.error cause) before
  | printed (text : String) : output = none → Ends files before output (some text) (.ok text) before
  | stored {text path : String} {after : σ} : output = some path → files.write? before path text = some after →
      Ends files before output (some text) (.ok "") after
  | unwritable {text path : String} (cause : CommandError) : output = some path →
      files.write? before path text = none → Ends files before output (some text) (.error cause) before

/-- What is read before an end. -/
private theorem ends_bind {α : Type} {step : ExceptT CommandError (StateM σ) α}
    {next : α → ExceptT CommandError (StateM σ) String} {value : Option α} {text : α → Option String}
    {output : Option String} (hstep : Reads step state value)
    (hnext : ∀ value,
      Ends files state output (text value) ((next value).run.run state).1 ((next value).run.run state).2) :
    Ends files state output (value.bind text) ((step >>= next).run.run state).1 ((step >>= next).run.run state).2 := by
  obtain ⟨result, hrun, rfl⟩ := hstep
  rw [ExceptT.run_bind, StateT.run_bind, hrun]
  cases result with
  | error cause => exact .failed cause
  | ok value => exact hnext value

private theorem run_host_store (path text : String) : ((files.host libraries).store path text).run state =
    ((files.write? state path text).isSome, (files.write? state path text).getD state) := by
  change (match files.write? state path text with
    | some after => (do set after; return true : StateM σ Bool)
    | none => return false).run state = _
  cases files.write? state path text <;> rfl

private theorem run_store (path text : String) {β : Type} (next : Bool → ExceptT CommandError (StateM σ) β) :
    (liftM ((files.host libraries).store path text) >>= next).run.run state =
      (next (files.write? state path text).isSome).run.run ((files.write? state path text).getD state) := by
  rw [ExceptT.run_bind, StateT.run_bind, ExceptT.run_liftM, StateT.run_map, run_host_store]
  rfl

private theorem ends_deliver (output : Option String) (text : String) :
    let delivered : ExceptT CommandError (StateM σ) String :=
      match output with
      | none => return text
      | some path => do
        if ← (files.host libraries).store path text then return "" else throw (.unwritable path)
    Ends files state output (some text) (delivered.run.run state).1 (delivered.run.run state).2 := by
  cases output with
  | none => exact .printed text rfl
  | some path =>
    dsimp only
    rw [run_store]
    cases h : files.write? state path text with
    | none => exact .unwritable _ rfl h
    | some after => exact .stored rfl h

private theorem ends_execute (named grammar : Option String) (input : String) (output : Option String) :
    let command : ExceptT CommandError (StateM σ) String := do
      execute (files.host libraries) (← loadConfig (files.host libraries) named) (.generate grammar input output)
    Ends files state output ((files.generated? libraries state named grammar input).map Generated.text)
      (command.run.run state).1 (command.run.run state).2 := by
  have htext : (files.generated? libraries state named grammar input).map Generated.text =
      (files.config? libraries state named).bind fun config => (files.document? libraries state input).bind fun root =>
        (moduleText config grammar input root).toOption.bind some := by
    simp only [generated?, toOption_moduleText, bind, Option.map_bind, Option.bind_fun_some, Function.comp_def]
  rw [htext]
  refine ends_bind files state (reads_loadConfig files libraries state named) fun config => ?_
  refine ends_bind files state (reads_loadInput files libraries state input) fun root => ?_
  refine ends_bind files state ⟨_, rfl, rfl⟩ fun text => ?_
  exact ends_deliver files libraries state output text

/-! ### Runs -/

/-- No file is created, changed or removed. -/
def Untouched (files : FileSystem σ Place) (before after : σ) : Prop :=
  ∀ place, files.content? after place = files.content? before place

/-- The text goes to the output file, which is the only one that changes, or else it is printed. -/
def Delivered (files : FileSystem σ Place) (before : σ) (output : Option String) (text printed : String) (after : σ) :
    Prop :=
  match output with
  | none => printed = text ∧ files.Untouched before after
  | some path => printed = "" ∧ ∃ place, files.locate? before path = some place ∧
      files.content? after place = some text ∧
        ∀ other, other ≠ place → files.content? after other = files.content? before other

/-- A run that fails leaves every file as it is and prints nothing, and a run that succeeds delivers the module that is
generated from its input.  It succeeds whenever the module is generated, with whatever reports, and the output file can
be written. -/
theorem run_generate (files : FileSystem σ Place) (libraries : Libraries) (before : σ) {args : List String}
    {named grammar output : Option String} {input : String}
    (hargs : libraries.invocation args = .ok ⟨named, .generate grammar input output⟩) :
    let (outcome, after) := (run (files.host libraries) args).run before
    (outcome.status = 0 ∨ outcome.status = 1) ∧
      (outcome.status = 1 → outcome.printed = "" ∧ files.Untouched before after) ∧
      (outcome.status = 0 → ∃ generated, files.generated? libraries before named grammar input = some generated ∧
        files.Delivered before output generated.text outcome.printed after) ∧
      ∀ generated, files.generated? libraries before named grammar input = some generated →
        (outcome.status = 0 ↔ ∀ path ∈ output, (files.write? before path generated.text).isSome) := by
  have hends := ends_execute files libraries before named grammar input output
  have hinvocation :
      (files.host libraries).libraries.invocation args = .ok ⟨named, .generate grammar input output⟩ := hargs
  rw [run, hinvocation]
  dsimp only at hends ⊢
  rw [StateT.run_bind]
  generalize (StateT.run (ExceptT.run _) before) = ended at hends ⊢
  obtain ⟨result, after⟩ := ended
  change let (outcome, after) := (Outcome.ofResult result, after)
    _
  dsimp only at hends ⊢
  generalize htext : (files.generated? libraries before named grammar input).map Generated.text = text at hends
  cases hends with
  | failed cause =>
    have hnone : files.generated? libraries before named grammar input = none := Option.map_eq_none_iff.mp htext
    refine ⟨.inr rfl, fun _ => ⟨rfl, fun _ => rfl⟩, nofun, fun generated hgenerated => ?_⟩
    rw [hnone] at hgenerated
    cases hgenerated
  | printed text houtput =>
    subst houtput
    obtain ⟨generated, hgenerated, rfl⟩ := Option.map_eq_some_iff.mp htext
    refine ⟨.inl rfl, nofun, fun _ => ⟨generated, hgenerated, rfl, fun _ => rfl⟩, fun _ _ => ?_⟩
    exact ⟨fun _ => nofun, fun _ => rfl⟩
  | stored houtput hwrite =>
    subst houtput
    obtain ⟨generated, hgenerated, rfl⟩ := Option.map_eq_some_iff.mp htext
    refine ⟨.inl rfl, nofun, fun _ => ⟨generated, hgenerated, rfl, files.content?_of_write? hwrite⟩, ?_⟩
    intro other hother
    obtain rfl : generated = other := Option.some.inj (hgenerated.symm.trans hother)
    refine ⟨fun _ path hpath => ?_, fun _ => rfl⟩
    obtain rfl := Option.some.inj hpath
    rw [hwrite]
    rfl
  | unwritable cause houtput hwrite =>
    subst houtput
    obtain ⟨generated, hgenerated, rfl⟩ := Option.map_eq_some_iff.mp htext
    refine ⟨.inr rfl, fun _ => ⟨rfl, fun _ => rfl⟩, nofun, fun other hother => ?_⟩
    obtain rfl : generated = other := Option.some.inj (hgenerated.symm.trans hother)
    refine ⟨nofun, fun hwritten => ?_⟩
    have := hwritten _ rfl
    rw [hwrite] at this
    cases this

end FileSystem

/-! ### Workspaces -/

namespace Workspace

private theorem lookup_put (place : List String) (text : String) (files : List (List String × String)) :
    (put place text files).lookup place = some text := by
  induction files with
  | nil => simp [put]
  | cons file rest ih =>
    rw [put]
    split
    · simp
    · next h => rw [List.lookup_cons, beq_false_of_ne h, ih]

private theorem lookup_put_of_ne {other place : List String} (hne : other ≠ place) (text : String)
    (files : List (List String × String)) : (put place text files).lookup other = files.lookup other := by
  induction files with
  | nil => simp [put, hne]
  | cons file rest ih =>
    rw [put]
    split
    · next h => rw [List.lookup_cons, List.lookup_cons, ← h, beq_false_of_ne hne]
    · rw [List.lookup_cons, List.lookup_cons, ih]

private theorem lookup_of_write? {before after : Workspace} {path text : String}
    (h : before.write? path text = some after) :
    ∃ place, before.resolve? path = some place ∧ after.files.lookup place = some text ∧
      ∀ other, other ≠ place → after.files.lookup other = before.files.lookup other := by
  obtain ⟨place, hplace, hwritten⟩ := Option.bind_eq_some_iff.mp h
  split at hwritten
  · cases hwritten
    exact ⟨place, hplace, lookup_put place text _, fun other hne => lookup_put_of_ne hne text _⟩
  · cases hwritten

/-- A workspace as a file system. -/
def fileSystem : FileSystem Workspace (List String) where
  isFile workspace path := (workspace.read? path).isSome
  read? := read?
  standardInput? workspace := some workspace.standardInput
  write? := write?
  locate? := resolve?
  content? workspace place := workspace.files.lookup place
  content?_of_write? := lookup_of_write?

/-- The program does to a workspace what it does to the file system of the workspace. -/
theorem host_fileSystem : fileSystem.host .plain = host := by
  have hstore : (fileSystem.host .plain).store = host.store := by
    funext path text workspace
    refine (FileSystem.run_host_store fileSystem .plain workspace path text).trans ?_
    simp only [host, fileSystem, bind, StateT.bind, get, getThe, MonadStateOf.get, StateT.get, pure]
    cases workspace.write? path text <;> rfl
  exact congrArg (fun store => { host with store }) hstore

private theorem pathNames_configName : pathNames configName = [configName] := by
  have hsplit : configName.splitOn "/" = [configName] := by
    rw [String.splitOn, if_neg (by decide)]
    iterate 14
      rw [String.splitOnAux.eq_def]
      try rw [if_neg (by decide +kernel), if_neg (by decide +kernel)]
    rfl
  rw [pathNames, hsplit]
  rfl

private theorem pathNames_module : pathNames "api.py" = ["api.py"] := by
  have hsplit : "api.py".splitOn "/" = ["api.py"] := by
    rw [String.splitOn, if_neg (by decide)]
    iterate 7
      rw [String.splitOnAux.eq_def]
      try rw [if_neg (by decide +kernel), if_neg (by decide +kernel)]
    rfl
  rw [pathNames, hsplit]
  rfl

/-- A workspace with an earlier module, and an enumeration and an export on standard input. -/
def exporting : Workspace where
  files := [(["api.py"], "kept")]
  standardInput :=
    "\x7b\"kind\":\"SourceFile\",\"statements\":[\x7b\"kind\":\"EnumDeclaration\"," ++
    "\"name\":\x7b\"kind\":\"Identifier\",\"text\":\"E\"\x7d,\"members\":[\x7b\"name\":" ++
    "\x7b\"kind\":\"Identifier\",\"text\":\"A\"\x7d\x7d]\x7d,\x7b\"kind\":\"ExportDeclaration\"\x7d]\x7d"

/-- The module of the enumeration. -/
def exportedText : String := "from enum import Enum, auto\n\n\nclass E(Enum):\n    A = auto()\n"

private theorem generated?_exporting :
    ∃ generated, fileSystem.generated? .plain exporting none none "-" = some generated ∧
      generated.text = exportedText ∧ generated.diagnostics.length = 1 := by
  have hconfig : fileSystem.config? .plain exporting none = some {} := by
    have hread : exporting.read? configName = none := by
      rw [read?, resolve?, pathNames_configName]
      decide +kernel
    change (if (exporting.read? configName).isSome then (exporting.read? configName).bind Config.parse? else some {}) =
      _
    rw [hread]
    rfl
  have hgenerated : (fileSystem.generated? .plain exporting none none "-").map
      (fun generated => (generated.text, generated.diagnostics.length)) = some (exportedText, 1) := by
    rw [FileSystem.generated?, hconfig]
    decide +kernel
  obtain ⟨generated, hsome, hboth⟩ := Option.map_eq_some_iff.mp hgenerated
  exact ⟨generated, hsome, congrArg Prod.fst hboth, congrArg Prod.snd hboth⟩

/-- The module takes the place of the earlier one, although the export is reported. -/
theorem run_generate_exporting :
    parse ["translate", "-", "-o", "api.py"] = .ok ⟨none, .generate none "-" (some "api.py")⟩ ∧
      let (outcome, after) := (run host ["translate", "-", "-o", "api.py"]).run exporting
      outcome.status = 0 ∧ outcome.printed = "" ∧ after.files.lookup ["api.py"] = some exportedText := by
  have hargs : parse ["translate", "-", "-o", "api.py"] = .ok ⟨none, .generate none "-" (some "api.py")⟩ := rfl
  refine ⟨hargs, ?_⟩
  have hrun := FileSystem.run_generate fileSystem .plain exporting hargs
  obtain ⟨generated, hgenerated, htext, -⟩ := generated?_exporting
  have hplace : exporting.resolve? "api.py" = some ["api.py"] := by
    rw [resolve?, pathNames_module]
    decide +kernel
  have hwritten : (exporting.write? "api.py" generated.text).isSome := by
    rw [write?, hplace]
    rfl
  rw [← host_fileSystem]
  generalize (run (fileSystem.host .plain) _).run exporting = ended at hrun ⊢
  obtain ⟨outcome, after⟩ := ended
  obtain ⟨-, -, hdone, hsucceeds⟩ := hrun
  have hstatus : outcome.status = 0 := (hsucceeds generated hgenerated).mpr fun path hpath => by
    cases hpath
    exact hwritten
  obtain ⟨delivered, hdelivered, hprinted, place, hlocated, hcontent, -⟩ := hdone hstatus
  obtain rfl : delivered = generated := Option.some.inj (hdelivered.symm.trans hgenerated)
  obtain rfl : place = ["api.py"] := Option.some.inj (hlocated.symm.trans hplace)
  exact ⟨hstatus, hprinted, htext ▸ hcontent⟩

end Workspace

end StubGen.CommandLine
