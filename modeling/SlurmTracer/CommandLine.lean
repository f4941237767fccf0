import SlurmTracer.Core.Main
import SlurmTracer.ConfigInForce
import SlurmTracer.StartIsolation

/-!
From the command line to the main loop. Each file that is named has to load, the
last one counts, and it is the one that every reload reads again. Without one
there is no `plugin_dir` and no start, so a daemon that runs always has a file to
reload (`main_in_force`).
-/
namespace SlurmTracer.CommandLine
open SlurmTracer.Core Lib Core.Daemon Core.ConfigFile DaemonRuns SampleDispatch ConfigInForce StartIsolation
open LoopSignals (reload_turn)

variable (lib : JsonLibrary) (files : Nat → Bytes → FileRead)

/-- From `argv[i]` on, `--config` and a file that loads, over and over: these
files, with what they held. -/
inductive Given : Nat → List Bytes → List (Bytes × Config) → Prop where
  | nil (i : Nat) : Given i [] []
  | cons {i : Nat} {path : Bytes} {config : Config} {args : List Bytes} {given : List (Bytes × Config)}
      (loads : loadConfigPath lib path (files (i + 1) path) = .ok (.ok config)) (rest : Given (i + 2) args given) :
      Given i (ascii "--config" :: path :: args) ((path, config) :: given)

/-- What begins at `argv[i]` is none of the options, or a file that does not
load. -/
inductive Refuses (i : Nat) : List Bytes → Bytes → Prop where
  | missing : Refuses i [ascii "--config"] (ascii "--config: missing argument")
  | unloadable {path error : Bytes} {args : List Bytes}
      (refused : loadConfigPath lib path (files (i + 1) path) = .ok (.error error)) :
      Refuses i (ascii "--config" :: path :: args) (ascii "--config: " ++ error)
  | unknown {arg : Bytes} {args : List Bytes} (noFile : arg ≠ ascii "--config")
      (noHelp : arg ≠ ascii "-h" ∧ arg ≠ ascii "--help") : Refuses i (arg :: args) (ascii "unknown option: " ++ arg)

/-- The options ask for help, before anything is wrong with them. -/
def HelpAsked (args : List Bytes) : Prop :=
  ∃ before help after given, args = before ++ help :: after ∧ Given lib files 1 before given ∧
    (help = ascii "-h" ∨ help = ascii "--help")

/-- Something is wrong with the options, before they ask for help. -/
def Wrong (args : List Bytes) (error : Bytes) : Prop :=
  ∃ before rest given, args = before ++ rest ∧ Given lib files 1 before given ∧
    Refuses lib files (1 + before.length) rest error

/-- Reading one of the files ends in an exception that `load_config_file` does
not expect: the stream's, or the library's for a number that is no finite
double. -/
def Throws (args : List Bytes) : Prop :=
  ∃ before path after given, args = before ++ ascii "--config" :: path :: after ∧ Given lib files 1 before given ∧
    (files (1 + before.length + 1) path = .unreadable ∨
      ∃ content what, files (1 + before.length + 1) path = .holds content ∧
        lib.parse content = .error (.numberOverflow what))

variable {lib : JsonLibrary} {files : Nat → Bytes → FileRead}

/-! ### What leaves `load_config_file` -/

theorem load_throws_iff {path : Bytes} {read : FileRead} :
    (∃ e, loadConfigPath lib path read = .error e) ↔
      read = .unreadable ∨ ∃ content what, read = .holds content ∧ lib.parse content = .error (.numberOverflow what) := by
  cases read with
  | absent => simp [loadConfigPath, loadConfigFile, Except.mapError]
  | unreadable => simp [loadConfigPath]
  | holds content =>
    cases parsed : lib.parse content with
    | ok root => simp [loadConfigPath, loadConfigFile, parseRoot, parsed, Except.mapError]
    | error failure =>
      cases failure <;>
        simp [loadConfigPath, loadConfigFile, parseRoot, parsed, ParseFailure.exception, Except.mapError]

/-! ### The loop over the options -/

theorem help_is_no_file : ascii "-h" ≠ ascii "--config" ∧ ascii "--help" ≠ ascii "--config" := by decide

/-- Files that load leave the rest to do, with the last of them in hand. -/
theorem parse_given {i : Nat} {before : List Bytes} {given : List (Bytes × Config)} (all : Given lib files i before given)
    (rest : List Bytes) (config : Config) (configPath : Bytes) :
    parseArgs lib files i (before ++ rest) config configPath =
      parseArgs lib files (i + before.length) rest (given.getLastD (configPath, config)).2
        (given.getLastD (configPath, config)).1 := by
  induction all generalizing config configPath with
  | nil i => rfl
  | @cons i path loaded args given loads later ih =>
    have further : i + (ascii "--config" :: path :: args).length = i + 2 + args.length := by
      simp only [List.length_cons]
      omega
    rw [List.cons_append, List.cons_append, parseArgs, if_pos rfl, List.getLastD_cons, further]
    simp only [loads]
    exact ih loaded path

/-- How the reading of the options ends at `argv[i]`, with these in hand. -/
inductive Ends (lib : JsonLibrary) (files : Nat → Bytes → FileRead) (i : Nat) (config : Config) (configPath : Bytes) :
    List Bytes → ParsedArgs → Prop where
  | done : Ends lib files i config configPath [] (.accepted config configPath)
  | help {help : Bytes} {after : List Bytes} (asked : help = ascii "-h" ∨ help = ascii "--help") :
      Ends lib files i config configPath (help :: after) .exits
  | refuses {rest : List Bytes} {error : Bytes} (wrong : Refuses lib files i rest error) :
      Ends lib files i config configPath rest (.refused error)
  | throws {path : Bytes} {args : List Bytes} {e : LoadException}
      (thrown : loadConfigPath lib path (files (i + 1) path) = .error e) :
      Ends lib files i config configPath (ascii "--config" :: path :: args) (.throws e)

theorem parse_ends {i : Nat} {config : Config} {configPath : Bytes} {rest : List Bytes} {r : ParsedArgs}
    (ends : Ends lib files i config configPath rest r) : parseArgs lib files i rest config configPath = r := by
  cases ends with
  | done => rfl
  | @help help after asked =>
    have noFile : help ≠ ascii "--config" := by
      rcases asked with rfl | rfl
      · exact help_is_no_file.1
      · exact help_is_no_file.2
    rw [parseArgs.eq_def]
    simp only [if_neg noFile, if_pos asked]
  | refuses wrong =>
    cases wrong with
    | missing => rw [parseArgs, if_pos rfl]
    | unloadable refused =>
      rw [parseArgs, if_pos rfl]
      simp only [refused]
    | unknown noFile noHelp =>
      rw [parseArgs.eq_def]
      simp only [if_neg noFile, if_neg (not_or.mpr noHelp)]
  | throws thrown =>
    rw [parseArgs, if_pos rfl]
    simp only [thrown]

/-- Files that load, and then the end of it: `parse_args` from any point. -/
theorem parse_iff {i : Nat} {args : List Bytes} {config : Config} {configPath : Bytes} {r : ParsedArgs} :
    parseArgs lib files i args config configPath = r ↔
      ∃ before rest given, args = before ++ rest ∧ Given lib files i before given ∧
        Ends lib files (i + before.length) (given.getLastD (configPath, config)).2
          (given.getLastD (configPath, config)).1 rest r := by
  constructor
  · rintro rfl
    fun_induction parseArgs lib files i args config configPath with
    | case1 i config configPath => exact ⟨[], [], [], rfl, .nil i, .done⟩
    | case2 i => exact ⟨[], _, [], rfl, .nil i, .refuses .missing⟩
    | case3 i config configPath path rest e thrown => exact ⟨[], _, [], rfl, .nil i, .throws thrown⟩
    | case4 i config configPath path rest error refused => exact ⟨[], _, [], rfl, .nil i, .refuses (.unloadable refused)⟩
    | case5 i config configPath path rest loaded loads ih =>
      obtain ⟨before, left, given, rfl, all, ends⟩ := ih
      refine ⟨_ :: path :: before, left, (path, loaded) :: given, rfl, .cons loads all, ?_⟩
      have further : i + (ascii "--config" :: path :: before).length = i + 2 + before.length := by
        simp only [List.length_cons]
        omega
      rwa [List.getLastD_cons, further]
    | case6 i arg rest config configPath noFile asked => exact ⟨[], _, [], rfl, .nil i, .help asked⟩
    | case7 i arg rest config configPath noFile noHelp =>
      exact ⟨[], _, [], rfl, .nil i, .refuses (.unknown noFile (not_or.mp noHelp))⟩
  · rintro ⟨before, rest, given, rfl, all, ends⟩
    rw [parse_given all, parse_ends ends]

theorem helped_iff {args : List Bytes} : parseArgs lib files 1 args {} [] = .exits ↔ HelpAsked lib files args := by
  rw [parse_iff]
  constructor
  · rintro ⟨before, rest, given, rfl, all, ends⟩
    cases ends with
    | @help help after asked => exact ⟨before, help, after, given, rfl, all, asked⟩
  · rintro ⟨before, help, after, given, rfl, all, asked⟩
    exact ⟨before, _, given, rfl, all, .help asked⟩

theorem refused_iff {args : List Bytes} {error : Bytes} :
    parseArgs lib files 1 args {} [] = .refused error ↔ Wrong lib files args error := by
  rw [parse_iff]
  constructor
  · rintro ⟨before, rest, given, rfl, all, ends⟩
    cases ends with
    | refuses wrong => exact ⟨before, rest, given, rfl, all, wrong⟩
  · rintro ⟨before, rest, given, rfl, all, wrong⟩
    exact ⟨before, rest, given, rfl, all, .refuses wrong⟩

theorem throws_iff {args : List Bytes} :
    (∃ e, parseArgs lib files 1 args {} [] = .throws e) ↔ Throws lib files args := by
  simp only [parse_iff]
  constructor
  · rintro ⟨e, before, rest, given, rfl, all, ends⟩
    cases ends with
    | @throws path after e thrown => exact ⟨before, path, after, given, rfl, all, load_throws_iff.mp ⟨e, thrown⟩⟩
  · rintro ⟨before, path, after, given, rfl, all, unread⟩
    obtain ⟨e, thrown⟩ := load_throws_iff.mpr unread
    exact ⟨e, before, _, given, rfl, all, .throws thrown⟩

theorem accepted_iff {args : List Bytes} {config : Config} {configPath : Bytes} :
    parseArgs lib files 1 args {} [] = .accepted config configPath ↔
      ∃ given, Given lib files 1 args given ∧ given.getLastD ([], {}) = (configPath, config) := by
  rw [parse_iff]
  constructor
  · rintro ⟨before, rest, given, rfl, all, ends⟩
    generalize last : given.getLastD ([], {}) = chosen at ends
    cases ends
    rw [List.append_nil]
    exact ⟨given, all, last⟩
  · rintro ⟨given, all, last⟩
    refine ⟨args, [], given, (List.append_nil _).symm, all, ?_⟩
    rw [last]
    exact .done

/-! ### The process -/

/-- What `main` comes to before the main loop, by its arguments. -/
structure Launches (lib : JsonLibrary) (files : Nat → Bytes → FileRead) (args : List Bytes) (env : StartOutcomes)
    (flags : Flags) : Prop where
  helped : main lib files args env flags = .exited 0 ↔ HelpAsked lib files args
  failed : main lib files args env flags = .exited 1 ↔ (∃ error, Wrong lib files args error) ∨
    ∃ given configPath config, Given lib files 1 args given ∧ given.getLastD ([], {}) = (configPath, config) ∧
      ¬ ReserveThrows config env ∧ (start (.new config configPath) env).1 = false
  /-- An exception leaves the reading of a file, or the pipeline's
  constructor. -/
  terminated : main lib files args env flags = .terminated ↔ Throws lib files args ∨
    ∃ given configPath config, Given lib files 1 args given ∧ given.getLastD ([], {}) = (configPath, config) ∧
      ReserveThrows config env
  looping : ∀ m, main lib files args env flags = .looping m ↔
    ∃ given configPath config, Given lib files 1 args given ∧ given.getLastD ([], {}) = (configPath, config) ∧
      ¬ ReserveThrows config env ∧ (start (.new config configPath) env).1 = true ∧
      m = .run (start (.new config configPath) env).2 flags

/-- What becomes of a configuration that `start` is called with. -/
inductive Started (lib : JsonLibrary) (files : Nat → Bytes → FileRead) (args : List Bytes) (env : StartOutcomes)
    (flags : Flags) (config : Config) (configPath : Bytes) : Prop where
  | threw (thrown : ReserveThrows config env) (is : main lib files args env flags = .terminated)
  | refused (fits : ¬ ReserveThrows config env) (down : (start (.new config configPath) env).1 = false)
      (is : main lib files args env flags = .exited 1)
  | up (fits : ¬ ReserveThrows config env) (up : (start (.new config configPath) env).1 = true)
      (is : main lib files args env flags = .looping (.run (start (.new config configPath) env).2 flags))

theorem main_accepted {args : List Bytes} {config : Config} {configPath : Bytes} (env : StartOutcomes) (flags : Flags)
    (parsed : parseArgs lib files 1 args {} [] = .accepted config configPath) :
    Started lib files args env flags config configPath := by
  have verdict := @start_throws_iff config configPath env
  cases came : startOrThrow (.new config configPath) env with
  | none => exact .threw (verdict.mp came) (by rw [main, parsed]; simp only [came])
  | some started =>
    have fits : ¬ ReserveThrows config env := fun thrown => by simp [came] at verdict; exact verdict thrown
    have is := start_or_throw_some came
    obtain ⟨_ | _, d⟩ := started
    · exact .refused fits (by rw [← is]) (by rw [main, parsed]; simp only [came])
    · exact .up fits (by rw [← is]) (by rw [main, parsed, ← is]; simp only [came])

theorem main_launches (lib : JsonLibrary) (files : Nat → Bytes → FileRead) (args : List Bytes) (env : StartOutcomes)
    (flags : Flags) : Launches lib files args env flags where
  helped := by
    rw [← helped_iff]
    cases parsed : parseArgs lib files 1 args {} [] with
    | accepted config configPath =>
      rcases main_accepted env flags parsed with ⟨-, is⟩ | ⟨-, -, is⟩ | ⟨-, -, is⟩ <;> simp [is]
    | _ => simp [main, parsed]
  failed := by
    constructor
    · intro failed
      cases parsed : parseArgs lib files 1 args {} [] with
      | accepted config configPath =>
        obtain ⟨given, all, last⟩ := accepted_iff.mp parsed
        rcases main_accepted env flags parsed with ⟨-, is⟩ | ⟨fits, down, -⟩ | ⟨-, -, is⟩
        · cases failed.symm.trans is
        · exact .inr ⟨given, configPath, config, all, last, fits, down⟩
        · cases failed.symm.trans is
      | refused error => exact .inl ⟨error, refused_iff.mp parsed⟩
      | _ => simp [main, parsed] at failed
    · rintro (⟨error, wrong⟩ | ⟨given, configPath, config, all, last, fits, down⟩)
      · rw [main, refused_iff.mpr wrong]
      · rcases main_accepted env flags (accepted_iff.mpr ⟨given, all, last⟩) with
          ⟨thrown, -⟩ | ⟨-, -, is⟩ | ⟨-, up, -⟩
        · exact absurd thrown fits
        · exact is
        · cases down.symm.trans up
  terminated := by
    rw [← throws_iff]
    constructor
    · intro died
      cases parsed : parseArgs lib files 1 args {} [] with
      | accepted config configPath =>
        obtain ⟨given, all, last⟩ := accepted_iff.mp parsed
        rcases main_accepted env flags parsed with ⟨thrown, -⟩ | ⟨-, -, is⟩ | ⟨-, -, is⟩
        · exact .inr ⟨given, configPath, config, all, last, thrown⟩
        · cases died.symm.trans is
        · cases died.symm.trans is
      | throws e => exact .inl ⟨e, rfl⟩
      | _ => simp [main, parsed] at died
    · rintro (⟨e, thrown⟩ | ⟨given, configPath, config, all, last, thrown⟩)
      · rw [main, thrown]
      · rcases main_accepted env flags (accepted_iff.mpr ⟨given, all, last⟩) with ⟨-, is⟩ | ⟨fits, -⟩ | ⟨fits, -⟩
        · exact is
        · exact absurd thrown fits
        · exact absurd thrown fits
  looping := by
    intro m
    constructor
    · intro launched
      cases parsed : parseArgs lib files 1 args {} [] with
      | accepted config configPath =>
        obtain ⟨given, all, last⟩ := accepted_iff.mp parsed
        rcases main_accepted env flags parsed with ⟨-, is⟩ | ⟨-, -, is⟩ | ⟨fits, up, is⟩
        · cases launched.symm.trans is
        · cases launched.symm.trans is
        · exact ⟨given, configPath, config, all, last, fits, up, Process.looping.inj (launched.symm.trans is)⟩
      | _ => simp [main, parsed] at launched
    · rintro ⟨given, configPath, config, all, last, fits, up, rfl⟩
      rcases main_accepted env flags (accepted_iff.mpr ⟨given, all, last⟩) with
        ⟨thrown, -⟩ | ⟨-, down, -⟩ | ⟨-, -, is⟩
      · exact absurd thrown fits
      · cases down.symm.trans up
      · exact is

theorem Given.loads {i : Nat} {args : List Bytes} {given : List (Bytes × Config)} (all : Given lib files i args given) :
    ∀ x ∈ given, ∃ j, loadConfigPath lib x.1 (files j x.1) = .ok (.ok x.2) := by
  induction all with
  | nil i => nofun
  | @cons i path config args given loads rest ih => exact List.forall_mem_cons.mpr ⟨⟨i + 1, loads⟩, ih⟩

/-- However the process was called: if it comes to run, some file was named, the last of them is the one that reloads
read, and the daemon goes by what it held, or by the last file read since that could take over. -/
theorem main_in_force (lib : JsonLibrary) (files : Nat → Bytes → FileRead) (nameless : ∀ i, files i [] = .absent)
    (args : List Bytes) (env : StartOutcomes) (flags : Flags) (begun : MainLoop)
    (launched : main lib files args env flags = .looping begun) (plugins : Plugins) (actions : List LoopStep)
    (m : MainLoop) (ran : actions.foldlM (MainLoop.step plugins) begun = some m) :
    ∃ given configPath config, Given lib files 1 args given ∧ given.getLast? = some (configPath, config) ∧
      configPath ≠ [] ∧ m.daemon.configPath = configPath ∧ GoesBy (inForce config (filesRead actions)) m.daemon := by
  cases parsed : parseArgs lib files 1 args {} [] with
  | accepted config configPath =>
    obtain ⟨given, all, last⟩ := accepted_iff.mp parsed
    rcases main_accepted env flags parsed with ⟨-, is⟩ | ⟨-, -, is⟩ | ⟨-, up, is⟩
    · cases launched.symm.trans is
    · cases launched.symm.trans is
    · cases launched.symm.trans is
      obtain ⟨resolver, dir, -⟩ := start_true up
      -- the default configuration names no `plugin_dir`
      have named : given.getLast? = some (configPath, config) := by
        cases given with
        | nil =>
          cases last
          exact absurd rfl dir
        | cons first given => rw [List.getLast?_cons, ← List.getLastD_eq_getLast?, ← List.getLastD_cons, last]
      have filled : configPath ≠ [] := by
        rintro rfl
        obtain ⟨j, loads⟩ := all.loads _ (List.mem_of_getLast? named)
        simp [loadConfigPath, loadConfigFile, nameless, Except.mapError] at loads
      have committed := committed_run actions (by exact committed_start up) ran
      rw [List.nil_append] at committed
      have config' := committed.config
      rw [if_neg filled] at config'
      have goes := goes_by (running_run actions (by exact running_start up) ran) config'
        (committed.pluginDir.trans (in_force_dir config _).symm)
      exact ⟨given, configPath, config, all, named, filled, committed.configPath, goes⟩
  | _ => simp [main, parsed] at launched

/-! ### Two files and a reload -/

def emptyObject : Bytes := ascii "\x7b\x7d"

/-- One probe, and its records go nowhere. -/
def oneProbe : Bytes :=
  ascii "\x7b\"node\":\x7b\"plugin_dir\":\"p\"\x7d,\"probes\":\x7b\"oom\":\x7b\x7d\x7d,\"sinks\":\x7b\"null\":\x7b\x7d\x7d\x7d"

def oneProbeRoot : Json :=
  .object [(ascii "node", .object [(ascii "plugin_dir", .string (ascii "p"))]),
    (ascii "probes", .object [(ascii "oom", .object [])]), (ascii "sinks", .object [(ascii "null", .object [])])]

/-- What the JSON library does with these texts. -/
def twoTexts : JsonLibrary where
  parse := fun content =>
    if content = emptyObject then .ok (.object [])
    else if content = oneProbe then .ok oneProbeRoot
    else .error (.syntaxError (ascii "[json.exception.parse_error.101] parse error"))
  dump := fun _ => .ok []
  notString := fun _ => ascii "[json.exception.type_error.302] type must be string"

/-- The only files there are. -/
def twoFiles (_ : Nat) (path : Bytes) : FileRead :=
  if path = ascii "e" then .holds emptyObject else if path = ascii "f" then .holds oneProbe else .absent

def oneProbeConfig : Config := (loadRoot twoTexts (ascii "f") oneProbeRoot).toOption.getD {}

/-- What the second file holds by the time of the reload. -/
def anotherProbe : Config :=
  { oneProbeConfig with probes := oneProbeConfig.probes.insert (ascii "exec") (ComponentConfig.mk ∅) }

def bothNamed : List Bytes := [ascii "--config", ascii "e", ascii "--config", ascii "f"]

private theorem both_given :
    Given twoTexts twoFiles 1 bothNamed [(ascii "e", {}), (ascii "f", oneProbeConfig)] := by
  have readEmpty : twoTexts.parse emptyObject = .ok (.object []) := by simp [twoTexts]
  have readOne : twoTexts.parse oneProbe = .ok oneProbeRoot := by
    have other : oneProbe ≠ emptyObject := by decide
    simp [twoTexts, other]
  have loads : (loadRoot twoTexts (ascii "f") oneProbeRoot).isOk = true := by decide +kernel
  have loaded : loadRoot twoTexts (ascii "f") oneProbeRoot = .ok oneProbeConfig := by
    rw [oneProbeConfig]
    cases result : loadRoot twoTexts (ascii "f") oneProbeRoot with
    | error e => simp [result, Except.isOk, Except.toBool] at loads
    | ok config => rfl
  have empty : twoFiles 2 (ascii "e") = .holds emptyObject := if_pos rfl
  have one : twoFiles 4 (ascii "f") = .holds oneProbe := by
    have other : ascii "f" ≠ ascii "e" := by decide
    rw [twoFiles, if_neg other, if_pos rfl]
  refine .cons ?_ (.cons ?_ (.nil 5))
  · rw [empty]
    simp only [loadConfigPath, loadConfigFile, parseRoot, readEmpty, Except.mapError]
    rfl
  · rw [one]
    simp [loadConfigPath, loadConfigFile, parseRoot, readOne, loaded, Except.mapError]

/-- The second file counts, and what it holds when it is read again. -/
theorem main_in_force_two_files :
    ∃ given configPath config, Given twoTexts twoFiles 1 bothNamed given ∧
      given.getLast? = some (configPath, config) ∧ configPath ≠ [] ∧
      (((start (.new oneProbeConfig (ascii "f")) allUp).2.tick 0 0).reloadConfig allSucceed (some anotherProbe)).configPath =
        configPath ∧
      GoesBy (inForce config [some anotherProbe])
        (((start (.new oneProbeConfig (ascii "f")) allUp).2.tick 0 0).reloadConfig allSucceed (some anotherProbe)) := by
  have launched : main twoTexts twoFiles bothNamed allUp {} =
      .looping (.run (start (.new oneProbeConfig (ascii "f")) allUp).2 {}) := by
    have verdict : (start (.new oneProbeConfig (ascii "f")) allUp).1 = true := by decide +kernel
    rcases main_accepted allUp {} (accepted_iff.mpr ⟨_, both_given, rfl⟩) with
      ⟨⟨-, -, -, full⟩, -⟩ | ⟨-, down, -⟩ | ⟨-, -, is⟩
    · exact absurd full (by decide +kernel)
    · cases down.symm.trans verdict
    · exact is
  exact main_in_force twoTexts twoFiles (fun _ => rfl) _ allUp {} _ launched (fun _ _ => none) _ _
    (reload_turn _ _ allSucceed (some anotherProbe))

end SlurmTracer.CommandLine
