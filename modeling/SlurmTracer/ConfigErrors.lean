import SlurmTracer.Core.ConfigFile

/-!
Bad config files. Whatever the file holds, `load_config_file` is to return a
config or an error text, and a daemon that reloads it to go on. The second `try`
sees to everything a value can be wrong in; the first catches one of the two
exceptions `parse` throws, and a number too large for a double brings the other
(`handled_iff`).
-/
namespace SlurmTracer.ConfigErrors
open SlurmTracer.Core Lib ConfigFile

variable (lib : JsonLibrary) (file : Option Bytes)

/-- The reload takes the file. -/
def Accepts (d : Daemon) : Prop :=
  d.configPath ≠ [] ∧ ∃ next, loadConfigFile lib d.configPath file = .ok (.ok next) ∧ diffForReload d.config next ≠ none

/-- No exception escapes, at start-up or in a reload, and a file that is not
taken says why and changes nothing. -/
structure Handled : Prop where
  returns : ∀ path, ∃ loaded, loadConfigFile lib path file = .ok loaded ∧ ∀ error, loaded = .error error → error ≠ []
  reloads : ∀ d o, ∃ d', Daemon.reloadFile lib file d o = .ok d' ∧ (¬ Accepts lib file d → d' = d)

variable {lib file}

/-- Every error text names the file. -/
theorem load_root_error {path error : Bytes} {root : Json} (failed : loadRoot lib path root = .error error) :
    ∃ reason, error = path ++ ascii ": " ++ reason := by
  unfold loadRoot at failed
  split at failed
  · split at failed
    · cases failed
      exact ⟨_, rfl⟩
    · cases failed
      exact ⟨_, rfl⟩
    · cases failed
  · cases failed
    exact ⟨ascii "top level must be an object", by rw [List.append_assoc]; rfl⟩

private theorem named_not_empty (path reason : Bytes) : path ++ ascii ": " ++ reason ≠ [] := by
  have some' : ascii ": " ≠ [] := by decide
  simp [some']

/-- Unless `parse` meets a number it cannot hold, `load_config_file` returns,
with a reason if it has no config. -/
theorem load_returns
    (holds : ∀ content what, file = some content → lib.parse content ≠ .error (.numberOverflow what))
    (path : Bytes) :
    ∃ loaded, loadConfigFile lib path file = .ok loaded ∧ ∀ error, loaded = .error error → error ≠ [] := by
  cases file with
  | none =>
    have some' : ascii "cannot open " ≠ [] := by decide
    refine ⟨_, rfl, fun error failed => ?_⟩
    cases failed
    simp [some']
  | some content =>
    cases parsed : lib.parse content with
    | error failure =>
      cases failure with
      | syntaxError what =>
        refine ⟨.error (path ++ ascii ": " ++ what), ?_, fun error failed => ?_⟩
        · simp [loadConfigFile, parseRoot, parsed, ParseFailure.exception]
        · cases failed
          exact named_not_empty path what
      | numberOverflow what => exact absurd parsed (holds content what rfl)
    | ok root =>
      refine ⟨loadRoot lib path root, by simp [loadConfigFile, parseRoot, parsed], fun error failed => ?_⟩
      obtain ⟨reason, rfl⟩ := load_root_error failed
      exact named_not_empty path reason

/-- A reload of a file that is not taken leaves the daemon as it was. -/
theorem reload_rejected {d : Daemon} {loaded : Except Bytes Config} (o : Outcomes)
    (read : loadConfigFile lib d.configPath file = .ok loaded) (refused : ¬ Accepts lib file d)
    (hasPath : d.configPath ≠ []) : d.reloadConfig o loaded.toOption = d := by
  cases loaded with
  | error error => simp [Daemon.reloadConfig, hasPath, Except.toOption]
  | ok next =>
    have unfit : diffForReload d.config next = none := by
      by_contra fits
      exact refused ⟨hasPath, next, read, fits⟩
    simp [Daemon.reloadConfig, hasPath, Except.toOption, unfit]

/-- A file is dealt with, whatever it holds, exactly if `parse` does not meet a
number literal beyond the doubles in it. -/
theorem handled_iff (lib : JsonLibrary) (file : Option Bytes) :
    Handled lib file ↔ ∀ content what, file = some content → lib.parse content ≠ .error (.numberOverflow what) := by
  constructor
  · rintro handled content what rfl overflows
    obtain ⟨loaded, read, -⟩ := handled.returns []
    simp [loadConfigFile, parseRoot, overflows, ParseFailure.exception] at read
  · intro holds
    refine ⟨load_returns holds, fun d o => ?_⟩
    by_cases noPath : d.configPath = []
    · exact ⟨d, by simp [Daemon.reloadFile, noPath], fun _ => rfl⟩
    · obtain ⟨loaded, read, -⟩ := load_returns holds d.configPath
      refine ⟨d.reloadConfig o loaded.toOption, ?_, fun refused => reload_rejected o read refused noPath⟩
      simp [Daemon.reloadFile, noPath, read, Except.map]

/-! ### A batch size of `1e999` -/

def hugeBatchSize : Bytes := ascii "\x7b\"node\":\x7b\"batch_size\":1e999\x7d\x7d"

/-- A library that knows this one text. -/
def oneText : JsonLibrary where
  parse := fun content =>
    if content = hugeBatchSize then
      .error (.numberOverflow (ascii "[json.exception.out_of_range.406] number overflow parsing '1e999'"))
    else .error (.syntaxError (ascii "[json.exception.parse_error.101] parse error"))
  dump := fun _ => .ok []
  notString := fun _ => ascii "[json.exception.type_error.302] type must be string"

/-- The exception leaves `load_config_file`. -/
theorem huge_batch_size_escapes : ¬ ∀ (lib : JsonLibrary) (file : Option Bytes), Handled lib file := by
  intro always
  obtain ⟨loaded, read, -⟩ := (always oneText (some hugeBatchSize)).returns []
  simp [loadConfigFile, parseRoot, oneText, ParseFailure.exception] at read

end SlurmTracer.ConfigErrors
