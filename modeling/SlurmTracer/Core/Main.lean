import SlurmTracer.Core.ConfigFile
import SlurmTracer.Core.MainLoop

/-! `main.cpp`: the options, and the way from them into the main loop. -/
namespace SlurmTracer.Core
open Lib ConfigFile

/-- What comes of `parse_args`. -/
inductive ParsedArgs where
  | accepted (config : Config) (configPath : Bytes)
  /-- It returned false, with this for the log. -/
  | refused (error : Bytes)
  /-- `std::exit(EXIT_SUCCESS)`. -/
  | exits
  | throws (e : LoadException)

/-- `parse_args` from `argv[i]` on. `files i` is what becomes of a path that is
opened when `argv[i]` is read. -/
def parseArgs (lib : JsonLibrary) (files : Nat → Bytes → FileRead) :
    Nat → List Bytes → Config → Bytes → ParsedArgs
  | _, [], config, configPath => .accepted config configPath
  | i, arg :: rest, _, _ =>
    if arg = ascii "--config" then
      match rest with
      | [] => .refused (ascii "--config: missing argument")
      | path :: rest =>
        match loadConfigPath lib path (files (i + 1) path) with
        | .error e => .throws e
        | .ok (.error error) => .refused (ascii "--config: " ++ error)
        | .ok (.ok loaded) => parseArgs lib files (i + 2) rest loaded path
    else if arg = ascii "-h" ∨ arg = ascii "--help" then .exits
    else .refused (ascii "unknown option: " ++ arg)

inductive Process where
  | exited (status : Nat)
  /-- An exception has left `main`. -/
  | terminated
  | looping (m : MainLoop)

/-- `main` up to the main loop, less `argv[0]`. `flags` is what signals have
come in since their handlers were installed. -/
def main (lib : JsonLibrary) (files : Nat → Bytes → FileRead) (args : List Bytes) (env : StartOutcomes)
    (flags : Flags) : Process :=
  match parseArgs lib files 1 args {} [] with
  | .refused _ => .exited 1
  | .exits => .exited 0
  | .throws _ => .terminated
  | .accepted config configPath =>
    match Daemon.startOrThrow (.new config configPath) env with
    | none => .terminated
    | some (false, _) => .exited 1
    | some (true, daemon) => .looping (.run daemon flags)

end SlurmTracer.Core
