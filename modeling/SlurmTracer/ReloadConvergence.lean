import SlurmTracer.DaemonRuns

/-!
Whether a reload moves the running set to the file. The diff is taken between
two files, so it can only bring up what the files differ in: the reload ends at
the new file exactly when whatever both files share was really running before
it (`reload_follows_iff`).
-/
namespace SlurmTracer.ReloadConvergence
open SlurmTracer.Core Lib Core.Daemon DaemonProofs DaemonRuns Lib.Reconcile

/-- The running set is the file's: the same ids, each once and from the plugin
`plugin_of` gives. -/
structure Follows (d : Daemon) (next : Config) : Prop where
  sinks : ∀ id path,
    (id, path) ∈ runningSinks d ↔ files d.loader.pluginDir (ascii "sink") next.sinks id = some path
  probes : ∀ id path,
    (id, path) ∈ runningProbes d ↔ files d.loader.pluginDir (ascii "probe") next.probes id = some path
  uniqueSinks : (d.sinks.map LoadedSink.id).Nodup
  uniqueProbes : (d.probes.map LoadedProbe.id).Nodup

/-- Whatever the reload could attempt for an id of the file would succeed. -/
structure Willing (o : Outcomes) (d : Daemon) (next : Config) : Prop where
  sinks : ∀ id config, next.sinks[id]? = some config → ∃ kind, o.sink id = .built kind
  probes : ∀ id config, next.probes[id]? = some config →
    (∃ offersRing, o.probe id = .built offersRing) ∧ Passes (o.stages id)
  rearms : ∀ removed, ∀ p ∈ d.probes, (∃ config, next.probes[p.id]? = some config) →
    o.rearm removed p.ptr = true

/-- Every instance the committed configuration and the file share, by id and
plugin, is running. -/
structure SharedRuns (d : Daemon) (next : Config) : Prop where
  sinks : ∀ id path, files d.loader.pluginDir (ascii "sink") d.config.sinks id = some path →
    files d.loader.pluginDir (ascii "sink") next.sinks id = some path → (id, path) ∈ runningSinks d
  probes : ∀ id path, files d.loader.pluginDir (ascii "probe") d.config.probes id = some path →
    files d.loader.pluginDir (ascii "probe") next.probes id = some path → (id, path) ∈ runningProbes d

private theorem not_removed {dir kind : Bytes} {current next : Components} {id path : Bytes}
    (held : files dir kind current id = some path) (asked : files dir kind next id = some path) :
    id ∉ diffLoop current next := by
  rw [(reload_diff dir kind current next).mem_removed]
  exact fun differs => differs.2 (held.trans asked.symm)

private theorem sinks_follow_iff {d : Daemon} {o : Outcomes} {next : Config}
    (tracks : Tracks (files d.loader.pluginDir (ascii "sink") d.config.sinks) (runningSinks d))
    (willing : Willing o d next) :
    (∀ id path, (id, path) ∈ runningSinks (sinkPhase d o next) ↔
        files d.loader.pluginDir (ascii "sink") next.sinks id = some path) ↔
      ∀ id path, files d.loader.pluginDir (ascii "sink") d.config.sinks id = some path →
        files d.loader.pluginDir (ascii "sink") next.sinks id = some path → (id, path) ∈ runningSinks d := by
  obtain ⟨kept, new, running, left, gone, spared, -, all⟩ := sink_phase o next tracks
  rw [running, all willing.sinks]
  apply reconciled_iff (reload_diff _ _ _ _) tracks left gone
  intro id path member asked
  exact spared _ member (not_removed (tracks.within _ _ member) asked)

private theorem probes_follow_iff {d : Daemon} {o : Outcomes} {next : Config}
    (tracks : Tracks (files d.loader.pluginDir (ascii "probe") d.config.probes) (runningProbes d))
    (fresh : FreshRefs d) (willing : Willing o d next) :
    (∀ id path, (id, path) ∈ runningProbes (probePhase d o next) ↔
        files d.loader.pluginDir (ascii "probe") next.probes id = some path) ↔
      ∀ id path, files d.loader.pluginDir (ascii "probe") d.config.probes id = some path →
        files d.loader.pluginDir (ascii "probe") next.probes id = some path →
        (id, path) ∈ runningProbes d := by
  obtain ⟨-, kept, new, running, left, gone, spared, -, all⟩ := probe_phase o next tracks fresh
  rw [running, all willing.probes]
  apply reconciled_iff (reload_diff _ _ _ _) tracks left gone
  intro id path member asked
  have notNamed := not_removed (tracks.within _ _ member) asked
  obtain ⟨p, present, same⟩ := List.mem_map.mp member
  cases same
  obtain ⟨config, there, -⟩ := Option.map_eq_some_iff.mp asked
  exact spared p present notNamed fun removed => willing.rearms removed p present ⟨config, there⟩

/-- A reload in which everything attempted would succeed moves the running set
to the file exactly when the instances that both configurations share were
running beforehand. -/
theorem reload_follows_iff {d : Daemon} {o : Outcomes} {next : Config} (reached : Reached d)
    (hasPath : d.configPath ≠ []) (accepted : diffForReload d.config next ≠ none)
    (willing : Willing o d next) : Follows (d.reloadConfig o (some next)) next ↔ SharedRuns d next := by
  have settled := settled_reached reached
  have after := settled_reload settled o (some next)
  rw [reload_accepted hasPath accepted] at after ⊢
  have besideSinks := sink_phase_frame d o next
  have besideProbes := probe_phase_frame (sinkPhase d o next) o next
  have dirSinks := dir_eq besideSinks.settings
  have dirBoth := (dir_eq besideProbes.settings).trans dirSinks
  have config := config_eq besideSinks.settings
  have running : runningProbes (sinkPhase d o next) = runningProbes d := by
    rw [runningProbes, besideSinks.probes, runningProbes]
  have tracks : Tracks (files (sinkPhase d o next).loader.pluginDir (ascii "probe")
      (sinkPhase d o next).config.probes) (runningProbes (sinkPhase d o next)) := by
    rw [dirSinks, config, running]
    exact settled.probes
  have fresh := fresh_refs_sublist settled.fresh (by rw [besideSinks.probes]) besideSinks.nextRef
  have willing' : Willing o (sinkPhase d o next) next :=
    ⟨willing.sinks, willing.probes, by rw [besideSinks.probes]; exact willing.rearms⟩
  have sinksIff := sinks_follow_iff settled.sinks willing
  have probesIff := probes_follow_iff tracks fresh willing'
  rw [dirSinks, config, running] at probesIff
  have sinksKept : runningSinks (probePhase (sinkPhase d o next) o next) = runningSinks (sinkPhase d o next) := by
    rw [runningSinks, besideProbes.sinks, runningSinks]
  constructor
  · intro follows
    have sinks := follows.sinks
    have probes := follows.probes
    simp only [dirBoth] at sinks probes
    refine ⟨sinksIff.mp ?_, probesIff.mp probes⟩
    rw [← sinksKept]
    exact sinks
  · intro shared
    refine ⟨?_, ?_, unique_ids after.sinks, unique_probe_ids after.probes⟩
    · simp only [dirBoth]
      have sinks := sinksIff.mpr shared.sinks
      rw [← sinksKept] at sinks
      exact sinks
    · simp only [dirBoth]
      exact probesIff.mpr shared.probes

/-! ### A plugin that comes back -/

/-- Two sinks and a probe, each its own plugin. -/
def twoSinks : Config where
  pluginDir := ascii "plugins"
  sinks := .ofList [(ascii "http", ComponentConfig.mk ∅), (ascii "null", ComponentConfig.mk ∅)]
  probes := .ofList [(ascii "oom", ComponentConfig.mk ∅)]

/-- Everything that is tried succeeds, but for a sink plugin that is not
installed yet. -/
def withoutHttp : StartOutcomes :=
  { allUp with sink := fun id => if id = ascii "http" then .noFile else .built .null }

/-- The daemon that came up without it. -/
def upWithoutHttp : Daemon := (start (.new twoSinks (ascii "slurm-tracer.json")) withoutHttp).2

private theorem up_without_http : Reached upWithoutHttp :=
  .started twoSinks (ascii "slurm-tracer.json") withoutHttp (by decide)

private theorem all_succeed (d : Daemon) (next : Config) : Willing allSucceed d next where
  sinks := fun _ _ _ => ⟨.null, rfl⟩
  probes := fun _ _ _ => ⟨⟨true, rfl⟩, rfl, rfl, rfl, rfl⟩
  rearms := fun _ _ _ _ => rfl

/-- The equivalence at the daemon that came up without one sink, and the same
file read again. -/
theorem reload_follows_iff_same_file :
    Follows (upWithoutHttp.reloadConfig allSucceed (some twoSinks)) twoSinks ↔
      SharedRuns upWithoutHttp twoSinks :=
  reload_follows_iff up_without_http (by decide) (by decide) (all_succeed _ _)

/-- Installing the plugin and reloading the same file does not bring the
missing sink up. -/
theorem same_file_not_followed :
    ¬ ∀ (d : Daemon) (o : Outcomes) (next : Config), Reached d → d.configPath ≠ [] →
      diffForReload d.config next ≠ none → Willing o d next →
      Follows (d.reloadConfig o (some next)) next := by
  intro always
  have follows := always upWithoutHttp allSucceed twoSinks up_without_http (by decide) (by decide)
    (all_succeed _ _)
  have asked : (ascii "http", pluginPath (ascii "plugins") (ascii "sink") (ascii "http")) ∈
      runningSinks (upWithoutHttp.reloadConfig allSucceed (some twoSinks)) :=
    (follows.sinks _ _).mpr (by decide)
  exact absurd asked (by decide)

end SlurmTracer.ReloadConvergence
