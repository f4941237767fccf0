import SlurmTracer.ConfigInForce
import SlurmTracer.Core.CgroupRoot
import SlurmTracer.Lib.LastOf
import SlurmTracer.RunAccounts
import SlurmTracer.WalkProofs

/-!
Which cgroup root attribution works below. `discover_cgroup_root` is told apart
from how it reads its file: what `cgroup.conf` says of the mountpoint, and which
layout is taken there (`discovered_iff`). A daemon that runs is at such a root,
and no reload moves it (`root_in_use`).
-/
namespace SlurmTracer.RootDiscovery
open SlurmTracer.Core Lib LastOf Lib.Transition Core.Daemon DaemonProofs DaemonRuns RunAccounts LoopSignals ConfigInForce

/-- A line `name = value`: the name in any case, blanks around either, and no
comment. -/
def Sets (line key value : Bytes) : Prop :=
  ∃ before after name, line = before ++ 61 :: after ∧ 61 ∉ before ∧ Padded isTrimmable before name ∧
    name.head? ≠ some 35 ∧ name.map toLower = key ∧ Padded isTrimmable after value

/-- A line that moves the mountpoint. One that sets it to nothing does not. -/
def Mounts (line mountpoint : Bytes) : Prop := Sets line (ascii "cgroupmountpoint") mountpoint ∧ mountpoint ≠ []

/-- The lines of a text, the last of which may lack its newline. -/
inductive Lines : Bytes → List Bytes → Prop where
  | none : Lines [] []
  | last {line : Bytes} (filled : line ≠ []) (one : 10 ∉ line) : Lines line [line]
  | more {line text : Bytes} {lines : List Bytes} (one : 10 ∉ line) (rest : Lines text lines) :
      Lines (line ++ 10 :: text) (line :: lines)

/-- The file's last such line has it, or there is none. A file that is not there
has no line. -/
def Configured (conf : Option Bytes) (mountpoint : Bytes) : Prop :=
  ∃ lines, Lines (conf.getD []) lines ∧
    ((∃ after, Last Mounts lines mountpoint after) ∨ Absent Mounts lines ∧ mountpoint = ascii "/sys/fs/cgroup")

/-- The first path found for the first of the layouts that any is found for. -/
def KnownLayout (glob : Bytes → List Bytes) (mountpoint root : Bytes) : Prop :=
  ∃ missing pattern others, rootPatterns mountpoint = missing ++ pattern :: others ∧
    (glob pattern).head? = some root ∧ ∀ p ∈ missing, glob p = []

/-- The override and nothing else where there is one, and otherwise a known
layout below the mountpoint. -/
def Discovered (isDir : Bytes → Bool) (glob : Bytes → List Bytes) (conf : Option Bytes) (overridePath root : Bytes) :
    Prop :=
  (overridePath ≠ [] ∧ isDir overridePath = true ∧ root = overridePath) ∨
    overridePath = [] ∧ ∃ mountpoint, Configured conf mountpoint ∧ KnownLayout glob mountpoint root

variable {line before after key value : Bytes}

/-! ### A line -/

theorem conf_line_cut (missing : 61 ∉ before) (after : Bytes) :
    confLine (before ++ 61 :: after) =
      if (trim before).head? = some 35 then none else some ((trim before).map toLower, trim after) := by
  have cut : trim (before ++ 61 :: after) = before.dropWhile isTrimmable ++ 61 :: after.rdropWhile isTrimmable :=
    strip_cut (by decide) before after
  have name : trim (before.dropWhile isTrimmable) = trim before := strip_drop_blanks _ _
  have value : trim (after.rdropWhile isTrimmable) = trim after := strip_rdrop_blanks _ _
  have missing' : 61 ∉ before.dropWhile isTrimmable := fun member => missing ((List.dropWhile_sublist _).subset member)
  obtain ⟨left, right⟩ := cut_at_iff (r := after.rdropWhile isTrimmable) |>.mp ⟨rfl, missing'⟩
  have filled : before.dropWhile isTrimmable ++ 61 :: after.rdropWhile isTrimmable ≠ [] := by simp
  have first : (before.dropWhile isTrimmable ++ 61 :: after.rdropWhile isTrimmable).head? = some 35 ↔
      (trim before).head? = some 35 := by
    rw [trim, strip_head]
    cases before.dropWhile isTrimmable <;> simp
  simp only [confLine, cut, left, right, name, value]
  by_cases comment : (trim before).head? = some 35
  · rw [if_pos comment, if_pos (.inr (first.mpr comment))]
  · rw [if_neg comment, if_neg (not_or.mpr ⟨filled, mt first.mp comment⟩)]

theorem conf_line_uncut (missing : 61 ∉ line) : confLine line = none := by
  have missing' : 61 ∉ trim line := by
    obtain ⟨front, back, is, -⟩ := padded_strip isTrimmable line
    rw [trim]
    intro member
    rw [is] at missing
    exact missing (by simp [member])
  have none : (trim line).dropWhile (· ≠ 61) = [] := by
    rw [List.dropWhile_eq_nil_iff]
    intro c member
    simpa using fun (same : c = 61) => missing' (same ▸ member)
  simp only [confLine, none, ite_self]

theorem conf_line_iff : confLine line = some (key, value) ↔ Sets line key value := by
  constructor
  · intro read
    by_cases member : 61 ∈ line
    · obtain ⟨before, after, rfl, missing⟩ := List.eq_append_cons_of_mem member
      rw [conf_line_cut missing] at read
      split at read
      · cases read
      · rename_i comment
        cases read
        exact ⟨before, after, _, rfl, missing, padded_strip _ _, comment, rfl, padded_strip _ _⟩
    · rw [conf_line_uncut member] at read
      cases read
  · rintro ⟨before, after, name, rfl, missing, around, comment, rfl, around'⟩
    have name : trim before = name := strip_of_padded around
    have value : trim after = value := strip_of_padded around'
    rw [conf_line_cut missing, name, value, if_neg comment]

/-! ### The file -/

theorem getlines_last (one : 10 ∉ line) : getlines line = if line = [] then [] else [line] := by
  rw [getlines, List.splitOn_eq_singleton one]
  by_cases empty : line = [] <;> simp [empty]

theorem getlines_more (one : 10 ∉ line) (text : Bytes) : getlines (line ++ 10 :: text) = line :: getlines text := by
  have filled := List.splitOn_ne_nil 10 text
  rw [getlines, getlines, List.splitOn_append_cons_self_of_not_mem one]
  generalize text.splitOn 10 = pieces at filled ⊢
  cases pieces with
  | nil => exact absurd rfl filled
  | cons piece pieces =>
    simp only [List.getLast?_cons_cons, List.dropLast_cons_cons]
    split <;> rfl

theorem lines_getlines (text : Bytes) : Lines text (getlines text) := by
  by_cases newline : 10 ∈ text
  · obtain ⟨line, rest, is, one⟩ := List.eq_append_cons_of_mem newline
    have shorter : rest.length < text.length := by
      rw [is, List.length_append, List.length_cons]
      omega
    rw [is, getlines_more one]
    exact .more one (lines_getlines rest)
  · rw [getlines_last newline]
    split
    · rename_i empty
      rw [empty]
      exact .none
    · exact .last ‹_› newline
termination_by text.length

theorem getlines_iff {text : Bytes} {lines : List Bytes} : Lines text lines ↔ getlines text = lines := by
  constructor
  · intro is
    induction is with
    | none => rfl
    | last filled one => rw [getlines_last one, if_neg filled]
    | more one _ ih => rw [getlines_more one, ih]
  · rintro rfl
    exact lines_getlines text

theorem mounts_functional (line mountpoint mountpoint' : Bytes) (first : Mounts line mountpoint)
    (second : Mounts line mountpoint') : mountpoint = mountpoint' :=
  congrArg Prod.snd (Option.some.inj ((conf_line_iff.mpr first.1).symm.trans (conf_line_iff.mpr second.1)))

theorem read_mounts (c : CgroupConf) (mounts : Mounts line value) : (c.read line).mountpoint = value := by
  simp [CgroupConf.read, conf_line_iff.mpr mounts.1, mounts.2]

/-- `IgnoreSystemd`, a comment, an unknown key and a mountpoint of nothing. -/
theorem read_other (c : CgroupConf) (other : ∀ mountpoint, ¬ Mounts line mountpoint) :
    (c.read line).mountpoint = c.mountpoint := by
  unfold CgroupConf.read
  cases read : confLine line with
  | none => rfl
  | some setting =>
    obtain ⟨key, value⟩ := setting
    have unmoved : ¬ (key = ascii "cgroupmountpoint" ∧ value ≠ []) := by
      rintro ⟨rfl, filled⟩
      exact other value ⟨conf_line_iff.mp read, filled⟩
    simp only [if_neg unmoved]
    split <;> rfl

/-- The loop keeps to the last line that moved it. -/
theorem lines_read (c : CgroupConf) (lines : List Bytes) :
    (∃ after, Last Mounts lines (lines.foldl CgroupConf.read c).mountpoint after) ∨
      Absent Mounts lines ∧ (lines.foldl CgroupConf.read c).mountpoint = c.mountpoint := by
  induction lines using List.reverseRecOn with
  | nil => exact .inr ⟨absent_nil, rfl⟩
  | append_singleton lines line ih =>
    rw [List.foldl_append, List.foldl_cons, List.foldl_nil]
    by_cases moves : ∃ mountpoint, Mounts line mountpoint
    · obtain ⟨mountpoint, mounts⟩ := moves
      exact .inl ⟨[], by rw [read_mounts _ mounts]; exact last_hit lines mounts⟩
    · have other := not_exists.mp moves
      rw [read_other _ other]
      rcases ih with ⟨after, last⟩ | ⟨absent, same⟩
      · exact .inl ⟨_, last_miss last other⟩
      · exact .inr ⟨absent_append.mpr ⟨absent, absent_singleton.mpr other⟩, same⟩

theorem configured_iff {conf : Option Bytes} {mountpoint : Bytes} :
    Configured conf mountpoint ↔ (CgroupConf.load conf).mountpoint = mountpoint := by
  have load : CgroupConf.load conf = (getlines (conf.getD [])).foldl CgroupConf.read {} := by
    cases conf <;> rfl
  have read := lines_read {} (getlines (conf.getD []))
  simp only [Configured, getlines_iff, exists_eq_left', load]
  constructor
  · rintro (⟨after, last⟩ | ⟨absent, rfl⟩)
    · rcases read with ⟨after', last'⟩ | ⟨absent, -⟩
      · exact (last_unique mounts_functional last' last).1
      · exact absurd absent (last_not_absent last)
    · rcases read with ⟨after, last⟩ | ⟨-, same⟩
      · exact absurd absent (last_not_absent last)
      · exact same
  · rintro rfl
    exact read

/-! ### The root -/

/-- Where `discover_cgroup_root` ends up, and that it ends up nowhere only
where there is nothing to find. -/
theorem discovered_iff (isDir : Bytes → Bool) (glob : Bytes → List Bytes) (conf : Option Bytes)
    (overridePath root : Bytes) :
    discoverCgroupRoot isDir glob conf overridePath = some root ↔ Discovered isDir glob conf overridePath root := by
  unfold discoverCgroupRoot Discovered
  by_cases unset : overridePath = []
  · have layout : (rootPatterns (CgroupConf.load conf).mountpoint).findSome? (fun p => (glob p).head?) = some root ↔
        KnownLayout glob (CgroupConf.load conf).mountpoint root := by
      simp only [List.findSome?_eq_some_iff, List.head?_eq_none_iff, KnownLayout]
    simp only [unset, ne_eq, not_true_eq_false, if_false, layout, configured_iff, false_and, true_and, false_or,
      exists_eq_left']
  · simp only [ne_eq, unset, not_false_eq_true, if_true, Option.ite_none_right_eq_some, Option.some.injEq, true_and,
      false_and, or_false, eq_comm]

/-! ### Over a run -/

variable {dir : Path} {plugins : Plugins} {d d' : Daemon} {m m' : MainLoop} {a : LoopStep}

/-- The daemon attributes below this directory. -/
def RootedAt (dir : Path) (d : Daemon) : Prop := ∃ resolver, d.resolver = some resolver ∧ resolver.root = dir

theorem on_event_root (r : CgroupResolver) (e : StCgroupEvent) :
    (CgroupWatcher.onEvent r e).root = r.root := by
  unfold CgroupWatcher.onEvent CgroupResolver.onCreated CgroupResolver.onRemoved
  split
  · rfl
  · split
    · split <;> rfl
    · split
      · rfl
      · split <;> rfl

theorem resolve_root (r : CgroupResolver) (cgroupId eventTsNs : UInt64) :
    (r.resolve cgroupId eventTsNs).2.root = r.root := by
  unfold CgroupResolver.resolve
  split
  · rfl
  · split <;> rfl

theorem enrich_root (p : Pipeline) (s : Surroundings) (r : Record) : (p.enrich s r).2.2.root = s.resolver.root := by
  unfold Pipeline.enrich
  simp only
  split
  · rename_i answer
    exact (congrArg (·.2.root) answer).symm.trans (resolve_root _ _ _)
  · rename_i answer
    exact (congrArg (·.2.root) answer).symm.trans (resolve_root _ _ _)

theorem rooted_emit (rooted : RootedAt dir d) (out : Emitter) (bootOffsetNs : UInt64) (passwd : PasswdReply)
    (r : Record) : RootedAt dir (d.emit out bootOffsetNs passwd r) := by
  obtain ⟨resolver, resolved, rfl⟩ := rooted
  unfold Daemon.emit
  split
  · rename_i p resolver' _ resolved'
    cases resolved.symm.trans resolved'
    refine ⟨_, rfl, ?_⟩
    rw [(emit_counts p _ _).2, enrich_root]
  · exact ⟨resolver, resolved, rfl⟩

theorem rooted_sample (rooted : RootedAt dir d) {ctx : Nat} {data : Bytes} {bootOffsetNs : UInt64}
    {passwd : PasswdReply} (called : d.onSample plugins ctx data bootOffsetNs passwd = some d') : RootedAt dir d' := by
  unfold onSample at called
  split at called
  · cases called
  · split at called
    · split at called <;> cases called
      obtain ⟨resolver, resolved, rfl⟩ := rooted
      refine ⟨CgroupWatcher.onSample resolver data, by rw [resolved]; rfl, ?_⟩
      unfold CgroupWatcher.onSample
      split
      · rfl
      · exact on_event_root _ _
    · split at called
      · cases called
      · split at called <;> cases called
        · exact rooted
        · exact rooted_emit rooted _ _ _ _

theorem rooted_tick (rooted : RootedAt dir d) (monotonicNs : UInt64) (now : Int64) :
    RootedAt dir (d.tick monotonicNs now) := by
  obtain ⟨resolver, resolved, rfl⟩ := rooted
  unfold Daemon.tick
  split
  · rename_i resolved'
    cases resolved.symm.trans resolved'
    exact ⟨_, rfl, rfl⟩
  · exact ⟨resolver, resolved, rfl⟩

theorem rooted_step (rooted : RootedAt dir m.daemon) (ran : m.step plugins a = some m') : RootedAt dir m'.daemon := by
  cases turned_of_step ran with
  | sample _ _ called => exact rooted_sample rooted called
  | ticked _ => exact rooted_tick rooted _ _
  | @reloaded o loaded _ =>
    obtain ⟨resolver, resolved, is⟩ := rooted
    exact ⟨resolver, (undisturbed_reload m.daemon o loaded).resolver.trans resolved, is⟩
  | _ => exact rooted

theorem rooted_run (actions : List LoopStep) (rooted : RootedAt dir m.daemon)
    (ran : actions.foldlM (MainLoop.step plugins) m = some m') : RootedAt dir m'.daemon := by
  refine steps_related (R := fun m m' => RootedAt dir m.daemon → RootedAt dir m'.daemon) (fun _ held => held) ?_ actions
    ?_ ran rooted
  · exact fun first second held => second (first held)
  · exact fun a _ _ _ ran held => rooted_step held ran

theorem scan_root (bootOffsetNs : UInt64) (tree : CgroupTree) (r : CgroupResolver) :
    (CgroupResolver.start bootOffsetNs tree r).2.root = r.root := by
  unfold CgroupResolver.start
  split
  · exact walk_keeps CgroupResolver.root (fun _ _ => WalkProofs.add_dir_root _) r r.root
  · rfl

/-- A daemon that came up is where it was told to be, and a directory was there. -/
theorem rooted_start {env : StartOutcomes} (up : (start d env).1 = true) :
    ∃ dir, env.cgroupRoot = some dir ∧ env.tree.isDir dir = true ∧ RootedAt dir (start d env).2 := by
  obtain ⟨dir, found, ran, scanned⟩ := start_scanned up
  refine ⟨dir, found, ?_, _, scanned, scan_root _ _ _⟩
  unfold CgroupResolver.start at ran
  split at ran
  · assumption
  · cases ran

theorem in_force_root (base : Config) (read : List (Option Config)) : (inForce base read).cgroupRoot = base.cgroupRoot := by
  unfold inForce
  split <;> rfl

/-- The root of a running daemon's resolver: what start-up's configuration and
`cgroup.conf` lead to, whatever it was sent to read since. -/
structure SettledBelow (isDir : Bytes → Bool) (glob : Bytes → List Bytes) (conf : Option Bytes) (config : Config)
    (d : Daemon) (root : Bytes) : Prop where
  discovered : Discovered isDir glob conf config.cgroupRoot root
  isDirectory : isDir root = true
  rooted : RootedAt (splitPath root) d
  unmoved : d.config.cgroupRoot = config.cgroupRoot

/-- The resolver of a daemon that comes to run has a root that is to be
discovered, and keeps it. -/
theorem root_in_use (plugins : Plugins) (glob : Bytes → List Bytes) (conf : Option Bytes) (config : Config)
    (configPath : Bytes) (env : StartOutcomes)
    (asked : env.cgroupRoot =
      (discoverCgroupRoot (fun path => env.tree.isDir (splitPath path)) glob conf config.cgroupRoot).map splitPath)
    (up : (start (.new config configPath) env).1 = true) (flags : Flags) (actions : List LoopStep) (m : MainLoop)
    (ran : actions.foldlM (MainLoop.step plugins) (.run (start (.new config configPath) env).2 flags) = some m) :
    ∃ root, SettledBelow (fun path => env.tree.isDir (splitPath path)) glob conf config m.daemon root := by
  obtain ⟨dir, found, isDirectory, rooted⟩ := rooted_start up
  obtain ⟨root, discovered, rfl⟩ := Option.map_eq_some_iff.mp (asked.symm.trans found)
  have committed := committed_run actions (by exact committed_start up) ran
  refine ⟨root, (discovered_iff _ _ _ _ _).mp discovered, isDirectory, rooted_run actions (by exact rooted) ran, ?_⟩
  rw [committed.config]
  split
  · rfl
  · exact in_force_root config _

/-- A mount with a bare `slurm` below its root. -/
def slurmTree : CgroupTree where
  nodes := [⟨[], 1, true, .dir, 0⟩, ⟨[ascii "slurm"], 2, true, .dir, 0⟩]
  pathsDistinct := by decide
  inosDistinct := by decide
  parents := by decide
  names := by decide
  types := by decide

def onSlurmTree : StartOutcomes := { allUp with cgroupRoot := some [ascii "slurm"], tree := slurmTree }

/-- It has the mountpoint moved, below a line that is commented out. -/
def movedMount : Bytes := ascii "#CgroupMountpoint=/cgroup\nIgnoreSystemd=yes\n CgroupMountpoint = /\t\n"

theorem root_in_use_after_reload :
    ∃ root, SettledBelow (fun path => slurmTree.isDir (splitPath path))
      (fun pattern => if pattern = ascii "//slurm" then [pattern] else []) (some movedMount) ZombieFreedom.twoProbes
      (((start (.new ZombieFreedom.twoProbes (ascii "slurm-tracer.json")) onSlurmTree).2.tick 0 0).reloadConfig
        allSucceed (some ZombieFreedom.withoutOom)) root :=
  root_in_use (fun _ _ => none) (fun pattern => if pattern = ascii "//slurm" then [pattern] else []) (some movedMount)
    ZombieFreedom.twoProbes (ascii "slurm-tracer.json") onSlurmTree (by decide) (by decide) {} _ _
    (reload_turn _ _ allSucceed (some ZombieFreedom.withoutOom))

end SlurmTracer.RootDiscovery
