import SlurmTracer.Core.Startup
import SlurmTracer.DaemonFrames
import SlurmTracer.Lib.Transition
import SlurmTracer.WalkAndFeed

/-!
The stitch between the bootstrap walk and the live feed. Nothing between the
end of the walk and the attach is seen by either; the map is complete in every
run in which no job cgroup comes or goes in that gap (`no_hole`).
-/
namespace SlurmTracer.StartupHole
open Lib SlurmTracer.Core Core.CgroupResolver ResolverProofs WalkProofs WalkAndFeed Lib.Transition
open DaemonRuns (fromWatcher piped)

/-- A job cgroup below the root, and what its path says. -/
def JobBelow (root : Path) (n : Node) (attr : Attribution) : Prop :=
  n.isDir = true ∧ StrictlyBelow root n.path ∧ parseCgroupPath (pathString n.path) = some attr

/-- The directory an entry speaks of is still there. -/
def Exists (tree : CgroupTree) (id : UInt64) (e : Entry) : Prop :=
  ∃ n ∈ tree.nodes, n.isDir = true ∧ n.ino = id ∧ parseCgroupPath (pathString n.path) = some e.attr

/-- Every job cgroup below the root has its entry, and every entry whose cgroup
is gone is marked. -/
structure Consistent (root : Path) (tree : CgroupTree) (r : CgroupResolver) : Prop where
  known : ∀ n ∈ tree.nodes, ∀ attr, JobBelow root n attr →
    ∃ e, r.entries.lookup n.ino = some e ∧ e.attr = attr
  marked : ∀ id e, r.entries.lookup id = some e → ¬ Exists tree id e → e.removedNs ≠ 0

/-- Once `start` has returned true and the ring is drained, the map is
consistent with the tree. -/
def NoHole (env : StartOutcomes) (s : Startup) : Prop :=
  s.stage = .returned true → s.ring = [] →
    ∃ root r, env.cgroupRoot = some root ∧ s.daemon.resolver = some r ∧ Consistent root s.tree r

/-- `start` has just been called. -/
def Called (s : Startup) : Prop :=
  s.stage = .called ∧ s.attached = false ∧ s.ring = [] ∧ s.now ≠ 0

/-- The stages of `start`, by what the map then covers. -/
inductive Phase where
  | before
  | walking (w : Walk)
  | between
  | listening
  | failed

def phase : Stage → Phase
  | .called => .before
  | .scanning w => .walking w
  | .loadingSinks | .buildingPipeline | .openingWatcher | .loadingWatcher | .attachingWatcher => .between
  | .armingWatcher | .startingProbes | .returned true => .listening
  | .returned false => .failed

/-- The walk has yet to come to this path. -/
def Unvisited (s : Startup) (path : Path) : Prop :=
  match phase s.stage with
  | .before => True
  | .walking w => Covers w.stack path
  | .between | .listening | .failed => False

/-- Before the attach, job cgroups below the root come and go only where the
walk has yet to come; after it, no event of a job cgroup is lost and no path
changes its meaning when it is cut to the buffer. -/
def Seen (env : StartOutcomes) (s : Startup) : StartupStep → Prop
  | .mkdir n lost =>
    if s.attached then
      if lost then parseCgroupPath (pathString n.path) = none
      else parseCgroupPath (CgroupWatcher.delivered (pathString n.path)) = parseCgroupPath (pathString n.path)
    else ∀ root attr, env.cgroupRoot = some root → JobBelow root n attr → Unvisited s n.path
  | .rmdir path lost =>
    if s.attached then lost = true → parseCgroupPath (pathString path) = none
    else ∀ root n attr, env.cgroupRoot = some root → n ∈ s.tree.nodes → n.path = path →
      JobBelow root n attr → Unvisited s path
  | .advance _ | .proceed | .dispatch => True

/-! ### The tree under the kernel's hands -/

variable {tree tree' : CgroupTree} {n m : Node} {path : Path}

private theorem mkdir_effect (made : tree.mkdir n = some tree') :
    tree'.nodes = tree.nodes ++ [n] ∧ n.isDir = true ∧ ∀ m ∈ tree.nodes, m.path ≠ n.path ∧ m.ino ≠ n.ino := by
  unfold CgroupTree.mkdir at made
  split at made
  · rename_i allowed
    cases made
    exact ⟨rfl, allowed.1, allowed.2.2.2.2⟩
  · cases made

/-- Of the directories, exactly the removed one is gone. -/
private theorem rmdir_effect (removed : tree.rmdir path = some tree') :
    (∀ m ∈ tree'.nodes, m ∈ tree.nodes ∧ m.path ≠ path) ∧
      ∀ m ∈ tree.nodes, m.isDir = true → m.path ≠ path → m ∈ tree'.nodes := by
  unfold CgroupTree.rmdir at removed
  split at removed
  · rename_i allowed
    cases removed
    constructor
    · intro m member
      obtain ⟨stays, apart⟩ := List.mem_filter.mp member
      refine ⟨stays, ?_⟩
      rintro rfl
      exact of_decide_eq_true apart (List.prefix_refl _)
    · intro m member dir apart
      refine List.mem_filter.mpr ⟨member, decide_eq_true fun below => ?_⟩
      rw [allowed.2.2 m member below apart] at dir
      cases dir
  · cases removed

private theorem same_ino (member : m ∈ tree.nodes) (member' : n ∈ tree.nodes) (same : m.ino = n.ino) : m = n :=
  List.inj_on_of_nodup_map tree.inosDistinct member member' same

private theorem same_path (member : m ∈ tree.nodes) (member' : n ∈ tree.nodes) (same : m.path = n.path) : m = n :=
  List.inj_on_of_nodup_map tree.pathsDistinct member member' same

/-! ### The stitch -/

/-- Away from the frontier, the map and the tree agree. Until the attach only
directories below the root have entries. -/
structure Stitch (root : Path) (attached : Bool) (frontier : List Path) (tree : CgroupTree)
    (r : CgroupResolver) : Prop where
  known : ∀ n ∈ tree.nodes, ∀ attr, JobBelow root n attr →
    Covers frontier n.path ∨ ∃ e, r.entries.lookup n.ino = some e ∧ e.attr = attr
  alive : ∀ id e, r.entries.lookup id = some e → e.removedNs = 0 →
    ∃ n ∈ tree.nodes, n.isDir = true ∧ n.ino = id ∧ parseCgroupPath (pathString n.path) = some e.attr ∧
      ¬ Covers frontier n.path ∧ (attached = false → StrictlyBelow root n.path)

variable {root : Path} {attached : Bool} {frontier : List Path} {r : CgroupResolver}

/-- With nothing left to visit, the stitch is what was promised. -/
theorem consistent_of_stitch (stitch : Stitch root attached [] tree r) : Consistent root tree r where
  known n member attr job := (stitch.known n member attr job).resolve_left not_covers_nil
  marked id e held gone zero := by
    obtain ⟨n, member, dir, ino, parsed, _⟩ := stitch.alive id e held zero
    exact gone ⟨n, member, dir, ino, parsed⟩

/-- A new directory the map need not know of. -/
private theorem stitch_grow (stitch : Stitch root attached frontier tree r) (made : tree.mkdir n = some tree')
    (unseen : ∀ attr, JobBelow root n attr → Covers frontier n.path) :
    Stitch root attached frontier tree' r := by
  obtain ⟨nodes, _, _⟩ := mkdir_effect made
  constructor
  · intro m member attr job
    rw [nodes] at member
    rcases List.mem_append.mp member with old | new
    · exact stitch.known m old attr job
    · rw [List.mem_singleton.mp new] at job ⊢
      exact .inl (unseen attr job)
  · intro id e held zero
    obtain ⟨m, member, rest⟩ := stitch.alive id e held zero
    exact ⟨m, nodes ▸ List.mem_append_left _ member, rest⟩

/-- A new directory whose event has been delivered. -/
private theorem stitch_created {ns : UInt64} (stitch : Stitch root true [] tree r)
    (made : tree.mkdir n = some tree')
    (intact : parseCgroupPath (CgroupWatcher.delivered (pathString n.path)) = parseCgroupPath (pathString n.path)) :
    Stitch root true [] tree'
      (CgroupWatcher.onEvent r (CgroupWatcher.emit stCgroupEventCreate n.ino (some (pathString n.path)) ns)) := by
  obtain ⟨nodes, nDir, fresh⟩ := mkdir_effect made
  rw [CgroupWatcher.on_event_created]
  constructor
  · intro m member attr job
    rw [nodes] at member
    rw [lookup_on_created, intact]
    rcases List.mem_append.mp member with old | new
    · rw [if_neg (fresh m old).2]
      exact stitch.known m old attr job
    · rw [List.mem_singleton.mp new] at job ⊢
      rw [if_pos rfl, job.2.2]
      exact .inr ⟨_, rfl, rfl⟩
  · intro id e held zero
    rw [lookup_on_created, intact] at held
    have survives : r.entries.lookup id = some e → ∃ m ∈ tree'.nodes, m.isDir = true ∧ m.ino = id ∧
        parseCgroupPath (pathString m.path) = some e.attr ∧ ¬ Covers [] m.path ∧
        (true = false → StrictlyBelow root m.path) := by
      intro held
      obtain ⟨m, member, rest⟩ := stitch.alive id e held zero
      exact ⟨m, nodes ▸ List.mem_append_left _ member, rest⟩
    split at held
    · rename_i same
      cases parsed : parseCgroupPath (pathString n.path) with
      | none =>
        rw [parsed] at held
        exact survives held
      | some attr =>
        rw [parsed] at held
        cases held
        exact ⟨n, by simp [nodes], nDir, same.symm, parsed, not_covers_nil, by simp⟩
    · exact survives held

/-- A directory gone that no unmarked entry speaks of. -/
private theorem stitch_shrink (stitch : Stitch root attached frontier tree r)
    (removed : tree.rmdir path = some tree')
    (unknown : parseCgroupPath (pathString path) = none ∨ Covers frontier path ∨
      attached = false ∧ ¬ StrictlyBelow root path) :
    Stitch root attached frontier tree' r := by
  obtain ⟨remain, stay⟩ := rmdir_effect removed
  constructor
  · intro m member attr job
    exact stitch.known m (remain m member).1 attr job
  · intro id e held zero
    obtain ⟨m, member, dir, ino, parsed, uncovered, below⟩ := stitch.alive id e held zero
    refine ⟨m, stay m member dir ?_, dir, ino, parsed, uncovered, below⟩
    rintro rfl
    rcases unknown with noJob | covered | ⟨early, outside⟩
    · rw [noJob] at parsed
      cases parsed
    · exact uncovered covered
    · exact outside (below early)

/-- A directory gone whose event has been delivered. -/
private theorem stitch_removed {ns : UInt64} (stitch : Stitch root true [] tree r) (member : n ∈ tree.nodes)
    (removed : tree.rmdir n.path = some tree') (clock : ns ≠ 0) :
    Stitch root true [] tree'
      (CgroupWatcher.onEvent r (CgroupWatcher.emit stCgroupEventRemove n.ino (some (pathString n.path)) ns)) := by
  obtain ⟨remain, stay⟩ := rmdir_effect removed
  rw [CgroupWatcher.on_event_removed]
  constructor
  · intro m there attr job
    obtain ⟨old, apart⟩ := remain m there
    have other : m.ino ≠ n.ino := fun same => apart (same_ino old member same ▸ rfl)
    rw [lookup_on_removed, if_neg other]
    exact stitch.known m old attr job
  · intro id e held zero
    rw [lookup_on_removed] at held
    split at held
    · obtain ⟨prior, _, rfl⟩ := Option.map_eq_some_iff.mp held
      split at zero
      · exact absurd zero clock
      · contradiction
    · rename_i other
      obtain ⟨m, old, dir, ino, rest⟩ := stitch.alive id e held zero
      refine ⟨m, stay m old dir ?_, dir, ino, rest⟩
      intro same
      exact other (by rw [← ino, same_path old member same])

/-! ### The walk -/

/-- The walk half way, on a tree that may change under it. -/
structure Walking (root : Path) (tree : CgroupTree) (w : Walk) : Prop where
  chain : Antichain w.stack
  rooted : ∀ y ∈ w.stack, root <+: y
  dirs : ∀ y ∈ w.stack, ∀ n ∈ tree.nodes, n.path = y → n.isDir = true
  ownRoot : w.resolver.root = root
  stitch : Stitch root false w.stack tree w.resolver

variable {w : Walk} {bootOffsetNs : UInt64} {x : Path} {rest : List Path}

private theorem walking_start (dir : tree.isDir root = true) : Walking root tree ⟨{ root }, [root]⟩ where
  chain := List.pairwise_singleton _ _
  rooted := by simp
  dirs := by
    intro y member n there place
    obtain ⟨m, held, at_, isDir⟩ := is_dir_iff.mp dir
    rw [List.mem_singleton.mp member] at place
    rw [same_path there held (place.trans at_.symm)]
    exact isDir
  ownRoot := rfl
  stitch :=
    ⟨fun n _ attr job => .inl ⟨root, List.mem_singleton_self root, job.2.1.1⟩, fun id e held => by simp at held⟩

/-- A visit stores the directory's entry under its own inode number only. -/
private theorem visit_keeps {e : Entry} (member : n ∈ tree.nodes) (elsewhere : n.path ≠ x)
    (held : w.resolver.entries.lookup n.ino = some e) (head : w.stack = x :: rest) :
    (addSubtreeStep bootOffsetNs tree w).resolver.entries.lookup n.ino = some e := by
  rw [step_resolver head]
  split
  · refine (lookup_add_dir _).mpr (.inr ⟨?_, held⟩)
    rintro other ⟨m, attr, found, _, ino, _⟩
    obtain ⟨there, place⟩ := stat_some.mp found
    exact elsewhere (same_ino there member ino ▸ place)
  · exact held

private theorem walking_visit (walking : Walking root tree w) (head : w.stack = x :: rest) :
    Walking root tree (addSubtreeStep bootOffsetNs tree w) := by
  have onStack : x ∈ w.stack := by simp [head]
  have covers := fun {p : Path} => @covers_step tree p x bootOffsetNs w rest head walking.chain
  refine ⟨antichain_step head walking.chain, rooted_step head walking.rooted, ?_, ?_, ?_, ?_⟩
  · intro y member n there place
    rw [step_stack head, List.mem_append] at member
    rcases member with child | waiting
    · obtain ⟨m, held, at_, dir⟩ := is_dir_iff.mp (mem_child_dirs.mp child).2
      rw [same_path there held (place.trans at_.symm)]
      exact dir
    · exact walking.dirs y (by simp [head, waiting]) n there place
  · rw [step_root]
    exact walking.ownRoot
  · intro n member attr job
    by_cases here : n.path = x
    · have strict : x ≠ w.resolver.root := by
        rw [walking.ownRoot, ← here]
        exact job.2.1.2
      rw [step_resolver head, if_pos strict]
      refine .inr ⟨_, (lookup_add_dir _).mpr (.inl ⟨n, attr, stat_some.mpr ⟨member, here⟩, ?_, rfl, rfl⟩), rfl⟩
      rw [← here]
      exact job.2.2
    · rcases walking.stitch.known n member attr job with waiting | ⟨e, held, same⟩
      · exact .inl ((covers (is_dir_iff.mpr ⟨n, member, rfl, job.1⟩)).mpr ⟨waiting, here⟩)
      · exact .inr ⟨e, visit_keeps member here held head, same⟩
  · intro id e held zero
    have older : w.resolver.entries.lookup id = some e → ∃ n ∈ tree.nodes, n.isDir = true ∧ n.ino = id ∧
        parseCgroupPath (pathString n.path) = some e.attr ∧
        ¬ Covers (addSubtreeStep bootOffsetNs tree w).stack n.path ∧
        (false = false → StrictlyBelow root n.path) := by
      intro held
      obtain ⟨n, member, dir, ino, parsed, done, below⟩ := walking.stitch.alive id e held zero
      refine ⟨n, member, dir, ino, parsed, fun waiting => done ?_, below⟩
      exact ((covers (is_dir_iff.mpr ⟨n, member, rfl, dir⟩)).mp waiting).1
    rw [step_resolver head] at held
    split at held
    · rename_i strict
      rcases (lookup_add_dir _).mp held with ⟨n, attr, found, parsed, ino, rfl⟩ | ⟨_, held⟩
      · obtain ⟨member, place⟩ := stat_some.mp found
        have dir := walking.dirs x onStack n member place
        refine ⟨n, member, dir, ino, place ▸ parsed, fun waiting => ?_, fun _ => ?_⟩
        · exact ((covers (is_dir_iff.mpr ⟨n, member, rfl, dir⟩)).mp waiting).2 place
        · rw [place]
          exact ⟨walking.rooted x onStack, walking.ownRoot ▸ strict⟩
      · exact older held
    · exact older held

/-! ### The kernel's steps -/

/-- What holds in each phase. Once the watcher listens, the map is right as
soon as everything in the ring is fed to it. -/
def Sound (env : StartOutcomes) (s : Startup) : Prop :=
  s.now ≠ 0 ∧ match phase s.stage with
  | .before => s.attached = false ∧ s.ring = []
  | .walking w => s.attached = false ∧ s.ring = [] ∧
      ∃ root, env.cgroupRoot = some root ∧ Walking root s.tree w
  | .between => s.attached = false ∧ s.ring = [] ∧
      ∃ root r, env.cgroupRoot = some root ∧ s.daemon.resolver = some r ∧ Stitch root false [] s.tree r
  | .listening => s.attached = true ∧ ∃ root r, env.cgroupRoot = some root ∧ s.daemon.resolver = some r ∧
      Stitch root true [] s.tree (s.ring.foldl CgroupWatcher.onEvent r)
  | .failed => True

variable {env : StartOutcomes} {s s' : Startup}

private theorem traced_early {type : UInt32} {lost : Bool} (early : s.attached = false) (ring : List StCgroupEvent) :
    ring ++ s.traced type n lost = ring := by
  simp [Startup.traced, early]

private theorem traced_attached {type : UInt32} {lost : Bool} (attached : s.attached = true) :
    s.traced type n lost =
      if lost then [] else [CgroupWatcher.emit type n.ino (some (pathString n.path)) s.now] := by
  cases lost <;> simp [Startup.traced, attached]

private theorem sound_mkdir {lost : Bool} (sound : Sound env s) (seen : Seen env s (.mkdir n lost))
    (made : s.tree.mkdir n = some tree') :
    Sound env { s with tree := tree', ring := s.ring ++ s.traced stCgroupEventCreate n lost } := by
  obtain ⟨clock, sound⟩ := sound
  refine ⟨clock, ?_⟩
  unfold Seen Unvisited at seen
  dsimp only
  cases stage : phase s.stage with
  | before =>
    rw [stage] at sound
    exact ⟨sound.1, by rw [traced_early sound.1]; exact sound.2⟩
  | walking w =>
    rw [stage] at sound
    obtain ⟨early, quiet, root, isRoot, walking⟩ := sound
    refine ⟨early, by rw [traced_early early]; exact quiet, root, isRoot, ?_⟩
    simp only [early, Bool.false_eq_true, ↓reduceIte, stage] at seen
    refine { walking with dirs := ?_, stitch := ?_ }
    · intro y member m there place
      obtain ⟨nodes, nDir, _⟩ := mkdir_effect made
      rw [nodes] at there
      rcases List.mem_append.mp there with old | new
      · exact walking.dirs y member m old place
      · rw [List.mem_singleton.mp new]
        exact nDir
    · exact stitch_grow walking.stitch made fun attr job => seen root attr isRoot job
  | between =>
    rw [stage] at sound
    obtain ⟨early, quiet, root, r, isRoot, held, stitch⟩ := sound
    refine ⟨early, by rw [traced_early early]; exact quiet, root, r, isRoot, held, ?_⟩
    simp only [early, Bool.false_eq_true, ↓reduceIte, stage] at seen
    exact stitch_grow stitch made fun attr job => absurd job (seen root attr isRoot)
  | listening =>
    rw [stage] at sound
    obtain ⟨attached, root, r, isRoot, held, stitch⟩ := sound
    refine ⟨attached, root, r, isRoot, held, ?_⟩
    simp only [attached, ↓reduceIte] at seen
    rw [traced_attached attached, List.foldl_append]
    cases lost with
    | true =>
      apply stitch_grow stitch made
      intro attr job
      cases seen.symm.trans job.2.2
    | false => exact stitch_created stitch made seen
  | failed => trivial

private theorem removed_is_dir (removed : tree.rmdir path = some tree') : tree.isDir path = true := by
  unfold CgroupTree.rmdir at removed
  split at removed
  · rename_i allowed
    exact allowed.2.1
  · cases removed

/-- Before the attach, a directory may go unless it is a job's below the root
that the walk has been to. -/
private theorem stitch_early_rmdir (stitch : Stitch root false frontier tree r) (member : n ∈ tree.nodes)
    (removed : tree.rmdir n.path = some tree') (unseen : ∀ attr, JobBelow root n attr → Covers frontier n.path) :
    Stitch root false frontier tree' r := by
  apply stitch_shrink stitch removed
  cases parsed : parseCgroupPath (pathString n.path) with
  | none => exact .inl rfl
  | some attr =>
    by_cases below : StrictlyBelow root n.path
    · obtain ⟨m, there, place, dir⟩ := is_dir_iff.mp (removed_is_dir removed)
      exact .inr (.inl (unseen attr ⟨same_path there member place ▸ dir, below, parsed⟩))
    · exact .inr (.inr ⟨rfl, below⟩)

private theorem sound_rmdir {lost : Bool} (sound : Sound env s) (member : n ∈ s.tree.nodes)
    (seen : Seen env s (.rmdir n.path lost)) (removed : s.tree.rmdir n.path = some tree') :
    Sound env { s with tree := tree', ring := s.ring ++ s.traced stCgroupEventRemove n lost } := by
  obtain ⟨clock, sound⟩ := sound
  refine ⟨clock, ?_⟩
  unfold Seen Unvisited at seen
  dsimp only
  cases stage : phase s.stage with
  | before =>
    rw [stage] at sound
    exact ⟨sound.1, by rw [traced_early sound.1]; exact sound.2⟩
  | walking w =>
    rw [stage] at sound
    obtain ⟨early, quiet, root, isRoot, walking⟩ := sound
    refine ⟨early, by rw [traced_early early]; exact quiet, root, isRoot, ?_⟩
    simp only [early, Bool.false_eq_true, ↓reduceIte, stage] at seen
    refine { walking with dirs := ?_, stitch := ?_ }
    · exact fun y waiting m there place =>
        walking.dirs y waiting m ((rmdir_effect removed).1 m there).1 place
    · exact stitch_early_rmdir walking.stitch member removed fun attr job => seen root n attr isRoot member rfl job
  | between =>
    rw [stage] at sound
    obtain ⟨early, quiet, root, r, isRoot, held, stitch⟩ := sound
    refine ⟨early, by rw [traced_early early]; exact quiet, root, r, isRoot, held, ?_⟩
    simp only [early, Bool.false_eq_true, ↓reduceIte, stage] at seen
    exact stitch_early_rmdir stitch member removed fun attr job =>
      absurd job (seen root n attr isRoot member rfl)
  | listening =>
    rw [stage] at sound
    obtain ⟨attached, root, r, isRoot, held, stitch⟩ := sound
    refine ⟨attached, root, r, isRoot, held, ?_⟩
    simp only [attached, ↓reduceIte] at seen
    rw [traced_attached attached, List.foldl_append]
    cases lost with
    | true => exact stitch_shrink stitch removed (.inl (seen rfl))
    | false => exact stitch_removed stitch member removed clock
  | failed => trivial

/-! ### The daemon's steps -/

private theorem stitch_rescans {rescans : Nat} (stitch : Stitch root attached frontier tree r) :
    Stitch root attached frontier tree { r with stats.rescans := rescans } :=
  ⟨stitch.known, stitch.alive⟩

/-- At the attach, the walk's coverage becomes the feed's. -/
private theorem stitch_attach (stitch : Stitch root false [] tree r) : Stitch root true [] tree r where
  known := stitch.known
  alive id e held zero := by
    obtain ⟨n, member, dir, ino, parsed, done, _⟩ := stitch.alive id e held zero
    exact ⟨n, member, dir, ino, parsed, done, by simp⟩

/-- A start that failed promises nothing any more. -/
private theorem sound_failed (clock : s'.now ≠ 0) (failed : phase s'.stage = .failed) : Sound env s' := by
  refine ⟨clock, ?_⟩
  rw [failed]
  trivial

/-- Within a phase, only the resolver is looked at of the daemon. -/
private theorem sound_same {daemon : Daemon} {next : Stage} (sound : Sound env s) (same : phase next = phase s.stage)
    (resolver : daemon.resolver = s.daemon.resolver) : Sound env { s with daemon, stage := next } := by
  refine ⟨sound.1, ?_⟩
  dsimp only
  rw [same, resolver]
  exact sound.2

private theorem sound_proceed (sound : Sound env s) (ran : s.proceed env = some s') : Sound env s' := by
  have clock := sound.1
  cases stage : s.stage with
  | called =>
    simp only [Startup.proceed, stage] at ran
    split at ran
    · cases ran
      exact sound_failed clock rfl
    · cases isRoot : env.cgroupRoot with
      | none =>
        rw [isRoot] at ran
        cases ran
        exact sound_failed clock rfl
      | some root =>
        simp only [isRoot] at ran
        split at ran
        · rename_i dir
          cases ran
          simp only [Sound, stage, phase] at sound
          exact ⟨clock, sound.2.1, sound.2.2, root, isRoot, walking_start dir⟩
        · cases ran
          exact sound_failed clock rfl
  | scanning w =>
    simp only [Startup.proceed, stage] at ran
    simp only [Sound, stage, phase] at sound
    obtain ⟨-, early, quiet, root, isRoot, walking⟩ := sound
    split at ran
    · rename_i done
      cases ran
      exact ⟨clock, early, quiet, root, _, isRoot, rfl, stitch_rescans (done ▸ walking.stitch)⟩
    · rename_i waiting
      cases ran
      obtain ⟨x, rest, head⟩ := List.exists_cons_of_ne_nil waiting
      exact ⟨clock, early, quiet, root, isRoot, walking_visit walking head⟩
  | loadingSinks =>
    simp only [Startup.proceed, stage] at ran
    cases ran
    by_cases noSinks : (s.daemon.startSinks env.toOutcomes).sinks = []
    · exact sound_failed clock (by rw [if_pos noSinks]; rfl)
    · exact sound_same sound (by rw [if_neg noSinks, stage]; rfl) (DaemonFrames.resolver_start_sinks _ _)
  | buildingPipeline =>
    simp only [Startup.proceed, stage] at ran
    cases ran
    exact sound_same sound (by rw [stage]; rfl) (DaemonProofs.wire_sinks_resolver _)
  | openingWatcher =>
    simp only [Startup.proceed, stage] at ran
    cases ran
    cases env.watcher.opened with
    | false => exact sound_failed clock rfl
    | true => exact sound_same sound (by rw [stage]; rfl) rfl
  | loadingWatcher =>
    simp only [Startup.proceed, stage] at ran
    cases ran
    cases env.watcher.loaded with
    | false => exact sound_failed clock rfl
    | true => exact sound_same sound (by rw [stage]; rfl) rfl
  | attachingWatcher =>
    simp only [Startup.proceed, stage] at ran
    simp only [Sound, stage, phase] at sound
    obtain ⟨-, early, quiet, root, r, isRoot, held, stitch⟩ := sound
    split at ran
    · cases ran
      refine ⟨clock, rfl, root, r, isRoot, held, ?_⟩
      dsimp only
      rw [quiet]
      exact stitch_attach stitch
    · cases ran
      exact sound_failed clock rfl
  | armingWatcher =>
    simp only [Startup.proceed, stage] at ran
    split at ran
    · cases ran
      exact sound_failed clock rfl
    · cases ran
      exact sound_same sound (by rw [stage]; rfl) rfl
  | startingProbes =>
    simp only [Startup.proceed, stage] at ran
    cases ran
    cases decide ((s.daemon.startProbes env.toOutcomes).probes ≠ []) with
    | false => exact sound_failed clock rfl
    | true => exact sound_same sound (by rw [stage]; rfl) (DaemonFrames.resolver_start_probes _ _)
  | returned ok =>
    simp only [Startup.proceed, stage] at ran
    cases ran

private theorem sound_dispatch (sound : Sound env s) (ran : s.step env .dispatch = some s') : Sound env s' := by
  obtain ⟨clock, sound⟩ := sound
  simp only [Startup.step] at ran
  split at ran
  · rename_i stage ring resolved
    cases ran
    simp only [stage, phase] at sound
    obtain ⟨attached, root, r, isRoot, held, stitch⟩ := sound
    rw [held] at resolved
    cases resolved
    rw [ring] at stitch
    refine ⟨clock, ?_⟩
    simp only [stage, phase]
    exact ⟨attached, root, _, isRoot, rfl, stitch⟩
  · cases ran

theorem sound_step {a : StartupStep} (sound : Sound env s) (seen : Seen env s a) (ran : s.step env a = some s') :
    Sound env s' := by
  cases a with
  | advance later =>
    simp only [Startup.step] at ran
    split at ran
    · rename_i forward
      cases ran
      refine ⟨fun zero : later = 0 => sound.1 ?_, sound.2⟩
      rw [zero] at forward
      exact UInt64.le_antisymm forward UInt64.zero_le
    · cases ran
  | mkdir n lost =>
    obtain ⟨tree', made, rfl⟩ := Option.map_eq_some_iff.mp ran
    exact sound_mkdir sound seen made
  | rmdir path lost =>
    simp only [Startup.step] at ran
    split at ran
    · cases ran
    · rename_i found
      obtain ⟨tree', removed, rfl⟩ := Option.map_eq_some_iff.mp ran
      obtain ⟨member, rfl⟩ := stat_some.mp found
      exact sound_rmdir sound member seen removed
  | proceed => exact sound_proceed sound ran
  | dispatch => exact sound_dispatch sound ran

/-! ### Left alone, the stages are `Daemon::start` -/

/-- `start` goes on while nothing else happens. -/
def Through (env : StartOutcomes) : Startup → Startup → Prop :=
  Relation.ReflTransGen fun s s' => s.proceed env = some s'

private theorem through_walk (fuel : Nat) (still : s.tree = env.tree) (stage : s.stage = .scanning w) :
    Through env s { s with stage := .scanning (addSubtreeLoop env.bootOffsetNs env.tree fuel w) } := by
  induction fuel generalizing w s with
  | zero =>
    rw [addSubtreeLoop, ← stage]
    exact .refl
  | succ fuel ih =>
    rw [addSubtreeLoop]
    by_cases done : w.stack = []
    · rw [if_pos done, ← stage]
      exact .refl
    · rw [if_neg done]
      let visited : Startup := { s with stage := .scanning (addSubtreeStep env.bootOffsetNs env.tree w) }
      have first : s.proceed env = some visited := by
        simp only [Startup.proceed, stage, if_neg done, visited, ← still]
      have later : Through env visited _ := ih (s := visited) still rfl
      exact .head first later

private theorem through_watcher (stage : s.stage = .openingWatcher) :
    ∃ s', Through env s s' ∧ s'.stage = .returned (fromWatcher env s.daemon).1 ∧
      s'.daemon = (fromWatcher env s.daemon).2 := by
  have opening : s.proceed env =
      some { s with stage := if env.watcher.opened then .loadingWatcher else .returned false } := by
    simp only [Startup.proceed, stage]
  let loading : Startup := { s with stage := .loadingWatcher }
  let attaching : Startup := { s with stage := .attachingWatcher }
  let arming : Startup := { s with attached := true, stage := .armingWatcher }
  unfold fromWatcher Daemon.startCgroupWatcher
  cases opened : env.watcher.opened with
  | false =>
    rw [opened] at opening
    exact ⟨_, .single opening, rfl, rfl⟩
  | true =>
    rw [opened] at opening
    have toLoading : Through env s loading := .single opening
    cases loaded : env.watcher.loaded with
    | false =>
      have fails : loading.proceed env = some { loading with stage := .returned false } := by
        simp [Startup.proceed, loading, loaded]
      exact ⟨_, toLoading.tail fails, rfl, rfl⟩
    | true =>
      have toAttaching : Through env s attaching :=
        toLoading.tail (by simp [Startup.proceed, loading, attaching, loaded])
      cases attaches : env.watcher.attached with
      | false =>
        have fails : attaching.proceed env = some { attaching with stage := .returned false } := by
          simp [Startup.proceed, attaching, attaches]
        exact ⟨_, toAttaching.tail fails, rfl, rfl⟩
      | true =>
        have toArming : Through env s arming :=
          toAttaching.tail (by simp [Startup.proceed, attaching, arming, attaches])
        rcases arms : s.daemon.loop.add .watcher .pipeline true env.watcher.armed with ⟨armed, loop⟩
        cases armed with
        | false =>
          let d : Daemon := { s.daemon with loop, trace := s.daemon.trace ++ [.detached .watcher] }
          have fails : arming.proceed env =
              some { arming with daemon := d, attached := false, stage := .returned false } := by
            simp [Startup.proceed, arming, arms, d]
          exact ⟨_, toArming.tail fails, rfl, rfl⟩
        | true =>
          let d : Daemon := { s.daemon with loop, cgroupWatcher := true }
          let probing : Startup := { arming with daemon := d, stage := .startingProbes }
          have toProbing : Through env s probing :=
            toArming.tail (by simp [Startup.proceed, arming, probing, arms, d])
          exact ⟨_, toProbing.tail rfl, rfl, rfl⟩

private theorem through_no_sinks (stage : s.stage = .loadingSinks) (none : (s.daemon.startSinks env.toOutcomes).sinks = []) :
    Through env s { s with daemon := s.daemon.startSinks env.toOutcomes, stage := .returned false } := by
  refine .single ?_
  simp only [Startup.proceed, stage, if_pos none]

private theorem through_sinks (stage : s.stage = .loadingSinks) (some' : (s.daemon.startSinks env.toOutcomes).sinks ≠ []) :
    let loaded := s.daemon.startSinks env.toOutcomes
    ∃ s', Through env s s' ∧ s'.stage = .returned (loaded.startFromPipeline env).1 ∧
      s'.daemon = (loaded.startFromPipeline env).2 := by
  intro loaded
  have loads : s.proceed env = some { s with daemon := loaded, stage := .buildingPipeline } := by
    simp only [Startup.proceed, stage, if_neg some', loaded]
  obtain ⟨s', later, returned, daemon⟩ :=
    @through_watcher env { s with daemon := piped loaded env.now, stage := .openingWatcher } rfl
  exact ⟨s', .head loads (.head rfl later), returned, daemon⟩

/-- With the tree holding still, the stages lead to what `Daemon.start`
computes in one go. -/
theorem start_staged (env : StartOutcomes) (s : Startup) (called : s.stage = .called) (still : s.tree = env.tree) :
    ∃ s', Through env s s' ∧ s'.stage = .returned (s.daemon.start env).1 ∧ s'.daemon = (s.daemon.start env).2 := by
  unfold Daemon.start Daemon.startToPipeline
  by_cases noPlugins : s.daemon.config.pluginDir = []
  · refine ⟨{ s with stage := .returned false }, .single ?_, ?_, ?_⟩ <;>
      simp [Startup.proceed, called, noPlugins]
  · rw [if_neg noPlugins]
    cases isRoot : env.cgroupRoot with
    | none =>
      refine ⟨{ s with stage := .returned false }, .single ?_, rfl, rfl⟩
      simp [Startup.proceed, called, noPlugins, isRoot]
    | some root =>
      cases dir : env.tree.isDir root with
      | false =>
        have verdict : CgroupResolver.start env.bootOffsetNs env.tree { root } = (false, { root }) := by
          simp [CgroupResolver.start, dir]
        simp only [verdict]
        refine ⟨{ s with daemon := { s.daemon with resolver := some { root } }, stage := .returned false },
          .single ?_, rfl, rfl⟩
        simp [Startup.proceed, called, noPlugins, isRoot, still, dir]
      | true =>
        let scanned := CgroupResolver.scan env.bootOffsetNs env.tree { root }
        have verdict : CgroupResolver.start env.bootOffsetNs env.tree { root } = (true, scanned) := by
          simp [CgroupResolver.start, dir, scanned]
        simp only [verdict]
        let scanning : Startup := { s with stage := .scanning ⟨{ root }, [root]⟩ }
        have first : s.proceed env = some scanning := by
          simp [Startup.proceed, called, noPlugins, isRoot, still, dir, scanning]
        have walk : Through env scanning _ := through_walk (env.tree.nodes.length + 1) still rfl
        have done : (addSubtreeLoop env.bootOffsetNs env.tree (env.tree.nodes.length + 1)
            ⟨{ root }, [root]⟩).stack = [] := (add_subtree_learns { root } rfl dir).1
        let sinking : Startup := { s with daemon := { s.daemon with resolver := some scanned }, stage := .loadingSinks }
        have walked : Through env s sinking := by
          refine .head first (walk.tail ?_)
          simp only [Startup.proceed]
          rw [if_pos done]
          rfl
        by_cases none : (sinking.daemon.startSinks env.toOutcomes).sinks = []
        · rw [decide_eq_false (not_not.mpr none)]
          exact ⟨_, walked.trans (through_no_sinks rfl none), rfl, rfl⟩
        · rw [decide_eq_true none]
          obtain ⟨s', later, returned, daemon⟩ := through_sinks rfl none
          exact ⟨s', walked.trans later, returned, daemon⟩

/-- In a run in which every job cgroup comes and goes where the walk or the
feed sees it, the map has no hole once `start` is through and the ring is
drained. -/
theorem no_hole (env : StartOutcomes) (s : Startup)
    (reached : Runs Called (Startup.step env) (Seen env) s) : NoHole env s := by
  have sound : Sound env s := by
    refine reached.invariant ?_ fun _ _ _ held meets ran => sound_step held meets ran
    rintro s ⟨stage, early, quiet, clock⟩
    refine ⟨clock, ?_⟩
    rw [stage]
    exact ⟨early, quiet⟩
  intro stage drained
  have listening := sound.2
  simp only [stage, phase, drained, List.foldl_nil] at listening
  obtain ⟨_, root, r, isRoot, held, stitch⟩ := listening
  exact ⟨root, r, isRoot, held, consistent_of_stitch stitch⟩

/-! ### A job on either side of the attach -/

def oneEach : Config where
  pluginDir := ascii "plugins"
  sinks := .ofList [(ascii "null", ComponentConfig.mk ∅)]
  probes := .ofList [(ascii "oom", ComponentConfig.mk ∅)]

/-- `start` is about to run on a bare node on which everything works. -/
def bareStart : Startup where
  daemon := .new oneEach []
  tree := DaemonRuns.bareTree
  now := 5

def jobOne : Node := ⟨[ascii "job_1"], 2, true, .dir, 0⟩

/-- The start after some of its steps. -/
def after (steps : List StartupStep) : Startup :=
  (steps.foldlM (Startup.step DaemonRuns.allUp) bareStart).getD bareStart

/-- The job arrives right after the watcher has been attached. -/
def afterAttach : List StartupStep :=
  List.replicate 8 .proceed ++ .mkdir jobOne false :: [.proceed, .proceed, .dispatch]

private theorem bare_called : Called bareStart := ⟨rfl, rfl, rfl, by decide⟩

theorem no_hole_after_attach : NoHole DaemonRuns.allUp (after afterAttach) := by
  have attached : Runs Called (Startup.step DaemonRuns.allUp) (Seen DaemonRuns.allUp)
      (after (List.replicate 8 .proceed)) := by
    refine Runs.along (.start bare_called) (List.replicate 8 .proceed) ?_ rfl
    intro a member s
    rw [List.eq_of_mem_replicate member]
    trivial
  have created : Runs Called (Startup.step DaemonRuns.allUp) (Seen DaemonRuns.allUp)
      (after (List.replicate 8 .proceed ++ [.mkdir jobOne false])) := by
    refine Runs.next (a := .mkdir jobOne false) attached ?_ rfl
    have listens : (after (List.replicate 8 .proceed)).attached = true := by decide
    simp only [Seen, listens, ↓reduceIte]
    decide
  refine no_hole _ _ (Runs.along created [.proceed, .proceed, .dispatch] ?_ rfl)
  intro a member s
  simp only [List.mem_cons, List.not_mem_nil, or_false] at member
  rcases member with rfl | rfl | rfl <;> trivial

/-- The job arrives while the sinks are being loaded. -/
def whileLoading : List StartupStep :=
  List.replicate 4 .proceed ++ .mkdir jobOne false :: List.replicate 6 .proceed

/-- `start` returned true. -/
def up (stage : Stage) : Bool :=
  match stage with
  | .returned ok => ok
  | _ => false

private theorem up_iff (stage : Stage) : up stage = true ↔ stage = .returned true := by
  cases stage <;> simp [up]

/-- Neither the walk nor the feed ever sees it. -/
theorem job_in_the_gap_is_missed :
    ¬ ∀ env s, Runs Called (Startup.step env) Anything s → NoHole env s := by
  intro promise
  have shape : (whileLoading.foldlM (Startup.step DaemonRuns.allUp) bareStart).map (fun s =>
      (up s.stage, s.ring, s.tree.nodes,
        s.daemon.resolver.map fun r => r.entries.lookup jobOne.ino)) =
      some (true, [], DaemonRuns.bareTree.nodes ++ [jobOne], some none) := by decide
  obtain ⟨s, ran, shows⟩ := Option.map_eq_some_iff.mp shape
  simp only [Prod.mk.injEq, Option.map_eq_some_iff] at shows
  obtain ⟨returned, drained, nodes, r, held, unknown⟩ := shows
  have stage := (up_iff s.stage).mp returned
  obtain ⟨root, r', isRoot, held', consistent⟩ :=
    promise DaemonRuns.allUp s (Runs.steps (.start bare_called) whileLoading ran) stage drained
  rw [held] at held'
  cases held'
  cases isRoot
  obtain ⟨e, found, _⟩ := consistent.known jobOne (by simp [nodes]) { jobId := 1 } ⟨rfl, by decide, by decide⟩
  rw [unknown] at found
  cases found

end SlurmTracer.StartupHole
