import SlurmTracer.AttributionProofs
import SlurmTracer.WalkProofs

/-! The two ways a cgroup becomes known, the bootstrap walk and the live feed,
against the contract of `parse_cgroup_path`: job work strictly below the root,
by its path relative to the root. -/
namespace SlurmTracer.WalkAndFeed
open Lib SlurmTracer.Core Core.CgroupResolver ResolverProofs WalkProofs AttributionProofs

/-- `d` lies strictly below `root`. -/
def StrictlyBelow (root d : Path) : Prop := root <+: d ∧ d ≠ root

instance (root d : Path) : Decidable (StrictlyBelow root d) := by
  unfold StrictlyBelow
  infer_instance

/-- What the contract says about a directory: its relative path decides. -/
def promised (root d : Path) : Option Attribution :=
  if StrictlyBelow root d then parseCgroupPath (pathString (d.drop root.length)) else none

/-- What is stored for a directory once `start` has walked the tree. -/
def learnedByWalk (bootOffsetNs : UInt64) (tree : CgroupTree) (root : Path) (n : Node) :
    Option Attribution :=
  ((start bootOffsetNs tree { root }).2.entries.lookup n.ino).map Entry.attr

/-- What is stored for a directory once its creation has been delivered. -/
def learnedByFeed (root : Path) (n : Node) (createdNs : UInt64) : Option Attribution :=
  ((onCreated { root } n.ino (pathString n.path) createdNs).entries.lookup n.ino).map Entry.attr

/-- Both ways store what the contract promises for this directory. -/
def Agree (bootOffsetNs createdNs : UInt64) (tree : CgroupTree) (root : Path) (n : Node) : Prop :=
  learnedByWalk bootOffsetNs tree root n = promised root n.path ∧
    learnedByFeed root n createdNs = promised root n.path

/-- Below the root, either the root itself carries no job segment or the
relative path does; elsewhere, the path carries none. -/
def JobsOnlyBelow (root d : Path) : Prop :=
  if StrictlyBelow root d then
    (∀ seg ∈ root, ¬ IsJobSegment seg) ∨ ∃ seg ∈ d.drop root.length, IsJobSegment seg
  else ∀ seg ∈ d, ¬ IsJobSegment seg

variable {tree : CgroupTree} {root d : Path} {n : Node}

/-- The feed takes any path at its word. -/
theorem learned_by_feed (createdNs : UInt64) :
    learnedByFeed root n createdNs = parseCgroupPath (pathString n.path) := by
  unfold learnedByFeed
  rw [lookup_on_created, if_pos rfl]
  cases parseCgroupPath (pathString n.path) <;> rfl

/-- What a `start` on an empty map learns, whether or not the root is there. -/
theorem start_learns (bootOffsetNs key : UInt64) (e : Entry) (r : CgroupResolver) (fresh : r.entries = ∅) :
    (start bootOffsetNs tree r).2.entries.lookup key = some e ↔
      ∃ path, r.root <+: path ∧ path ≠ r.root ∧ tree.isDir path = true ∧
        Visits bootOffsetNs tree path key e := by
  unfold start
  split
  · rename_i dir
    exact (add_subtree_learns r fresh dir).2 key e
  · rename_i missing
    simp only [fresh, AList.lookup_empty, reduceCtorEq, false_iff]
    rintro ⟨path, above, strict, dir, _⟩
    obtain ⟨m, member, place, _⟩ := is_dir_iff.mp dir
    exact missing (ancestor_is_dir member (place ▸ above) (place ▸ strict))

/-- The walk is confined to the root but parses the absolute path as well. -/
theorem learned_by_walk (bootOffsetNs : UInt64) (member : n ∈ tree.nodes) (dir : n.isDir = true) :
    learnedByWalk bootOffsetNs tree root n =
      if StrictlyBelow root n.path then parseCgroupPath (pathString n.path) else none := by
  have found : tree.stat n.path = some n := stat_some.mpr ⟨member, rfl⟩
  apply Option.ext
  intro attr
  simp only [learnedByWalk, Option.map_eq_some_iff, start_learns _ _ _ { root } rfl]
  constructor
  · rintro ⟨e, ⟨path, above, strict, _, m, attr', found', parsed, sameId, rfl⟩, rfl⟩
    obtain ⟨member', place⟩ := stat_some.mp found'
    have samePath : path = n.path := by
      rw [← place, List.inj_on_of_nodup_map tree.inosDistinct member' member sameId]
    subst samePath
    rw [if_pos ⟨above, strict⟩]
    exact parsed
  · intro parsed
    obtain ⟨⟨above, strict⟩, parsed⟩ := Option.ite_none_right_eq_some.mp parsed
    exact ⟨_, ⟨n.path, above, strict, is_dir_iff.mpr ⟨n, member, rfl, dir⟩, n, attr, found, parsed, rfl, rfl⟩, rfl⟩

/-- Below the root, the absolute and the relative path mean the same exactly
when no job segment of the root stands alone. -/
private theorem absolute_means_relative (below : StrictlyBelow root d)
    (valid : ∀ name ∈ d, name ≠ [] ∧ slash ∉ name) :
    parseCgroupPath (pathString d) = parseCgroupPath (pathString (d.drop root.length)) ↔
      (∀ seg ∈ root, ¬ IsJobSegment seg) ∨ ∃ seg ∈ d.drop root.length, IsJobSegment seg := by
  obtain ⟨⟨tail, rfl⟩, _⟩ := below
  rw [List.drop_left]
  have whole := split_path_string (root ++ tail) valid
  have relative := split_path_string tail fun name member => valid name (List.mem_append_right _ member)
  by_cases job : ∃ seg ∈ tail, IsJobSegment seg
  · have same := parse_ignores_front (pathString tail) (pathString (root ++ tail)) root
      (by rw [whole, relative]) (by rw [relative]; exact job)
    exact iff_of_true same (.inr job)
  · have none : parseCgroupPath (pathString tail) = none := by
      rw [parse_none_iff, relative]
      exact fun seg member isJob => job ⟨seg, member, isJob⟩
    rw [none, parse_none_iff, whole]
    constructor
    · exact fun clean => .inl fun seg member => clean seg (List.mem_append_left _ member)
    · rintro (clean | found) seg member isJob
      · rcases List.mem_append.mp member with member | member
        · exact clean seg member isJob
        · exact job ⟨seg, member, isJob⟩
      · exact job found

/-- The walk and the feed both honour the contract for a directory exactly
when job segments occur where the contract expects them. -/
theorem agree_iff_jobs_only_below (bootOffsetNs createdNs : UInt64) (tree : CgroupTree) (root : Path)
    (n : Node) (member : n ∈ tree.nodes) (dir : n.isDir = true) :
    Agree bootOffsetNs createdNs tree root n ↔ JobsOnlyBelow root n.path := by
  have valid : ∀ name ∈ n.path, name ≠ [] ∧ slash ∉ name := fun name inside =>
    ⟨(tree.names n member name inside).1, (tree.names n member name inside).2.1⟩
  unfold Agree JobsOnlyBelow promised
  rw [learned_by_feed, learned_by_walk bootOffsetNs member dir]
  by_cases below : StrictlyBelow root n.path
  · simp only [below, ↓reduceIte, and_self]
    exact absolute_means_relative below valid
  · simp only [below, ↓reduceIte, true_and]
    rw [parse_none_iff, split_path_string n.path valid]

/-- A node with one job below the Slurm root and a look-alike elsewhere. -/
def lookAlikeTree : CgroupTree where
  nodes := [⟨[], 1, true, .dir, 0⟩, ⟨[ascii "slurm"], 2, true, .dir, 0⟩,
    ⟨[ascii "slurm", ascii "job_7"], 3, true, .unknown, 0⟩, ⟨[ascii "job_8"], 4, true, .dir, 0⟩]
  pathsDistinct := by decide
  inosDistinct := by decide
  parents := by decide
  names := by decide
  types := by decide

theorem agree_iff_at_look_alike :
    Agree 0 5 lookAlikeTree [ascii "slurm"] ⟨[ascii "job_8"], 4, true, .dir, 0⟩ ↔
      JobsOnlyBelow [ascii "slurm"] [ascii "job_8"] :=
  agree_iff_jobs_only_below 0 5 lookAlikeTree [ascii "slurm"] ⟨[ascii "job_8"], 4, true, .dir, 0⟩
    (by decide) rfl

/-- The feed adopts a directory outside the root that is named like a job. -/
theorem look_alike_adopted :
    ¬ ∀ bootOffsetNs createdNs tree root (n : Node), n ∈ CgroupTree.nodes tree → n.isDir = true →
      Agree bootOffsetNs createdNs tree root n := by
  intro promise
  have agree := promise 0 5 lookAlikeTree [ascii "slurm"] ⟨[ascii "job_8"], 4, true, .dir, 0⟩
    (by decide) rfl
  have fed := agree.2
  rw [learned_by_feed] at fed
  revert fed
  decide

end SlurmTracer.WalkAndFeed
