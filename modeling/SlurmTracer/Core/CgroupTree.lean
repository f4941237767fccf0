import SlurmTracer.Core.Attribution

/-! The directory tree under the cgroup mount as `stat`, `opendir` and
`readdir` report it, and the resolver's one-time walk over it. -/
namespace SlurmTracer.Core
open Lib

/-- `dirent::d_type`. Some kernels report `DT_UNKNOWN` for cgroupfs entries. -/
inductive DType where
  | dir | unknown | other
  deriving DecidableEq

/-- One entry of the tree: its path, what `stat` says, and the `d_type` its
parent's listing carries for it. -/
structure Node where
  path : Path
  ino : UInt64
  isDir : Bool
  dType : DType
  /-- `st_ctim` in nanoseconds of `CLOCK_REALTIME`. -/
  ctimeNs : UInt64 := 0
  deriving DecidableEq

def dot : Bytes := ascii "."
def dotdot : Bytes := ascii ".."

/-- What the kernel accepts as the name of one entry. -/
def ValidName (name : Bytes) : Prop :=
  name ≠ [] ∧ slash ∉ name ∧ name ≠ dot ∧ name ≠ dotdot

instance (name : Bytes) : Decidable (ValidName name) := by
  unfold ValidName
  infer_instance

/-- A tree without symbolic links, with distinct inode numbers, whose listing
types are right or unknown. -/
structure CgroupTree where
  nodes : List Node
  pathsDistinct : (nodes.map Node.path).Nodup
  inosDistinct : (nodes.map Node.ino).Nodup
  parents : ∀ n ∈ nodes, n.path ≠ [] → ∃ parent ∈ nodes, parent.path = n.path.dropLast ∧ parent.isDir = true
  names : ∀ n ∈ nodes, ∀ name ∈ n.path, ValidName name
  types : ∀ n ∈ nodes, if n.isDir then n.dType ≠ .other else n.dType ≠ .dir

namespace CgroupTree

def stat (tree : CgroupTree) (path : Path) : Option Node :=
  tree.nodes.find? fun n => n.path = path

/-- `is_dir`. -/
def isDir (tree : CgroupTree) (path : Path) : Bool :=
  match tree.stat path with
  | some n => n.isDir
  | none => false

/-- The entries below a directory, without the two dots. -/
def children (tree : CgroupTree) (path : Path) : List (Bytes × DType) :=
  tree.nodes.filterMap fun n =>
    if n.path.dropLast = path then n.path.getLast?.map fun name => (name, n.dType) else none

/-- Everything `readdir` returns for a directory. -/
def readdir (tree : CgroupTree) (path : Path) : List (Bytes × DType) :=
  (dot, .dir) :: (dotdot, .dir) :: tree.children path

/-- The kernel's mkdir: below a directory, with a path and an inode number
nothing else has. -/
def mkdir (tree : CgroupTree) (n : Node) : Option CgroupTree :=
  if allowed : n.isDir = true ∧ n.dType ≠ .other ∧ (∀ name ∈ n.path, ValidName name) ∧
      (∃ parent ∈ tree.nodes, parent.path = n.path.dropLast ∧ parent.isDir = true) ∧
      ∀ m ∈ tree.nodes, m.path ≠ n.path ∧ m.ino ≠ n.ino then
    some
      { nodes := tree.nodes ++ [n]
        pathsDistinct := by
          have fresh := allowed.2.2.2.2
          simpa [List.nodup_append, tree.pathsDistinct] using fun m member => (fresh m member).1
        inosDistinct := by
          have fresh := allowed.2.2.2.2
          simpa [List.nodup_append, tree.inosDistinct] using fun m member => (fresh m member).2
        parents := by
          intro m member deep
          rcases List.mem_append.mp member with old | new
          · obtain ⟨parent, there, above⟩ := tree.parents m old deep
            exact ⟨parent, List.mem_append_left _ there, above⟩
          · obtain ⟨parent, there, above⟩ := allowed.2.2.2.1
            rw [List.mem_singleton.mp new]
            exact ⟨parent, List.mem_append_left _ there, above⟩
        names := by
          intro m member
          rcases List.mem_append.mp member with old | new
          · exact tree.names m old
          · rw [List.mem_singleton.mp new]
            exact allowed.2.2.1
        types := by
          intro m member
          rcases List.mem_append.mp member with old | new
          · exact tree.types m old
          · rw [List.mem_singleton.mp new, if_pos allowed.1]
            exact allowed.2.1 }
  else none

/-- The kernel's rmdir: a directory without subdirectories goes, with the files
in it. -/
def rmdir (tree : CgroupTree) (path : Path) : Option CgroupTree :=
  if path ≠ [] ∧ tree.isDir path = true ∧
      ∀ m ∈ tree.nodes, path <+: m.path → m.path ≠ path → m.isDir = false then
    some
      { nodes := tree.nodes.filter fun m => ¬ path <+: m.path
        pathsDistinct := tree.pathsDistinct.sublist (List.filter_sublist.map Node.path)
        inosDistinct := tree.inosDistinct.sublist (List.filter_sublist.map Node.ino)
        parents := by
          intro m member deep
          obtain ⟨stays, apart⟩ := List.mem_filter.mp member
          obtain ⟨parent, there, place, dir⟩ := tree.parents m stays deep
          refine ⟨parent, List.mem_filter.mpr ⟨there, ?_⟩, place, dir⟩
          rw [decide_eq_true_eq] at apart ⊢
          exact fun above => apart ((place ▸ above).trans (List.dropLast_prefix m.path))
        names := fun m member => tree.names m (List.mem_of_mem_filter member)
        types := fun m member => tree.types m (List.mem_of_mem_filter member) }
  else none

end CgroupTree

/-- `created_from_ctime`, with `boot_offset_ns()` passed in. -/
def createdFromCtime (bootOffsetNs : UInt64) (n : Node) : UInt64 :=
  if n.ctimeNs > bootOffsetNs then n.ctimeNs - bootOffsetNs else 0

namespace CgroupResolver

/-- `add_dir`: the inode number is the cgroup id. -/
def addDir (bootOffsetNs : UInt64) (tree : CgroupTree) (r : CgroupResolver) (path : Path) :
    CgroupResolver :=
  match tree.stat path with
  | none => r
  | some n =>
    match parseCgroupPath (pathString path) with
    | none => r
    | some attr =>
      { r with entries := r.entries.insert n.ino { attr, createdNs := createdFromCtime bootOffsetNs n } }

/-- The walk between two turns of the outer loop; the stack's back is the
head of the list. -/
structure Walk where
  resolver : CgroupResolver
  stack : List Path

/-- The `readdir` loop over one directory. -/
def pushChildren (tree : CgroupTree) (current : Path) (stack : List Path) : List Path :=
  (tree.readdir current).foldl (fun stack ent =>
    if ent.1 = dot ∨ ent.1 = dotdot then stack
    else
      let child := current ++ [ent.1]
      if ent.2 = .dir ∨ (ent.2 = .unknown ∧ tree.isDir child = true) then child :: stack else stack) stack

/-- One turn of the outer loop of `add_subtree`. -/
def addSubtreeStep (bootOffsetNs : UInt64) (tree : CgroupTree) (w : Walk) : Walk :=
  match w.stack with
  | [] => w
  | current :: rest =>
    let resolver := if current ≠ w.resolver.root then addDir bootOffsetNs tree w.resolver current
      else w.resolver
    if tree.isDir current then ⟨resolver, pushChildren tree current rest⟩
    else ⟨resolver, rest⟩ -- opendir failed

/-- `add_subtree` on a tree that holds still. -/
def addSubtreeLoop (bootOffsetNs : UInt64) (tree : CgroupTree) : Nat → Walk → Walk
  | 0, w => w
  | fuel + 1, w =>
    if w.stack = [] then w else addSubtreeLoop bootOffsetNs tree fuel (addSubtreeStep bootOffsetNs tree w)

/-- Every turn takes one directory off the stack for good, so there are never
more turns than nodes. -/
def addSubtree (bootOffsetNs : UInt64) (tree : CgroupTree) (r : CgroupResolver) (dir : Path) : Walk :=
  addSubtreeLoop bootOffsetNs tree (tree.nodes.length + 1) ⟨r, [dir]⟩

def scan (bootOffsetNs : UInt64) (tree : CgroupTree) (r : CgroupResolver) : CgroupResolver :=
  let scanned := (addSubtree bootOffsetNs tree r r.root).resolver
  { scanned with stats.rescans := scanned.stats.rescans + 1 }

/-- `start`: false only when the root is not a directory. -/
def start (bootOffsetNs : UInt64) (tree : CgroupTree) (r : CgroupResolver) : Bool × CgroupResolver :=
  if tree.isDir r.root then (true, r.scan bootOffsetNs tree) else (false, r)

end CgroupResolver

end SlurmTracer.Core
