import SlurmTracer.WalkAndFeed

/-!
The bootstrap walk with its calls of `add_dir` on record, each directory
listing its entries in whatever order it likes. However the tree is shaped, the
walk comes to an end having called `add_dir` once for every directory strictly
below the root, and the map then holds the job directories among them
(`walk_complete`).
-/
namespace SlurmTracer.WalkCompleteness
open Lib SlurmTracer.Core Core.CgroupResolver ResolverProofs WalkProofs AttributionProofs WalkAndFeed

/-- What `readdir` returns for each directory, the dots included, in the order
it happens to return it. -/
structure Listing (tree : CgroupTree) where
  entries : Path → List (Bytes × DType)
  whole : ∀ path, (entries path).Perm (tree.readdir path)

/-- `add_subtree` between two turns of its outer loop. -/
structure Traced where
  walk : Walk
  /-- The directories `add_dir` has been called for, in order. -/
  calls : List Path := []

/-- Where one entry of a listing leads the walk. -/
def leadsTo (tree : CgroupTree) (current : Path) (ent : Bytes × DType) : Option Path :=
  if ent.1 = dot ∨ ent.1 = dotdot then none
  else
    let child := current ++ [ent.1]
    if ent.2 = .dir ∨ (ent.2 = .unknown ∧ tree.isDir child = true) then some child else none

/-- The `readdir` loop over one listing. -/
def pushListed (tree : CgroupTree) (current : Path) (entries : List (Bytes × DType)) (stack : List Path) :
    List Path :=
  entries.foldl (fun stack ent =>
    match leadsTo tree current ent with
    | some child => child :: stack
    | none => stack) stack

variable {tree : CgroupTree}

/-- One turn of the outer loop. -/
def turn (bootOffsetNs : UInt64) (listing : Listing tree) (t : Traced) : Traced :=
  match t.walk.stack with
  | [] => t
  | current :: rest =>
    let stack := if tree.isDir current then pushListed tree current (listing.entries current) rest else rest
    if current ≠ t.walk.resolver.root then
      { walk := { resolver := addDir bootOffsetNs tree t.walk.resolver current, stack }
        calls := t.calls ++ [current] }
    else { t with walk := { t.walk with stack } }

def turns (bootOffsetNs : UInt64) (listing : Listing tree) : Nat → Traced → Traced
  | 0, t => t
  | fuel + 1, t =>
    if t.walk.stack = [] then t else turns bootOffsetNs listing fuel (turn bootOffsetNs listing t)

/-- `add_subtree`. -/
def traced (bootOffsetNs : UInt64) (listing : Listing tree) (r : CgroupResolver) (dir : Path) : Traced :=
  turns bootOffsetNs listing (tree.nodes.length + 1) { walk := { resolver := r, stack := [dir] } }

/-! ### One listing -/

variable {bootOffsetNs key : UInt64} {listing : Listing tree} {current x root : Path} {rest : List Path} {t : Traced}
  {e : Entry} {r : CgroupResolver}

theorem push_listed_eq (entries : List (Bytes × DType)) (stack : List Path) :
    pushListed tree current entries stack = (entries.filterMap (leadsTo tree current)).reverse ++ stack := by
  unfold pushListed
  induction entries generalizing stack with
  | nil => rfl
  | cons ent entries ih =>
    rw [List.foldl_cons, ih, List.filterMap_cons]
    cases leadsTo tree current ent with
    | none => rfl
    | some child => simp

/-- Read front to back, a listing is pushed as the source's own loop pushes it. -/
theorem push_children_listed (stack : List Path) :
    pushChildren tree current stack = pushListed tree current (tree.readdir current) stack := by
  unfold pushChildren pushListed leadsTo
  congr 1
  funext stack ent
  dsimp only
  split
  · rfl
  · split <;> rfl

/-- In any order, the same subdirectories are pushed. -/
theorem listed_perm (listing : Listing tree) (current : Path) :
    ((listing.entries current).filterMap (leadsTo tree current)).reverse.Perm (childDirs tree current) := by
  have inOrder : pushListed tree current (tree.readdir current) [] = _ := push_listed_eq _ _
  rw [← push_children_listed, push_children_eq, List.append_nil, List.append_nil] at inOrder
  rw [inOrder]
  exact (List.reverse_perm _).trans (((listing.whole current).filterMap _).trans (List.reverse_perm _).symm)

theorem turn_stack (bootOffsetNs : UInt64) (listing : Listing tree) (head : t.walk.stack = x :: rest) :
    ∃ children, children.Perm (childDirs tree x) ∧
      (turn bootOffsetNs listing t).walk.stack = children ++ rest := by
  have stack : (turn bootOffsetNs listing t).walk.stack =
      if tree.isDir x then pushListed tree x (listing.entries x) rest else rest := by
    unfold turn
    rw [head]
    dsimp only
    split <;> rfl
  rw [stack]
  split
  · exact ⟨_, listed_perm listing x, push_listed_eq _ _⟩
  · rename_i gone
    exact ⟨[], by rw [child_dirs_nil gone], rfl⟩

/-- The listing that `readdir` gives in the model of the tree. -/
def inOrder (tree : CgroupTree) : Listing tree := ⟨tree.readdir, fun _ => List.Perm.refl _⟩

/-- In that order, and with the calls forgotten, this is the walk of `scan`. -/
theorem traced_walk (bootOffsetNs : UInt64) (tree : CgroupTree) (r : CgroupResolver) (dir : Path) :
    (traced bootOffsetNs (inOrder tree) r dir).walk = addSubtree bootOffsetNs tree r dir := by
  have step : ∀ t, (turn bootOffsetNs (inOrder tree) t).walk = addSubtreeStep bootOffsetNs tree t.walk := by
    intro t
    unfold turn addSubtreeStep
    cases t.walk.stack with
    | nil => rfl
    | cons current rest =>
      simp only [inOrder, push_children_listed]
      split <;> split <;> rfl
  have loop : ∀ fuel t, (turns bootOffsetNs (inOrder tree) fuel t).walk =
      addSubtreeLoop bootOffsetNs tree fuel t.walk := by
    intro fuel
    induction fuel with
    | zero => exact fun _ => rfl
    | succ fuel ih =>
      intro t
      unfold turns addSubtreeLoop
      split
      · rfl
      · rw [ih, step]
  exact loop _ _

/-! ### The whole walk -/

/-- The root and the directories strictly below it. -/
def known (tree : CgroupTree) (root : Path) : List Path :=
  root :: (tree.nodes.filter fun n => n.isDir && decide (StrictlyBelow root n.path)).map Node.path

theorem mem_known {p : Path} : p ∈ known tree root ↔ p = root ∨ StrictlyBelow root p ∧ tree.isDir p = true := by
  unfold known
  simp only [List.mem_cons, List.mem_map, List.mem_filter, Bool.and_eq_true, decide_eq_true_eq, is_dir_iff]
  refine or_congr_right ⟨?_, ?_⟩
  · rintro ⟨n, ⟨member, dir, below⟩, rfl⟩
    exact ⟨below, n, member, rfl, dir⟩
  · rintro ⟨below, n, member, rfl, dir⟩
    exact ⟨n, ⟨member, dir, below⟩, rfl⟩

theorem known_rooted {p : Path} (member : p ∈ known tree root) : root <+: p := by
  rcases mem_known.mp member with rfl | ⟨below, -⟩
  · exact List.prefix_refl p
  · exact below.1

theorem known_unique : (known tree root).Nodup := by
  refine List.nodup_cons.mpr ⟨?_, tree.pathsDistinct.sublist (List.filter_sublist.map Node.path)⟩
  intro member
  obtain ⟨n, held, same⟩ := List.mem_map.mp member
  obtain ⟨-, chosen⟩ := List.mem_filter.mp held
  rw [Bool.and_eq_true, decide_eq_true_eq] at chosen
  exact chosen.2.2 same

theorem known_length : (known tree root).length ≤ tree.nodes.length + 1 := by
  unfold known
  rw [List.length_cons, List.length_map]
  exact Nat.succ_le_succ (List.length_filter_le _ _)

theorem known_expands {children : List Path} (member : x ∈ known tree root)
    (same : children.Perm (childDirs tree x)) : Expands (known tree root) x children where
  below := fun child listed => (mem_child_dirs.mp (same.mem_iff.mp listed)).1
  within := by
    intro child listed
    obtain ⟨⟨name, rfl⟩, dir⟩ := mem_child_dirs.mp (same.mem_iff.mp listed)
    have above := known_rooted member
    refine mem_known.mpr (.inr ⟨⟨above.trans (List.prefix_append x [name]), ?_⟩, dir⟩)
    rintro rfl
    exact child_not_above x name above
  listed := by
    intro p known name onTheWay
    refine same.mem_iff.mpr (mem_child_dirs.mpr ⟨⟨name, rfl⟩, ?_⟩)
    rcases mem_known.mp known with rfl | ⟨-, dir⟩
    · exact absurd (onTheWay.trans (known_rooted member)) (child_not_above x name)
    · by_cases bottom : p = x ++ [name]
      · exact bottom ▸ dir
      · obtain ⟨n, held, place, -⟩ := is_dir_iff.mp dir
        exact ancestor_is_dir held (place ▸ onTheWay) (place ▸ bottom)
  distinct := same.nodup_iff.mpr child_dirs_distinct

/-- With these directories visited, `add_dir` has been called for each of them
but the root, and the resolver is what those calls made of `r`. -/
structure Progress (bootOffsetNs : UInt64) (tree : CgroupTree) (r : CgroupResolver) (visited : List Path)
    (t : Traced) : Prop where
  walked : Walked (known tree r.root) visited t.walk.stack
  calls : t.calls = visited.filter fun path => path ≠ r.root
  learned : t.walk.resolver = t.calls.foldl (addDir bootOffsetNs tree) r

theorem add_dirs_root (calls : List Path) (r : CgroupResolver) :
    (calls.foldl (addDir bootOffsetNs tree) r).root = r.root := by
  induction calls generalizing r with
  | nil => rfl
  | cons path calls ih => rw [List.foldl_cons, ih, add_dir_root]

theorem progress_turn {visited : List Path} (progress : Progress bootOffsetNs tree r visited t)
    (head : t.walk.stack = x :: rest) :
    Progress bootOffsetNs tree r (visited ++ [x]) (turn bootOffsetNs listing t) := by
  have walked := head ▸ progress.walked
  have sameRoot : t.walk.resolver.root = r.root := by rw [progress.learned, add_dirs_root]
  refine ⟨?_, ?_, ?_⟩
  · obtain ⟨children, same, stack⟩ := turn_stack bootOffsetNs listing head
    rw [stack]
    exact walked_visit walked (known_expands (walked.within x List.mem_cons_self) same)
  · unfold turn
    rw [head, List.filter_append, ← progress.calls, sameRoot]
    by_cases top : x = r.root <;> simp [top]
  · unfold turn
    rw [head, sameRoot]
    by_cases top : x = r.root
    · simpa [top] using progress.learned
    · simp [top, progress.learned]

theorem progress_turns {visited : List Path} (listing : Listing tree) (fuel : Nat)
    (progress : Progress bootOffsetNs tree r visited t)
    (enough : (known tree r.root).length ≤ visited.length + fuel) :
    (turns bootOffsetNs listing fuel t).walk.stack = [] ∧
      ∃ visited, Progress bootOffsetNs tree r visited (turns bootOffsetNs listing fuel t) := by
  induction fuel generalizing t visited with
  | zero =>
    refine ⟨?_, visited, progress⟩
    cases head : t.walk.stack with
    | nil => exact head
    | cons x rest =>
      have room := walked_room (head ▸ progress.walked)
      omega
  | succ fuel ih =>
    unfold turns
    cases head : t.walk.stack with
    | nil => exact ⟨by simpa using head, visited, by simpa using progress⟩
    | cons x rest =>
      rw [if_neg (List.cons_ne_nil x rest)]
      apply ih (progress_turn progress head)
      rw [List.length_append, List.length_singleton]
      omega

/-! ### What the calls leave in the map -/

theorem visits_unique {path path' : Path} {e' : Entry} (first : Visits bootOffsetNs tree path key e)
    (second : Visits bootOffsetNs tree path' key e') : e = e' := by
  cases same_id_same_path first second
  obtain ⟨n, attr, found, parsed, -, rfl⟩ := first
  obtain ⟨n', attr', found', parsed', -, rfl⟩ := second
  cases found.symm.trans found'
  cases parsed.symm.trans parsed'
  rfl

/-- No two directories share an id, so the order of the calls is lost. -/
theorem lookup_add_dirs (calls : List Path) (r : CgroupResolver) :
    (calls.foldl (addDir bootOffsetNs tree) r).entries.lookup key = some e ↔
      (∃ path ∈ calls, Visits bootOffsetNs tree path key e) ∨
        (∀ path ∈ calls, ∀ other, ¬ Visits bootOffsetNs tree path key other) ∧
          r.entries.lookup key = some e := by
  induction calls generalizing r with
  | nil => simp
  | cons path calls ih =>
    rw [List.foldl_cons, ih, lookup_add_dir]
    constructor
    · rintro (⟨later, member, visits⟩ | ⟨none, here | ⟨notHere, held⟩⟩)
      · exact .inl ⟨later, List.mem_cons_of_mem _ member, visits⟩
      · exact .inl ⟨path, List.mem_cons_self, here⟩
      · exact .inr ⟨List.forall_mem_cons.mpr ⟨notHere, none⟩, held⟩
    · rintro (⟨path', member, visits⟩ | ⟨none, held⟩)
      · by_cases later : ∃ path ∈ calls, ∃ other, Visits bootOffsetNs tree path key other
        · obtain ⟨path, listed, other, again⟩ := later
          exact .inl ⟨path, listed, visits_unique visits again ▸ again⟩
        · rcases List.mem_cons.mp member with rfl | listed
          · exact .inr ⟨fun path listed other visits => later ⟨path, listed, other, visits⟩, .inl visits⟩
          · exact absurd ⟨path', listed, e, visits⟩ later
      · obtain ⟨notHere, none⟩ := List.forall_mem_cons.mp none
        exact .inr ⟨none, .inr ⟨notHere, held⟩⟩

/-- A directory strictly below the root with a job segment on its path. -/
def JobDir (root : Path) (n : Node) : Prop :=
  n.isDir = true ∧ StrictlyBelow root n.path ∧ ∃ seg ∈ n.path, IsJobSegment seg

/-- A walk from the root that is over and has missed nothing. -/
structure Complete (tree : CgroupTree) (root : Path) (t : Traced) : Prop where
  ends : t.walk.stack = []
  once : t.calls.Nodup
  called : ∀ path, path ∈ t.calls ↔ StrictlyBelow root path ∧ tree.isDir path = true
  mapped : ∀ id, (∃ e, t.walk.resolver.entries.lookup id = some e) ↔
    ∃ n ∈ tree.nodes, JobDir root n ∧ n.ino = id
  attributed : ∀ n ∈ tree.nodes, JobDir root n → ∃ e, t.walk.resolver.entries.lookup n.ino = some e ∧
    parseCgroupPath (pathString n.path) = some e.attr ∧ e.removedNs = 0

/-- A path of the tree parses exactly when a job segment is on it. -/
theorem parses_iff {n : Node} (member : n ∈ tree.nodes) :
    (∃ attr, parseCgroupPath (pathString n.path) = some attr) ↔ ∃ seg ∈ n.path, IsJobSegment seg := by
  have valid : ∀ name ∈ n.path, name ≠ [] ∧ slash ∉ name := fun name inside =>
    ⟨(tree.names n member name inside).1, (tree.names n member name inside).2.1⟩
  have clean := parse_none_iff (pathString n.path)
  rw [split_path_string n.path valid] at clean
  rw [← Option.ne_none_iff_exists', Ne, clean]
  simp

private theorem calls_complete {visited : List Path} (progress : Progress bootOffsetNs tree r visited t)
    (ends : t.walk.stack = []) :
    t.calls.Nodup ∧ ∀ path, path ∈ t.calls ↔ StrictlyBelow r.root path ∧ tree.isDir path = true := by
  have all := walked_over known_unique (ends ▸ progress.walked)
  rw [progress.calls]
  refine ⟨(all.nodup_iff.mpr known_unique).filter _, fun path => ?_⟩
  rw [List.mem_filter, all.mem_iff, mem_known, decide_eq_true_eq]
  constructor
  · rintro ⟨top | below, strict⟩
    · exact absurd top strict
    · exact below
  · exact fun below => ⟨.inr below, below.1.2⟩

/-- Whatever the tree and however its directories list their entries, the walk
ends, calls `add_dir` once for each directory strictly below the root and never
for the root, and leaves exactly the job directories among them in the map. -/
theorem walk_complete (bootOffsetNs graceNs : UInt64) (tree : CgroupTree) (listing : Listing tree) (root : Path) :
    Complete tree root (traced bootOffsetNs listing { root, graceNs } root) := by
  have start : Progress bootOffsetNs tree { root, graceNs } []
      { walk := { resolver := { root, graceNs }, stack := [root] } } :=
    ⟨walked_start List.mem_cons_self fun p => known_rooted, rfl, rfl⟩
  obtain ⟨ends, visited, progress⟩ := progress_turns listing (tree.nodes.length + 1) start
    (by simpa using known_length)
  change (traced bootOffsetNs listing { root, graceNs } root).walk.stack = [] at ends
  change Progress _ _ _ visited (traced bootOffsetNs listing { root, graceNs } root) at progress
  generalize traced bootOffsetNs listing { root, graceNs } root = t at ends progress
  obtain ⟨once, called⟩ := calls_complete progress ends
  have holds : ∀ id e, t.walk.resolver.entries.lookup id = some e ↔
      ∃ path ∈ t.calls, Visits bootOffsetNs tree path id e := by
    intro id e
    rw [progress.learned, lookup_add_dirs]
    simp
  have attributed : ∀ n ∈ tree.nodes, JobDir root n → ∃ e, t.walk.resolver.entries.lookup n.ino = some e ∧
      parseCgroupPath (pathString n.path) = some e.attr ∧ e.removedNs = 0 := by
    rintro n there ⟨dir, below, job⟩
    obtain ⟨attr, parsed⟩ := (parses_iff there).mpr job
    have member := (called n.path).mpr ⟨below, is_dir_iff.mpr ⟨n, there, rfl, dir⟩⟩
    exact ⟨_, (holds _ _).mpr ⟨_, member, n, attr, stat_some.mpr ⟨there, rfl⟩, parsed, rfl, rfl⟩, parsed, rfl⟩
  refine ⟨ends, once, called, fun id => ⟨?_, ?_⟩, attributed⟩
  · rintro ⟨e, held⟩
    obtain ⟨path, member, n, attr, found, parsed, ino, -⟩ := (holds id e).mp held
    obtain ⟨below, dir⟩ := (called path).mp member
    obtain ⟨there, rfl⟩ := stat_some.mp found
    have isDir : n.isDir = true := by simpa [CgroupTree.isDir, found] using dir
    exact ⟨n, there, ⟨isDir, below, (parses_iff there).mp ⟨attr, parsed⟩⟩, ino⟩
  · rintro ⟨n, there, isJob, rfl⟩
    obtain ⟨e, held, -, -⟩ := attributed n there isJob
    exact ⟨e, held⟩

end SlurmTracer.WalkCompleteness
