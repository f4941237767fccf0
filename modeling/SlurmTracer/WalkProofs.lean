import Mathlib.Data.List.Induction
import SlurmTracer.Core.CgroupTree
import SlurmTracer.Lib.Frontier
import SlurmTracer.ResolverProofs

/-! The bootstrap walk, one directory at a time. A step is described by what
it takes off the frontier and what it learns, for whatever the tree is at that
moment; only the last section lets the tree hold still. -/
namespace SlurmTracer.WalkProofs
open Lib SlurmTracer.Core Core.CgroupResolver ResolverProofs

variable {tree : CgroupTree} {path x : Path} {n : Node}

/-! ### What the tree reports -/

theorem stat_some : tree.stat path = some n ↔ n ∈ tree.nodes ∧ n.path = path := by
  unfold CgroupTree.stat
  constructor
  · intro found
    exact ⟨List.mem_of_find?_eq_some found, by simpa using List.find?_some found⟩
  · rintro ⟨member, rfl⟩
    cases found : tree.nodes.find? fun m => m.path = n.path with
    | none => simpa using List.find?_eq_none.mp found n member
    | some m =>
      have samePath : m.path = n.path := by simpa using List.find?_some found
      rw [List.inj_on_of_nodup_map tree.pathsDistinct (List.mem_of_find?_eq_some found) member samePath]

theorem is_dir_iff : tree.isDir path = true ↔ ∃ n ∈ tree.nodes, n.path = path ∧ n.isDir = true := by
  unfold CgroupTree.isDir
  cases found : tree.stat path with
  | none =>
    simp only [Bool.false_eq_true, false_iff]
    rintro ⟨n, member, samePath, _⟩
    rw [stat_some.mpr ⟨member, samePath⟩] at found
    contradiction
  | some m =>
    have known := stat_some.mp found
    constructor
    · exact fun dir => ⟨m, known.1, known.2, dir⟩
    · rintro ⟨n, member, samePath, dir⟩
      rw [stat_some.mpr ⟨member, samePath⟩] at found
      cases found
      exact dir

/-- A proper ancestor of anything in the tree is a directory of it. -/
theorem ancestor_is_dir (member : n ∈ tree.nodes) (above : x <+: n.path) (strict : n.path ≠ x) :
    tree.isDir x = true := by
  obtain ⟨tail, shape⟩ := above
  induction tail using List.reverseRecOn generalizing n with
  | nil => simp_all
  | append_singleton tail name ih =>
    have nonempty : n.path ≠ [] := by rw [← shape]; simp
    obtain ⟨parent, parentMember, parentPath, parentDir⟩ := tree.parents n member nonempty
    have parentShape : x ++ tail = parent.path := by
      rw [parentPath, ← shape, ← List.append_assoc, List.dropLast_concat]
    by_cases top : parent.path = x
    · exact is_dir_iff.mpr ⟨parent, parentMember, top, parentDir⟩
    · exact ih parentMember top parentShape

theorem mem_children {name : Bytes} {type : DType} :
    (name, type) ∈ tree.children path ↔ ∃ n ∈ tree.nodes, n.path = path ++ [name] ∧ n.dType = type := by
  simp only [CgroupTree.children, List.mem_filterMap]
  refine exists_congr fun n => and_congr_right fun member => ?_
  rcases List.eq_nil_or_concat n.path with shape | ⟨parent, last, shape⟩
  · simp [shape]
  · simp [shape, and_assoc]

/-- One directory's listing never repeats a name. -/
theorem children_distinct : ((tree.children path).map Prod.fst).Nodup := by
  have distinct : tree.nodes.Pairwise fun a b => a.path ≠ b.path := List.pairwise_map.mp tree.pathsDistinct
  rw [List.nodup_iff_pairwise_ne, List.pairwise_map, CgroupTree.children, List.pairwise_filterMap]
  refine distinct.imp fun {a b} different left leftHeld right rightHeld same => different ?_
  obtain ⟨leftParent, leftName⟩ := Option.ite_none_right_eq_some.mp leftHeld
  obtain ⟨rightParent, rightName⟩ := Option.ite_none_right_eq_some.mp rightHeld
  obtain ⟨name, leftLast, rfl⟩ := Option.map_eq_some_iff.mp leftName
  obtain ⟨name', rightLast, rfl⟩ := Option.map_eq_some_iff.mp rightName
  cases same
  rw [← List.dropLast_append_getLast? name leftLast, ← List.dropLast_append_getLast? name rightLast,
    leftParent, rightParent]

/-! ### One directory -/

/-- The subdirectories `readdir` leads to, last listed first. -/
def childDirs (tree : CgroupTree) (current : Path) : List Path :=
  ((tree.children current).filterMap fun ent =>
    if tree.isDir (current ++ [ent.1]) then some (current ++ [ent.1]) else none).reverse

/-- A listed entry is pushed exactly when it is a directory, whether the
listing's type says so or leaves it to `stat`. -/
private theorem listed_type_decides {ent : Bytes × DType} (listed : ent ∈ tree.children path) :
    (ent.2 = .dir ∨ (ent.2 = .unknown ∧ tree.isDir (path ++ [ent.1]) = true)) ↔
      tree.isDir (path ++ [ent.1]) = true := by
  obtain ⟨m, member, place, type⟩ := mem_children.mp listed
  have reported := tree.types m member
  have found : tree.isDir (path ++ [ent.1]) = m.isDir := by
    unfold CgroupTree.isDir
    rw [stat_some.mpr ⟨member, place⟩]
  rw [type] at reported
  rw [found]
  cases dir : m.isDir <;> rw [dir] at reported <;> cases shown : ent.2 <;> simp_all

private theorem listed_name_valid {ent : Bytes × DType} (listed : ent ∈ tree.children path) :
    ¬ (ent.1 = dot ∨ ent.1 = dotdot) := by
  obtain ⟨m, member, place, _⟩ := mem_children.mp listed
  have valid := tree.names m member ent.1 (by rw [place]; simp)
  exact fun dots => dots.elim valid.2.2.1 valid.2.2.2

theorem push_children_eq (stack : List Path) :
    pushChildren tree path stack = childDirs tree path ++ stack := by
  have loop : ∀ (entries : List (Bytes × DType)) (stack : List Path),
      (∀ ent ∈ entries, ent ∈ tree.children path) →
      entries.foldl (fun stack ent =>
        if ent.1 = dot ∨ ent.1 = dotdot then stack
        else
          let child := path ++ [ent.1]
          if ent.2 = .dir ∨ (ent.2 = .unknown ∧ tree.isDir child = true) then child :: stack else stack) stack =
        (entries.filterMap fun ent =>
          if tree.isDir (path ++ [ent.1]) then some (path ++ [ent.1]) else none).reverse ++ stack := by
    intro entries
    induction entries with
    | nil => intro stack _; rfl
    | cons ent entries ih =>
      intro stack listed
      have here := listed ent List.mem_cons_self
      have there : ∀ e ∈ entries, e ∈ tree.children path :=
        fun e member => listed e (List.mem_cons_of_mem _ member)
      rw [List.foldl_cons, ih _ there, if_neg (listed_name_valid here)]
      simp only [listed_type_decides here, List.filterMap_cons]
      split <;> simp_all
  simp only [pushChildren, CgroupTree.readdir, List.foldl_cons, true_or, or_true, ↓reduceIte]
  exact loop _ stack fun _ member => member

theorem mem_child_dirs {child : Path} :
    child ∈ childDirs tree path ↔ (∃ name, child = path ++ [name]) ∧ tree.isDir child = true := by
  simp only [childDirs, List.mem_reverse, List.mem_filterMap]
  constructor
  · rintro ⟨ent, _, held⟩
    obtain ⟨dir, same⟩ := Option.ite_none_right_eq_some.mp held
    cases same
    exact ⟨⟨ent.1, rfl⟩, dir⟩
  · rintro ⟨⟨name, rfl⟩, dir⟩
    obtain ⟨m, member, place, _⟩ := is_dir_iff.mp dir
    exact ⟨(name, m.dType), mem_children.mpr ⟨m, member, place, rfl⟩, by simp [dir]⟩

theorem child_dirs_distinct : (childDirs tree path).Nodup := by
  have names : (tree.children path).Pairwise fun a b => a.1 ≠ b.1 := List.pairwise_map.mp children_distinct
  rw [childDirs, List.nodup_reverse, List.nodup_iff_pairwise_ne, List.pairwise_filterMap]
  refine names.imp fun {a b} different left leftHeld right rightHeld same => different ?_
  obtain ⟨_, leftShape⟩ := Option.ite_none_right_eq_some.mp leftHeld
  obtain ⟨_, rightShape⟩ := Option.ite_none_right_eq_some.mp rightHeld
  cases leftShape
  cases rightShape
  simpa using same

/-- What is not a directory has nothing below it. -/
theorem child_dirs_nil (gone : ¬ tree.isDir x = true) : childDirs tree x = [] := by
  apply List.eq_nil_iff_forall_not_mem.mpr
  intro child member
  obtain ⟨⟨name, rfl⟩, dir⟩ := mem_child_dirs.mp member
  obtain ⟨m, held, place, _⟩ := is_dir_iff.mp dir
  have strict : m.path ≠ x := by rw [place]; simp
  exact gone (ancestor_is_dir held (place ▸ List.prefix_append x [name]) strict)

/-! ### One step -/

variable {bootOffsetNs : UInt64} {w : Walk} {rest : List Path} {key : UInt64} {e : Entry}

/-- What a visit of a directory stores. -/
def Visits (bootOffsetNs : UInt64) (tree : CgroupTree) (path : Path) (key : UInt64) (e : Entry) : Prop :=
  ∃ n attr, tree.stat path = some n ∧ parseCgroupPath (pathString path) = some attr ∧ n.ino = key ∧
    e = { attr, createdNs := createdFromCtime bootOffsetNs n }

theorem lookup_add_dir (r : CgroupResolver) :
    (addDir bootOffsetNs tree r path).entries.lookup key = some e ↔
      Visits bootOffsetNs tree path key e ∨
        (∀ other, ¬ Visits bootOffsetNs tree path key other) ∧ r.entries.lookup key = some e := by
  unfold addDir Visits
  cases tree.stat path with
  | none => simp
  | some n =>
    cases parseCgroupPath (pathString path) with
    | none => simp
    | some attr =>
      by_cases same : key = n.ino
      · subst key
        simp [eq_comm]
      · simp [same, Ne.symm same]

@[simp] theorem add_dir_root (r : CgroupResolver) : (addDir bootOffsetNs tree r path).root = r.root := by
  unfold addDir
  split
  · rfl
  · split <;> rfl

@[simp] theorem add_dir_grace (r : CgroupResolver) :
    (addDir bootOffsetNs tree r path).graceNs = r.graceNs := by
  unfold addDir
  split
  · rfl
  · split <;> rfl

/-- The frontier after a step: `x` traded for its subdirectories. A path that
has stopped being a directory has none. -/
theorem step_stack (head : w.stack = x :: rest) :
    (addSubtreeStep bootOffsetNs tree w).stack = childDirs tree x ++ rest := by
  unfold addSubtreeStep
  rw [head]
  dsimp only
  split
  · exact push_children_eq rest
  · rename_i gone
    rw [child_dirs_nil gone, List.nil_append]

theorem step_resolver (head : w.stack = x :: rest) :
    (addSubtreeStep bootOffsetNs tree w).resolver =
      if x ≠ w.resolver.root then addDir bootOffsetNs tree w.resolver x else w.resolver := by
  unfold addSubtreeStep
  rw [head]
  dsimp only
  split <;> rfl

/-- A step takes exactly the visited path off the frontier. -/
theorem covers_step (head : w.stack = x :: rest) (chain : Antichain w.stack)
    (dir : tree.isDir path = true) :
    Covers (addSubtreeStep bootOffsetNs tree w).stack path ↔ Covers w.stack path ∧ path ≠ x := by
  rw [step_stack head, head]
  apply covers_expand
  · exact fun child member => (mem_child_dirs.mp member).1
  · intro name onTheWay
    refine mem_child_dirs.mpr ⟨⟨name, rfl⟩, ?_⟩
    obtain ⟨m, member, place, _⟩ := is_dir_iff.mp dir
    by_cases bottom : path = x ++ [name]
    · exact bottom ▸ dir
    · exact ancestor_is_dir member (place ▸ onTheWay) (place ▸ bottom)
  · exact head ▸ chain

theorem antichain_step (head : w.stack = x :: rest) (chain : Antichain w.stack) :
    Antichain (addSubtreeStep bootOffsetNs tree w).stack := by
  rw [step_stack head]
  exact antichain_expand (fun child member => (mem_child_dirs.mp member).1) child_dirs_distinct (head ▸ chain)

theorem rooted_step {root : Path} (head : w.stack = x :: rest) (rooted : ∀ y ∈ w.stack, root <+: y) :
    ∀ y ∈ (addSubtreeStep bootOffsetNs tree w).stack, root <+: y := by
  intro y member
  rw [step_stack head, List.mem_append] at member
  rcases member with member | member
  · obtain ⟨⟨name, rfl⟩, _⟩ := mem_child_dirs.mp member
    exact (rooted x (by simp [head])).trans (List.prefix_append x [name])
  · exact rooted y (by simp [head, member])

@[simp] theorem step_root : (addSubtreeStep bootOffsetNs tree w).resolver.root = w.resolver.root := by
  cases head : w.stack with
  | nil => simp [addSubtreeStep, head]
  | cons x rest =>
    rw [step_resolver head]
    split <;> simp

/-! ### A tree that holds still -/

/-- The walk has stored exactly what the directories it is done with say. -/
structure WalkInv (bootOffsetNs : UInt64) (tree : CgroupTree) (w : Walk) : Prop where
  chain : Antichain w.stack
  rooted : ∀ y ∈ w.stack, w.resolver.root <+: y
  dirs : ∀ y ∈ w.stack, tree.isDir y = true
  learned : ∀ key e, w.resolver.entries.lookup key = some e ↔
    ∃ path, w.resolver.root <+: path ∧ path ≠ w.resolver.root ∧ tree.isDir path = true ∧
      ¬ Covers w.stack path ∧ Visits bootOffsetNs tree path key e

theorem same_id_same_path {path' : Path} {e' : Entry} (first : Visits bootOffsetNs tree path key e)
    (second : Visits bootOffsetNs tree path' key e') : path = path' := by
  obtain ⟨n, _, found, _, ino, _⟩ := first
  obtain ⟨m, _, found', _, ino', _⟩ := second
  obtain ⟨member, place⟩ := stat_some.mp found
  obtain ⟨member', place'⟩ := stat_some.mp found'
  rw [← place, ← place', List.inj_on_of_nodup_map tree.inosDistinct member member' (ino.trans ino'.symm)]

theorem walk_inv_step (inv : WalkInv bootOffsetNs tree w) (head : w.stack = x :: rest) :
    WalkInv bootOffsetNs tree (addSubtreeStep bootOffsetNs tree w) := by
  have visited : Covers w.stack x := ⟨x, by simp [head], List.prefix_refl x⟩
  have xRooted := inv.rooted x (by simp [head])
  have xDir := inv.dirs x (by simp [head])
  refine ⟨antichain_step head inv.chain, ?_, ?_, ?_⟩
  · rw [step_root]
    exact rooted_step head inv.rooted
  · intro y member
    rw [step_stack head, List.mem_append] at member
    rcases member with member | member
    · exact (mem_child_dirs.mp member).2
    · exact inv.dirs y (by simp [head, member])
  · intro key e
    rw [step_root, step_resolver head]
    have uncovered : ∀ path, tree.isDir path = true →
        (¬ Covers (addSubtreeStep bootOffsetNs tree w).stack path ↔ ¬ Covers w.stack path ∨ path = x) := by
      intro path dir
      rw [covers_step head inv.chain dir, not_and_or, not_not]
    split
    · rename_i strict
      rw [lookup_add_dir, inv.learned]
      constructor
      · rintro (here | ⟨_, path, rooted, below, dir, done, visits⟩)
        · exact ⟨x, xRooted, strict, xDir, (uncovered x xDir).mpr (.inr rfl), here⟩
        · exact ⟨path, rooted, below, dir, (uncovered path dir).mpr (.inl done), visits⟩
      · rintro ⟨path, rooted, below, dir, done, visits⟩
        rcases (uncovered path dir).mp done with done | rfl
        · refine .inr ⟨fun other here => done ?_, path, rooted, below, dir, done, visits⟩
          rw [same_id_same_path visits here]
          exact visited
        · exact .inl visits
    · rename_i top
      rw [inv.learned]
      refine exists_congr fun path => and_congr_right fun _ => and_congr_right fun below =>
        and_congr_right fun dir => and_congr_left fun _ => ?_
      rw [uncovered path dir]
      exact ⟨.inl, fun done => done.resolve_right fun same => below (same.trans (not_not.mp top))⟩

/-- How many directories the frontier still stands for. -/
def pending (tree : CgroupTree) (stack : List Path) : Nat :=
  (tree.nodes.filter fun n => n.isDir && decide (Covers stack n.path)).length

/-- Every step finishes with one directory. -/
theorem pending_decreases (inv : WalkInv bootOffsetNs tree w) (head : w.stack = x :: rest) :
    pending tree (addSubtreeStep bootOffsetNs tree w).stack < pending tree w.stack := by
  have fewer : (tree.nodes.filter fun n =>
        n.isDir && decide (Covers (addSubtreeStep bootOffsetNs tree w).stack n.path)) =
      (tree.nodes.filter fun n => n.isDir && decide (Covers w.stack n.path)).filter
        fun n => decide (n.path ≠ x) := by
    rw [List.filter_filter]
    apply List.filter_congr
    intro n member
    cases dir : n.isDir with
    | false => simp
    | true =>
      simp [covers_step head inv.chain (is_dir_iff.mpr ⟨n, member, rfl, dir⟩), Bool.and_comm]
  obtain ⟨m, member, place, dir⟩ := is_dir_iff.mp (inv.dirs x (by simp [head]))
  rw [pending, fewer]
  refine List.length_filter_lt_length_iff_exists.mpr ⟨m, ?_, by simp [place]⟩
  simp only [List.mem_filter, member, dir, true_and, Bool.true_and, decide_eq_true_eq]
  exact ⟨x, by simp [head], place ▸ List.prefix_refl _⟩

theorem walk_loop (fuel : Nat) (inv : WalkInv bootOffsetNs tree w) (enough : pending tree w.stack < fuel) :
    WalkInv bootOffsetNs tree (addSubtreeLoop bootOffsetNs tree fuel w) ∧
      (addSubtreeLoop bootOffsetNs tree fuel w).stack = [] ∧
      (addSubtreeLoop bootOffsetNs tree fuel w).resolver.root = w.resolver.root := by
  induction fuel generalizing w with
  | zero => omega
  | succ fuel ih =>
    unfold addSubtreeLoop
    cases head : w.stack with
    | nil => simpa [head] using inv
    | cons x rest =>
      have fewer := pending_decreases inv head
      simpa using ih (walk_inv_step inv head) (by omega)

/-- A walk from the root of a fresh resolver runs out of directories, having
stored exactly the job directories strictly below the root. -/
theorem add_subtree_learns (r : CgroupResolver) (fresh : r.entries = ∅) (dir : tree.isDir r.root = true) :
    (addSubtree bootOffsetNs tree r r.root).stack = [] ∧
      ∀ key e, (addSubtree bootOffsetNs tree r r.root).resolver.entries.lookup key = some e ↔
        ∃ path, r.root <+: path ∧ path ≠ r.root ∧ tree.isDir path = true ∧
          Visits bootOffsetNs tree path key e := by
  have start : WalkInv bootOffsetNs tree ⟨r, [r.root]⟩ := by
    refine ⟨List.pairwise_singleton _ _, by simp, by simpa using dir, ?_⟩
    intro key e
    simp only [fresh, AList.lookup_empty, Covers, List.mem_singleton, exists_eq_left]
    constructor
    · exact fun held => by contradiction
    · rintro ⟨path, rooted, _, _, outside, _⟩
      exact absurd rooted outside
  have enough : pending tree [r.root] < tree.nodes.length + 1 :=
    Nat.lt_succ_of_le (List.length_filter_le _ _)
  obtain ⟨inv, empty, sameRoot⟩ := walk_loop _ start enough
  refine ⟨empty, fun key e => ?_⟩
  have learned := inv.learned key e
  simp only [sameRoot, empty, not_covers_nil, not_false_eq_true, true_and] at learned
  exact learned

end SlurmTracer.WalkProofs
