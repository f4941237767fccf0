import Mathlib.Data.List.Nodup
import Mathlib.Data.List.Perm.Subperm

/-! The frontier of a depth-first walk over a tree of paths: the paths still
to be visited, each standing for everything at or below it. Visiting one path
trades it for its children and gives up exactly that path. -/
namespace SlurmTracer.Lib

variable {α : Type*} {frontier rest children known visited : List (List α)} {x p root : List α}

/-- A waiting path lies at or above `p`. -/
def Covers (frontier : List (List α)) (p : List α) : Prop := ∃ x ∈ frontier, x <+: p

instance [DecidableEq α] (frontier : List (List α)) (p : List α) : Decidable (Covers frontier p) :=
  inferInstanceAs (Decidable (∃ x ∈ frontier, x <+: p))

/-- No waiting path lies at or below another one. -/
def Antichain (frontier : List (List α)) : Prop :=
  frontier.Pairwise fun x y => ¬ x <+: y ∧ ¬ y <+: x

@[simp] theorem not_covers_nil : ¬ Covers [] p := by
  simp [Covers]

theorem covers_append :
    Covers (children ++ rest) p ↔ Covers children p ∨ Covers rest p := by
  simp [Covers, or_and_right, exists_or]

theorem covers_cons : Covers (x :: rest) p ↔ x <+: p ∨ Covers rest p := by
  simp [Covers]

/-- Strictly below a path, one of its children lies on the way. -/
theorem child_on_the_way (below : x <+: p) (strict : p ≠ x) : ∃ name, x ++ [name] <+: p := by
  obtain ⟨tail, rfl⟩ := below
  cases tail with
  | nil => simp at strict
  | cons name tail => exact ⟨name, tail, by simp⟩

theorem child_not_above (x : List α) (name : α) : ¬ x ++ [name] <+: x := by
  intro before
  have bound := before.length_le
  rw [List.length_append, List.length_singleton] at bound
  omega

/-- Taking `x` off the frontier and putting its children on covers what was
covered before, less `x` itself. -/
theorem covers_expand (below : ∀ child ∈ children, ∃ name, child = x ++ [name])
    (listed : ∀ name, x ++ [name] <+: p → x ++ [name] ∈ children)
    (chain : Antichain (x :: rest)) :
    Covers (children ++ rest) p ↔ Covers (x :: rest) p ∧ p ≠ x := by
  obtain ⟨apart, _⟩ := List.pairwise_cons.mp chain
  rw [covers_append, covers_cons]
  constructor
  · rintro (⟨child, member, before⟩ | ⟨other, member, before⟩)
    · obtain ⟨name, rfl⟩ := below child member
      refine ⟨.inl ((List.prefix_append x [name]).trans before), ?_⟩
      rintro rfl
      exact child_not_above p name before
    · refine ⟨.inr ⟨other, member, before⟩, ?_⟩
      rintro rfl
      exact (apart other member).2 before
  · rintro ⟨before | covered, strict⟩
    · obtain ⟨name, onTheWay⟩ := child_on_the_way before strict
      exact .inl ⟨_, listed name onTheWay, onTheWay⟩
    · exact .inr covered

/-- Distinct children of a visited path are apart from each other and from
everything the path was apart from. -/
theorem antichain_expand (below : ∀ child ∈ children, ∃ name, child = x ++ [name])
    (distinct : children.Nodup) (chain : Antichain (x :: rest)) :
    Antichain (children ++ rest) := by
  obtain ⟨apart, tail⟩ := List.pairwise_cons.mp chain
  refine List.pairwise_append.mpr ⟨?_, tail, ?_⟩
  · refine List.Pairwise.imp_of_mem ?_ distinct
    intro left right memberLeft memberRight different
    obtain ⟨nameLeft, rfl⟩ := below left memberLeft
    obtain ⟨nameRight, rfl⟩ := below right memberRight
    have sameLength : (x ++ [nameLeft]).length = (x ++ [nameRight]).length := by simp
    exact ⟨fun before => different (before.eq_of_length sameLength),
      fun before => different (before.eq_of_length sameLength.symm).symm⟩
  · intro child memberChild other memberOther
    obtain ⟨name, rfl⟩ := below child memberChild
    obtain ⟨down, up⟩ := apart other memberOther
    refine ⟨fun before => down ((List.prefix_append x [name]).trans before), fun before => ?_⟩
    rcases List.prefix_concat_iff.mp before with same | inside
    · exact down (same ▸ List.prefix_append x [name])
    · exact up inside

/-! ### The whole walk -/

/-- These are the children of `x` in the tree of the known paths. -/
structure Expands (known : List (List α)) (x : List α) (children : List (List α)) : Prop where
  below : ∀ child ∈ children, ∃ name, child = x ++ [name]
  within : ∀ child ∈ children, child ∈ known
  listed : ∀ p ∈ known, ∀ name, x ++ [name] <+: p → x ++ [name] ∈ children
  distinct : children.Nodup

/-- Every known path has been visited, once, or is still stood for. -/
structure Walked (known visited frontier : List (List α)) : Prop where
  chain : Antichain frontier
  within : ∀ x ∈ frontier, x ∈ known
  once : visited.Nodup
  done : ∀ p, p ∈ visited ↔ p ∈ known ∧ ¬ Covers frontier p

theorem walked_start (member : root ∈ known) (rooted : ∀ p ∈ known, root <+: p) : Walked known [] [root] where
  chain := List.pairwise_singleton _ _
  within := by simpa using member
  once := List.nodup_nil
  done := by simpa [Covers] using rooted

theorem walked_visit (walked : Walked known visited (x :: rest)) (expands : Expands known x children) :
    Walked known (visited ++ [x]) (children ++ rest) := by
  have waiting : Covers (x :: rest) x := ⟨x, List.mem_cons_self, List.prefix_refl x⟩
  have there : x ∈ known := walked.within x List.mem_cons_self
  refine ⟨antichain_expand expands.below expands.distinct walked.chain, ?_, ?_, ?_⟩
  · intro y member
    rcases List.mem_append.mp member with child | other
    · exact expands.within y child
    · exact walked.within y (List.mem_cons_of_mem _ other)
  · refine List.nodup_append.mpr ⟨walked.once, List.nodup_singleton x, ?_⟩
    rintro y before _ here rfl
    rw [List.mem_singleton.mp here] at before
    exact ((walked.done x).mp before).2 waiting
  · intro p
    rw [List.mem_append, List.mem_singleton, walked.done]
    have trades := fun member => covers_expand expands.below (expands.listed p member) walked.chain
    constructor
    · rintro (⟨member, past⟩ | rfl)
      · exact ⟨member, fun covered => past ((trades member).mp covered).1⟩
      · exact ⟨there, fun covered => ((trades there).mp covered).2 rfl⟩
    · rintro ⟨member, past⟩
      by_cases here : p = x
      · exact .inr here
      · exact .inl ⟨member, fun covered => past ((trades member).mpr ⟨covered, here⟩)⟩

/-- As long as something waits, something known has not been visited. -/
theorem walked_room (walked : Walked known visited (x :: rest)) : visited.length < known.length := by
  have fresh : x ∉ visited := fun before =>
    ((walked.done x).mp before).2 ⟨x, List.mem_cons_self, List.prefix_refl x⟩
  have within : x :: visited ⊆ known := by
    intro p member
    rcases List.mem_cons.mp member with rfl | before
    · exact walked.within p List.mem_cons_self
    · exact ((walked.done p).mp before).1
  exact ((List.nodup_cons.mpr ⟨fresh, walked.once⟩).subperm within).length_le

/-- Once nothing waits, every known path has been visited exactly once. -/
theorem walked_over (unique : known.Nodup) (walked : Walked known visited []) : visited.Perm known := by
  refine (List.perm_ext_iff_of_nodup walked.once unique).mpr fun p => ?_
  rw [walked.done, and_iff_left not_covers_nil]

end SlurmTracer.Lib
