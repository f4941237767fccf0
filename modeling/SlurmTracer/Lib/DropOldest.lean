import Mathlib.Data.List.Basic

/-! A queue that makes room by dropping its oldest elements, with everything
that ever went through it. -/
namespace SlurmTracer.Lib.DropOldest

/-- The queue, and what was accepted, evicted and taken so far, each in order. -/
structure Flow (α : Type*) where
  accepted : List α := []
  evicted : List α := []
  taken : List α := []
  queue : List α := []

namespace Flow

variable {α : Type*} {f : Flow α}

/-- Accepts `x` after dropping the `k` oldest. -/
def push (f : Flow α) (k : Nat) (x : α) : Flow α :=
  { f with accepted := f.accepted ++ [x], evicted := f.evicted ++ f.queue.take k
           queue := f.queue.drop k ++ [x] }

/-- Takes the oldest, if there is one. -/
def take (f : Flow α) : Flow α :=
  { f with taken := f.taken ++ f.queue.take 1, queue := f.queue.drop 1 }

/-- What was taken and what still waits are accepted elements in their order,
and every accepted element is in exactly one place. -/
structure Conserves (f : Flow α) : Prop where
  inOrder : (f.taken ++ f.queue).Sublist f.accepted
  placed : (f.evicted ++ f.taken ++ f.queue).Perm f.accepted

theorem conserves_empty : Conserves ({} : Flow α) := ⟨List.Sublist.refl _, List.Perm.refl _⟩

theorem conserves_push (held : Conserves f) (k : Nat) (x : α) : Conserves (f.push k x) where
  inOrder := by
    simp only [push]
    rw [← List.append_assoc]
    refine List.Sublist.append_right ?_ [x]
    exact ((List.drop_sublist k f.queue).append_left f.taken).trans held.inOrder
  placed := by
    simp only [push]
    have front : (f.evicted ++ f.queue.take k ++ f.taken ++ f.queue.drop k).Perm
        (f.evicted ++ f.taken ++ (f.queue.take k ++ f.queue.drop k)) := by
      simp only [List.append_assoc]
      apply List.Perm.append_left _
      rw [← List.append_assoc, ← List.append_assoc]
      exact List.perm_append_comm.append_right _
    rw [List.take_append_drop] at front
    rw [← List.append_assoc]
    exact (front.trans held.placed).append_right [x]

theorem conserves_take (held : Conserves f) : Conserves f.take where
  inOrder := by
    simp only [take]
    rw [List.append_assoc, List.take_append_drop]
    exact held.inOrder
  placed := by
    simp only [take]
    rw [List.append_assoc, List.append_assoc, List.take_append_drop, ← List.append_assoc]
    exact held.placed

/-- The number accepted splits over the three places. -/
theorem length_accepted (held : Conserves f) :
    f.accepted.length = f.evicted.length + f.taken.length + f.queue.length := by
  rw [← held.placed.length_eq, List.length_append, List.length_append]

end Flow

end SlurmTracer.Lib.DropOldest
