import Mathlib.Algebra.BigOperators.Group.List.Basic
import Mathlib.Algebra.GroupWithZero.Nat
import Mathlib.Data.List.Nodup

/-! A log in which every entry names who caused it, and tallies over a part of
those who may. -/
namespace SlurmTracer.Lib.Tally

variable {α : Type*} [DecidableEq α] {members : List α} {log : List α}

/-- The tallies of the members add up to the entries that name a member. -/
theorem sum_counts (once : members.Nodup) (log : List α) :
    (members.map fun a => log.count a).sum = log.countP (· ∈ members) := by
  induction members with
  | nil => simp
  | cons a members ih =>
    obtain ⟨others, once⟩ := List.nodup_cons.mp once
    rw [List.map_cons, List.sum_cons, ih once]
    clear ih
    induction log with
    | nil => rfl
    | cons entry log rest =>
      by_cases here : entry = a
      · subst here
        rw [List.count_cons_self, List.countP_cons_of_neg (by simpa using others),
          List.countP_cons_of_pos (by simp), ← rest]
        omega
      · have same : entry ∈ a :: members ↔ entry ∈ members := by simp [here]
        rw [List.count_cons_of_ne here, List.countP_cons, List.countP_cons, ← rest, decide_eq_decide.mpr same]
        omega

/-- They add up to the whole log exactly when it names no one else. -/
theorem sum_counts_eq_length_iff (once : members.Nodup) :
    (members.map fun a => log.count a).sum = log.length ↔ ∀ a ∈ log, a ∈ members := by
  rw [sum_counts once, List.countP_eq_length]
  simp

/-- Adding to the log what each of `who` did in one step adds that much to
each of their tallies. -/
theorem count_steps {who : List α} (once : who.Nodup) (amount : α → Nat) {a : α} (member : a ∈ who) :
    (who.flatMap fun b => List.replicate (amount b) b).count a = amount a := by
  induction who with
  | nil => cases member
  | cons b who ih =>
    obtain ⟨others, once⟩ := List.nodup_cons.mp once
    rw [List.flatMap_cons, List.count_append]
    by_cases here : a = b
    · subst here
      have none : (who.flatMap fun b => List.replicate (amount b) b).count a = 0 := by
        rw [List.count_eq_zero, List.mem_flatMap]
        rintro ⟨c, there, named⟩
        exact others (List.eq_of_mem_replicate named ▸ there)
      rw [none, List.count_replicate_self, Nat.add_zero]
    · have there := (List.mem_cons.mp member).resolve_left here
      rw [ih once there, List.count_replicate, if_neg (by simpa using Ne.symm here), Nat.zero_add]

end SlurmTracer.Lib.Tally
