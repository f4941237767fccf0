import Mathlib.Data.List.Basic

/-! Where the stretch of elements began that a list ends with. -/
namespace SlurmTracer.Lib.Stretch

universe u

variable {α : Type u} {agrees : α → Prop} {l : List α} {a first : α}

/-- The last element agrees, if there is one. -/
def EndsWith (agrees : α → Prop) (l : List α) : Prop := ∃ last ∈ l.getLast?, agrees last

/-- All from `first` on agree, and what is before it, if anything, does not. -/
def Began (agrees : α → Prop) (l : List α) (first : α) : Prop :=
  ∃ before after, l = before ++ first :: after ∧ agrees first ∧ (∀ a ∈ after, agrees a) ∧ ¬ EndsWith agrees before

theorem ends_with_snoc : EndsWith agrees (l ++ [a]) ↔ agrees a := by simp [EndsWith]

theorem Began.ends_with (began : Began agrees l first) : EndsWith agrees l := by
  obtain ⟨before, after, rfl, here, later, -⟩ := began
  rcases List.eq_nil_or_concat after with rfl | ⟨after, last, rfl⟩
  · exact ends_with_snoc.mpr here
  · have split : before ++ first :: after.concat last = (before ++ first :: after) ++ [last] := by simp
    rw [split, ends_with_snoc]
    exact later last (by simp)

/-- One more element goes on with the stretch, begins one, or ends it. -/
theorem began_snoc :
    Began agrees (l ++ [a]) first ↔ agrees a ∧ (Began agrees l first ∨ first = a ∧ ¬ EndsWith agrees l) := by
  constructor
  · rintro ⟨before, after, is, here, later, new⟩
    rcases List.eq_nil_or_concat after with rfl | ⟨after, last, rfl⟩
    · obtain ⟨rfl, same⟩ := List.append_inj' is rfl
      cases same
      exact ⟨here, .inr ⟨rfl, new⟩⟩
    · have split : before ++ first :: after.concat last = (before ++ first :: after) ++ [last] := by simp
      obtain ⟨rfl, same⟩ := List.append_inj' (is.trans split) rfl
      cases same
      rw [List.concat_eq_append] at later
      refine ⟨later a (by simp), .inl ⟨before, after, rfl, here, fun x member => ?_, new⟩⟩
      exact later x (List.mem_append_left _ member)
  · rintro ⟨agrees', ⟨before, after, rfl, here, later, new⟩ | ⟨rfl, new⟩⟩
    · refine ⟨before, after ++ [a], by simp, here, fun x member => ?_, new⟩
      rcases List.mem_append.mp member with old | isNew
      · exact later x old
      · rwa [List.mem_singleton.mp isNew]
    · exact ⟨l, [], rfl, agrees', nofun, new⟩

end SlurmTracer.Lib.Stretch
