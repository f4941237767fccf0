import Mathlib.Data.List.Basic

/-! The last element of a list that says something, and what comes after it. -/
namespace SlurmTracer.Lib.LastOf

universe u v

variable {α : Type u} {β : Type v} {reads : α → β → Prop} {l after after' : List α} {a : α} {b b' : β}

/-- No element reads as anything. -/
def Absent (reads : α → β → Prop) (l : List α) : Prop := ∀ a ∈ l, ∀ b, ¬ reads a b

/-- The last element that reads as something reads as `b`, with `after`
behind it. -/
def Last (reads : α → β → Prop) (l : List α) (b : β) (after : List α) : Prop :=
  ∃ before a, l = before ++ a :: after ∧ reads a b ∧ Absent reads after

theorem absent_nil : Absent reads [] := fun _ member => by cases member

theorem absent_append {l' : List α} : Absent reads (l ++ l') ↔ Absent reads l ∧ Absent reads l' := by
  simp only [Absent, List.mem_append, or_imp, forall_and]

theorem absent_singleton : Absent reads [a] ↔ ∀ b, ¬ reads a b := by simp [Absent]

/-- The last element of two lists in a row: that of the second, or, where
the second says nothing, that of the first with the second behind it. -/
theorem last_append {more : List α} :
    Last reads (l ++ more) b after ↔
      Last reads more b after ∨ Absent reads more ∧ ∃ rest, Last reads l b rest ∧ after = rest ++ more := by
  constructor
  · rintro ⟨before, found, same, hit, quiet⟩
    rcases List.append_eq_append_iff.mp same with ⟨between, rfl, rest⟩ | ⟨between, rfl, rest⟩
    · exact .inl ⟨between, found, rest, hit, quiet⟩
    · cases between with
      | nil => exact .inl ⟨[], found, rest.symm, hit, quiet⟩
      | cons x between =>
        obtain ⟨rfl, rfl⟩ := List.cons.inj rest
        obtain ⟨quietBetween, quietMore⟩ := absent_append.mp quiet
        exact .inr ⟨quietMore, between, ⟨before, found, rfl, hit, quietBetween⟩, rfl⟩
  · rintro (⟨before, found, rfl, hit, quiet⟩ | ⟨quietMore, rest, ⟨before, found, rfl, hit, quiet⟩, rfl⟩)
    · exact ⟨l ++ before, found, by simp, hit, quiet⟩
    · exact ⟨before, found, by simp, hit, absent_append.mpr ⟨quiet, quietMore⟩⟩

/-- Appending an element that reads as something. -/
theorem last_hit (l : List α) (hit : reads a b) : Last reads (l ++ [a]) b [] :=
  last_append.mpr (.inl ⟨[], a, rfl, hit, absent_nil⟩)

/-- Appending one that does not. -/
theorem last_miss (last : Last reads l b after) (miss : ∀ b, ¬ reads a b) :
    Last reads (l ++ [a]) b (after ++ [a]) :=
  last_append.mpr (.inr ⟨absent_singleton.mpr miss, after, last, rfl⟩)

theorem last_not_absent (last : Last reads l b after) : ¬ Absent reads l := by
  obtain ⟨before, found, rfl, hit, -⟩ := last
  exact fun quiet => quiet found (by simp) b hit

/-- Where an element reads as one value at most, so does a list. -/
theorem last_unique (functional : ∀ a b b', reads a b → reads a b' → b = b')
    (last : Last reads l b after) (last' : Last reads l b' after') : b = b' ∧ after = after' := by
  obtain ⟨before, found, rfl, hit, quiet⟩ := last
  obtain ⟨before', found', same, hit', quiet'⟩ := last'
  rcases List.append_eq_append_iff.mp same with ⟨between, -, rest⟩ | ⟨between, -, rest⟩ <;>
    cases between with
    | nil =>
      obtain ⟨rfl, rfl⟩ := List.cons.inj rest
      exact ⟨functional _ _ _ hit hit', rfl⟩
    | cons x between =>
      obtain ⟨rfl, rfl⟩ := List.cons.inj rest
      first
        | exact absurd hit' (quiet found' (by simp) b')
        | exact absurd hit (quiet' found (by simp) b)

end SlurmTracer.Lib.LastOf
