import Mathlib.Data.List.DropRight

/-! Taking the blanks off both ends of a text, and cutting a text at its first
separator. -/
namespace SlurmTracer.Lib

universe u

variable {α : Type u} {blank : α → Bool} {s t before after : List α} {x : α}

/-- The text between the first and the last element that is not blank. -/
def strip (blank : α → Bool) (s : List α) : List α := (s.dropWhile blank).rdropWhile blank

/-- No blank at either end. -/
structure Stripped (blank : α → Bool) (t : List α) : Prop where
  first : ∀ c ∈ t.head?, blank c = false
  last : ∀ c ∈ t.getLast?, blank c = false

/-- `s` is `t` with blanks around it. -/
def Padded (blank : α → Bool) (s t : List α) : Prop :=
  ∃ before after, s = before ++ t ++ after ∧ (∀ c ∈ before, blank c = true) ∧ (∀ c ∈ after, blank c = true) ∧
    Stripped blank t

theorem drop_blanks (all : ∀ c ∈ before, blank c = true) (s : List α) :
    (before ++ s).dropWhile blank = s.dropWhile blank := by
  rw [List.dropWhile_append, if_pos]
  simpa using all

theorem rdrop_blanks (all : ∀ c ∈ after, blank c = true) (s : List α) :
    (s ++ after).rdropWhile blank = s.rdropWhile blank := by
  rw [List.rdropWhile, List.reverse_append, drop_blanks (by simpa using all), ← List.rdropWhile]

theorem strip_of_padded (padded : Padded blank s t) : strip blank s = t := by
  obtain ⟨before, after, rfl, front, back, first, last⟩ := padded
  rw [strip, List.append_assoc, drop_blanks front]
  cases t with
  | nil =>
    have none : after.dropWhile blank = [] := List.dropWhile_eq_nil_iff.mpr back
    simp [none]
  | cons c t =>
    rw [List.cons_append, List.dropWhile_cons_of_neg (by simp [first c rfl]), ← List.cons_append, rdrop_blanks back,
      List.rdropWhile_eq_self_iff]
    intro filled
    simp [last _ (List.getLast?_eq_getLast_of_ne_nil filled)]

theorem padded_strip (blank : α → Bool) (s : List α) : Padded blank s (strip blank s) := by
  refine ⟨s.takeWhile blank, (s.dropWhile blank).rtakeWhile blank, ?_, ?_, ?_, ?_, ?_⟩
  · rw [strip, List.append_assoc, List.rdropWhile_append_rtakeWhile, List.takeWhile_append_dropWhile]
  · exact fun c member => List.mem_takeWhile_imp member
  · exact fun c member => List.mem_rtakeWhile_imp member
  · intro c starts
    rw [strip] at starts
    have whole := List.rdropWhile_append_rtakeWhile (p := blank) (l := s.dropWhile blank)
    have same : (s.dropWhile blank).head? = some c := by
      rw [← whole, List.head?_append, Option.mem_def.mp starts]
      rfl
    have stops := List.head?_dropWhile_not blank s
    rwa [same] at stops
  · intro c ends
    rw [strip] at ends
    obtain ⟨filled, is⟩ := List.mem_getLast?_eq_getLast ends
    have stops := List.rdropWhile_last_not blank (s.dropWhile blank) filled
    rw [is]
    simpa using stops

/-! ### The first separator -/

/-- The text before the first `x`, and what comes behind that. -/
theorem cut_at_iff [DecidableEq α] {l r : List α} :
    s = l ++ x :: r ∧ x ∉ l ↔ s.takeWhile (· ≠ x) = l ∧ s.dropWhile (· ≠ x) = x :: r := by
  constructor
  · rintro ⟨rfl, missing⟩
    have all : ∀ c ∈ l, (c ≠ x : Bool) = true := by
      intro c member
      simpa using fun (same : c = x) => missing (same ▸ member)
    rw [List.takeWhile_append_of_pos all, drop_blanks all]
    simp
  · rintro ⟨rfl, rest⟩
    refine ⟨?_, fun member => ?_⟩
    · rw [← rest, List.takeWhile_append_dropWhile]
    · simpa using List.mem_takeWhile_imp member

theorem drop_cut (solid : blank x = false) (l r : List α) :
    (l ++ x :: r).dropWhile blank = l.dropWhile blank ++ x :: r := by
  rw [List.dropWhile_append]
  split
  · rename_i none
    rw [List.isEmpty_iff.mp none, List.dropWhile_cons_of_neg (by simp [solid]), List.nil_append]
  · rfl

theorem rdrop_cut (solid : blank x = false) (l r : List α) :
    (l ++ x :: r).rdropWhile blank = l ++ x :: r.rdropWhile blank := by
  rw [List.rdropWhile, List.reverse_append, List.reverse_cons, List.append_assoc, List.singleton_append, drop_cut solid]
  simp [List.rdropWhile]

/-- Stripping what has a separator in it strips both sides. -/
theorem strip_cut (solid : blank x = false) (l r : List α) :
    strip blank (l ++ x :: r) = l.dropWhile blank ++ x :: r.rdropWhile blank := by
  rw [strip, drop_cut solid, rdrop_cut solid]

/-! ### Stripping once more -/

theorem strip_head (blank : α → Bool) (s : List α) : (strip blank s).head? = (s.dropWhile blank).head? := by
  rw [strip]
  cases dropped : s.dropWhile blank with
  | nil => rfl
  | cons c rest =>
    have solid : blank c = false := by
      have stops := List.head?_dropWhile_not blank s
      rwa [dropped] at stops
    rw [← List.nil_append (c :: rest), rdrop_cut solid]
    rfl

theorem strip_drop_blanks (blank : α → Bool) (s : List α) : strip blank (s.dropWhile blank) = strip blank s := by
  rw [strip, List.dropWhile_idempotent, ← strip]

theorem strip_rdrop_blanks (blank : α → Bool) (s : List α) : strip blank (s.rdropWhile blank) = strip blank s := by
  obtain ⟨before, after, is, front, back, stripped⟩ := padded_strip blank (s.rdropWhile blank)
  refine (strip_of_padded ⟨before, after ++ s.rtakeWhile blank, ?_, front, ?_, stripped⟩).symm
  · rw [← List.append_assoc, ← is, List.rdropWhile_append_rtakeWhile]
  · intro c member
    rcases List.mem_append.mp member with first | second
    · exact back c first
    · exact List.mem_rtakeWhile_imp second

end SlurmTracer.Lib
