import Mathlib.Data.List.Infix
import Mathlib.Data.List.TakeWhile

/-! The first occurrence of one list in another, as `std::string::find` has
it, and of one element. -/
namespace SlurmTracer.Lib.Search

variable {α : Type} [DecidableEq α] {needle hay : List α}

/-- Where the needle first occurs. -/
def find (needle : List α) : List α → Option Nat
  | [] => if needle = [] then some 0 else none
  | a :: hay => if needle.isPrefixOf (a :: hay) then some 0 else (find needle hay).map (· + 1)

theorem find_eq_some_iff {i : Nat} :
    find needle hay = some i ↔ needle <+: hay.drop i ∧ i ≤ hay.length ∧ ∀ j < i, ¬ needle <+: hay.drop j := by
  induction hay generalizing i with
  | nil =>
    by_cases empty : needle = []
    · subst empty
      rw [find, if_pos rfl, Option.some.injEq]
      constructor
      · rintro rfl
        exact ⟨List.nil_prefix, Nat.le_refl 0, nofun⟩
      · rintro ⟨-, bound, -⟩
        exact (Nat.le_zero.mp bound).symm
    · simp [find, empty]
  | cons a hay ih =>
    rw [find]
    by_cases here : needle.isPrefixOf (a :: hay)
    · rw [if_pos here, Option.some.injEq]
      have front := List.isPrefixOf_iff_prefix.mp here
      constructor
      · rintro rfl
        exact ⟨front, Nat.zero_le _, nofun⟩
      · rintro ⟨-, -, first⟩
        by_contra other
        exact first 0 (Nat.pos_of_ne_zero (Ne.symm other)) front
    · rw [if_neg here, Option.map_eq_some_iff]
      have front : ¬ needle <+: a :: hay := fun before => here (List.isPrefixOf_iff_prefix.mpr before)
      constructor
      · rintro ⟨k, found, rfl⟩
        obtain ⟨there, bound, first⟩ := ih.mp found
        refine ⟨there, Nat.succ_le_succ bound, fun j below => ?_⟩
        cases j with
        | zero => exact front
        | succ j => exact first j (Nat.lt_of_succ_lt_succ below)
      · rintro ⟨there, bound, first⟩
        cases i with
        | zero => exact absurd there front
        | succ i =>
          refine ⟨i, ih.mpr ⟨there, Nat.le_of_succ_le_succ bound, fun j below => ?_⟩, rfl⟩
          exact first (j + 1) (Nat.succ_lt_succ below)

/-- What is found lies within the list. -/
theorem find_end {i : Nat} (found : find needle hay = some i) : i + needle.length ≤ hay.length := by
  obtain ⟨there, bound, -⟩ := find_eq_some_iff.mp found
  have fits := there.length_le
  rw [List.length_drop] at fits
  omega

/-- More behind the first occurrence leaves it the first. -/
theorem find_append {i : Nat} (found : find needle hay = some i) (rest : List α) :
    find needle (hay ++ rest) = some i := by
  have within := find_end found
  obtain ⟨there, bound, first⟩ := find_eq_some_iff.mp found
  refine find_eq_some_iff.mpr ⟨?_, by rw [List.length_append]; omega, fun j below earlier => ?_⟩
  · rw [List.drop_append_of_le_length bound]
    exact there.trans (List.prefix_append _ _)
  · have short : needle.length ≤ (hay.drop j).length := by
      rw [List.length_drop]
      omega
    rw [List.drop_append_of_le_length (by omega)] at earlier
    exact first j below (List.prefix_of_prefix_length_le earlier (List.prefix_append _ _) short)

/-- A list too short for the first occurrence has none. -/
theorem find_prefix {front rest : List α} {i : Nat} (found : find needle (front ++ rest) = some i)
    (short : front.length < i + needle.length) : find needle front = none := by
  by_contra found'
  obtain ⟨j, early⟩ := Option.ne_none_iff_exists'.mp found'
  have same := (find_append early rest).symm.trans found
  cases same
  have within := find_end early
  omega

/-- An occurrence that fits into the front of a list is found there. -/
theorem find_front {front rest : List α} {i : Nat} (found : find needle (front ++ rest) = some i)
    (fits : i + needle.length ≤ front.length) : find needle front = some i := by
  obtain ⟨there, -, first⟩ := find_eq_some_iff.mp found
  refine find_eq_some_iff.mpr ⟨?_, by omega, fun j below earlier => ?_⟩
  · rw [List.drop_append_of_le_length (by omega)] at there
    apply List.prefix_of_prefix_length_le there (List.prefix_append _ _)
    rw [List.length_drop]
    omega
  · apply first j below
    rw [List.drop_append_of_le_length (by omega)]
    exact earlier.trans (List.prefix_append _ _)

/-- Nothing is found before the needle's first element occurs. -/
theorem find_skip {a : α} {front : List α} (free : a ∉ front) (rest : List α) :
    find (a :: needle) (front ++ rest) = (find (a :: needle) rest).map (· + front.length) := by
  induction front with
  | nil => simp
  | cons b front ih =>
    obtain ⟨differs, free⟩ : a ≠ b ∧ a ∉ front := by simpa using free
    have missed : (a :: needle).isPrefixOf (b :: (front ++ rest)) = false := by
      simp [List.isPrefixOf, differs]
    rw [List.cons_append, find, missed, if_neg Bool.false_ne_true, ih free, Option.map_map]
    rfl

/-- A needle is found exactly where it occurs at all. -/
theorem find_is_some_iff : (find needle hay).isSome = true ↔ needle <:+: hay := by
  constructor
  · intro found
    obtain ⟨i, at'⟩ := Option.isSome_iff_exists.mp found
    obtain ⟨there, -, -⟩ := find_eq_some_iff.mp at'
    exact there.isInfix.trans (List.drop_suffix i hay).isInfix
  · intro occurs
    induction hay with
    | nil =>
      rw [List.eq_nil_of_infix_nil occurs]
      rfl
    | cons a hay ih =>
      rw [find]
      split
      · rfl
      · rename_i missed
        rcases List.infix_cons_iff.mp occurs with front | later
        · exact absurd (List.isPrefixOf_iff_prefix.mpr front) missed
        · rw [Option.isSome_map]
          exact ih later

/-! ### Up to an element -/

omit [DecidableEq α] in
/-- A run is taken as far as it goes. -/
theorem take_run {p : α → Bool} {front rest : List α} (all : ∀ c ∈ front, p c = true)
    (stops : ∀ c, rest.head? = some c → p c = false) :
    (front ++ rest).takeWhile p = front ∧ (front ++ rest).dropWhile p = rest := by
  rw [List.takeWhile_append_of_pos all, List.dropWhile_append_of_pos all]
  cases rest with
  | nil => simp
  | cons c rest =>
    have stop := stops c rfl
    simp [stop]

variable {x : α} {front rest l : List α}

theorem take_until (free : x ∉ front) (rest : List α) :
    (front ++ x :: rest).takeWhile (· ≠ x) = front ∧ (front ++ x :: rest).dropWhile (· ≠ x) = x :: rest := by
  apply take_run
  · intro c member
    simpa using fun same : c = x => free (same ▸ member)
  · intro c head
    simpa using (Option.some.inj head).symm

theorem take_all (free : x ∉ l) : l.takeWhile (· ≠ x) = l ∧ l.dropWhile (· ≠ x) = [] := by
  have differ : ∀ c ∈ l, decide (c ≠ x) = true := by
    intro c member
    simpa using fun same : c = x => free (same ▸ member)
  have whole := take_run differ (fun c (head : ([] : List α).head? = some c) => nomatch head)
  rwa [List.append_nil] at whole

/-- Lists without the element are told apart by where it first occurs. -/
theorem split_unique {front' rest' : List α} (free : x ∉ front) (free' : x ∉ front')
    (same : front ++ x :: rest = front' ++ x :: rest') : front = front' ∧ rest = rest' := by
  obtain ⟨before, after⟩ := take_until free rest
  obtain ⟨before', after'⟩ := take_until free' rest'
  rw [same] at before after
  exact ⟨before.symm.trans before', (List.cons.inj (after.symm.trans after')).2⟩

/-- A list does not hold the element, or goes on with its first occurrence. -/
theorem until_cases (x : α) (l : List α) :
    x ∉ l ∨ ∃ front rest, l = front ++ x :: rest ∧ x ∉ front := by
  by_cases held : x ∈ l
  · exact Or.inr (List.eq_append_cons_of_mem held)
  · exact Or.inl held

end SlurmTracer.Lib.Search
