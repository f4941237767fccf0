import Mathlib.Data.List.Nodup
import Std.Data.TreeMap

/-! Tables by key: lists whose elements carry distinct keys, and ordered maps. -/
namespace SlurmTracer.Lib.Keyed

variable {α κ : Type*} {key : α → κ} {l : List α}

theorem nodup_snoc {x : α} (unique : l.Nodup) (fresh : x ∉ l) : (l ++ [x]).Nodup := by
  rw [← List.concat_eq_append]
  exact List.Nodup.concat fresh unique

variable [DecidableEq κ]

/-- Erasing by key keeps the elements with other keys, in their order. -/
theorem eraseP_key (unique : (l.map key).Nodup) (k : κ) :
    l.eraseP (fun y => key y = k) = l.filter fun y => key y ≠ k := by
  induction l with
  | nil => rfl
  | cons head tail ih =>
    obtain ⟨fresh, rest⟩ := List.nodup_cons.mp unique
    by_cases here : key head = k
    · rw [List.eraseP_cons_of_pos (by simpa using here), List.filter_cons_of_neg (by simpa using here)]
      refine (List.filter_eq_self.mpr fun x member => ?_).symm
      rw [decide_eq_true_eq]
      exact fun same => fresh (here.trans same.symm ▸ List.mem_map_of_mem member)
    · rw [List.eraseP_cons_of_neg (by simpa using here), List.filter_cons_of_pos (by simpa using here), ih rest]

theorem mem_eraseP_key (unique : (l.map key).Nodup) (k : κ) (x : α) :
    x ∈ l.eraseP (fun y => key y = k) ↔ x ∈ l ∧ key x ≠ k := by
  rw [eraseP_key unique, List.mem_filter, decide_eq_true_eq]

/-- Erasing what a search by key found is erasing by key. -/
theorem mem_erase_found [DecidableEq α] (unique : (l.map key).Nodup) {k : κ} {found : α}
    (search : l.find? (fun y => key y = k) = some found) (x : α) :
    x ∈ l.erase found ↔ x ∈ l ∧ key x ≠ k := by
  have member : found ∈ l := List.mem_of_find?_eq_some search
  have isIt : key found = k := by simpa using List.find?_some search
  rw [(List.Nodup.of_map key unique).mem_erase_iff]
  constructor
  · rintro ⟨other, present⟩
    exact ⟨present, fun same =>
      other (List.inj_on_of_nodup_map unique present member (same.trans isIt.symm))⟩
  · rintro ⟨present, other⟩
    exact ⟨fun same => other (same ▸ isIt), present⟩

/-- A search by an element's key finds that element. -/
theorem find_key (unique : (l.map key).Nodup) {x : α} (member : x ∈ l) :
    l.find? (fun y => key y = key x) = some x := by
  cases search : l.find? (fun y => key y = key x) with
  | none => simpa using List.find?_eq_none.mp search x member
  | some found =>
    have isIt : key found = key x := by simpa using List.find?_some search
    exact congrArg some (List.inj_on_of_nodup_map unique (List.mem_of_find?_eq_some search) member isIt)

/-! ### Ordered maps, read through equality of keys -/

variable {V : Type*} [Ord κ] [Std.TransOrd κ] [Std.LawfulEqOrd κ] (map : Std.TreeMap κ V) (k other : κ)

theorem lookup_after_insert (v : V) : (map.insert k v)[other]? = if other = k then some v else map[other]? := by
  rw [Std.TreeMap.getElem?_insert]
  exact if_congr (Std.LawfulEqCmp.compare_eq_iff_eq.trans eq_comm) rfl rfl

theorem lookup_after_erase : (map.erase k)[other]? = if other = k then none else map[other]? := by
  rw [Std.TreeMap.getElem?_erase]
  exact if_congr (Std.LawfulEqCmp.compare_eq_iff_eq.trans eq_comm) rfl rfl

end SlurmTracer.Lib.Keyed
