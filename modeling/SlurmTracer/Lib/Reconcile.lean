import Mathlib.Data.List.Nodup
import Mathlib.Logic.Function.Basic

/-! Moving a running set from one keyed plan to the next by taking down and
bringing up only what a diff of the two plans names. -/
namespace SlurmTracer.Lib.Reconcile

variable {K V W σ α : Type*}

/-- Every running pair is asked for, and no key runs twice. -/
structure Tracks (asked : K → Option V) (running : List (K × V)) : Prop where
  unique : (running.map Prod.fst).Nodup
  within : ∀ k v, (k, v) ∈ running → asked k = some v

/-- The keys a diff takes down, and the pairs it brings up. -/
structure Diff (current next : K → Option V) (removed : List K) (added : List (K × V)) : Prop where
  mem_removed : ∀ k, k ∈ removed ↔ current k ≠ none ∧ current k ≠ next k
  mem_added : ∀ k v, (k, v) ∈ added ↔ next k = some v ∧ current k ≠ some v
  uniqueAdded : (added.map Prod.fst).Nodup

variable {current next : K → Option V} {removed : List K} {running kept new added : List (K × V)}

theorem tracks_nil (asked : K → Option V) : Tracks asked [] := ⟨List.nodup_nil, by simp⟩

/-- A survivor of the removals is asked for by the next plan too. -/
theorem survivor_asked (diff : Diff current next removed added) (tracks : Tracks current running)
    (left : kept.Sublist running) (gone : ∀ k ∈ removed, k ∉ kept.map Prod.fst) {k : K} {v : V}
    (survives : (k, v) ∈ kept) : next k = some v := by
  have asked := tracks.within k v (left.subset survives)
  have spared : k ∉ removed := fun named => gone k named (List.mem_map_of_mem survives)
  rw [diff.mem_removed, asked] at spared
  by_contra other
  exact spared ⟨by simp, fun same => other same.symm⟩

/-- Whatever was lost on the way down or failed to come up, the result stays
within the next plan. -/
theorem tracks_reconciled (diff : Diff current next removed added) (tracks : Tracks current running)
    (left : kept.Sublist running) (gone : ∀ k ∈ removed, k ∉ kept.map Prod.fst)
    (got : new.Sublist added) : Tracks next (kept ++ new) where
  unique := by
    rw [List.map_append, List.nodup_append]
    refine ⟨tracks.unique.sublist (left.map _), diff.uniqueAdded.sublist (got.map _), ?_⟩
    intro k inKept k' inNew same
    subst same
    obtain ⟨⟨_, v⟩, survives, rfl⟩ := List.mem_map.mp inKept
    obtain ⟨⟨_, w⟩, comes, rfl⟩ := List.mem_map.mp inNew
    obtain ⟨asked, fresh⟩ := (diff.mem_added _ w).mp (got.subset comes)
    have still := survivor_asked diff tracks left gone survives
    have held := tracks.within _ v (left.subset survives)
    exact fresh (held.trans (still.symm.trans asked))
  within := by
    intro k v member
    rcases List.mem_append.mp member with survives | comes
    · exact survivor_asked diff tracks left gone survives
    · exact ((diff.mem_added k v).mp (got.subset comes)).1

/-- When nothing is lost and everything comes up, the result is the next plan
exactly if whatever both plans share was running beforehand. -/
theorem reconciled_iff (diff : Diff current next removed added) (tracks : Tracks current running)
    (left : kept.Sublist running) (gone : ∀ k ∈ removed, k ∉ kept.map Prod.fst)
    (spared : ∀ k v, (k, v) ∈ running → next k = some v → (k, v) ∈ kept) :
    (∀ k v, (k, v) ∈ kept ++ added ↔ next k = some v) ↔
      ∀ k v, current k = some v → next k = some v → (k, v) ∈ running := by
  constructor
  · intro settled k v held asked
    rcases List.mem_append.mp ((settled k v).mpr asked) with survives | comes
    · exact left.subset survives
    · exact absurd held ((diff.mem_added k v).mp comes).2
  · intro ran k v
    constructor
    · intro member
      rcases List.mem_append.mp member with survives | comes
      · exact survivor_asked diff tracks left gone survives
      · exact ((diff.mem_added k v).mp comes).1
    · intro asked
      by_cases held : current k = some v
      · exact List.mem_append_left _ (spared k v (ran k v held asked) asked)
      · exact List.mem_append_right _ ((diff.mem_added k v).mpr ⟨asked, held⟩)

/-- A diff of two plans is one of the same plans under other names for the
values. -/
theorem diff_renamed {rename : V → W} (injective : Function.Injective rename)
    (diff : Diff current next removed added) :
    Diff (fun k => (current k).map rename) (fun k => (next k).map rename) removed
      (added.map fun pair => (pair.1, rename pair.2)) where
  mem_removed := by
    intro k
    rw [diff.mem_removed, (Option.map_injective injective).ne_iff]
    exact and_congr_left' (not_congr Option.map_eq_none_iff.symm)
  mem_added := by
    intro k w
    rw [List.mem_map]
    constructor
    · rintro ⟨⟨k', v⟩, member, renamed⟩
      cases renamed
      obtain ⟨asked, fresh⟩ := (diff.mem_added _ v).mp member
      exact ⟨by rw [asked]; rfl, fun same => fresh (Option.map_injective injective same)⟩
    · rintro ⟨renamed, fresh⟩
      obtain ⟨v, asked, rfl⟩ := Option.map_eq_some_iff.mp renamed
      exact ⟨(k, v), (diff.mem_added k v).mpr ⟨asked, fun same => fresh (by rw [same]; rfl)⟩, rfl⟩
  uniqueAdded := by
    rw [List.map_map]
    exact diff.uniqueAdded

/-! ### Carrying a diff out on a plan -/

section Carrying
variable [DecidableEq K]

/-- The plan without the keys of `removed`. -/
def takeDown (plan : K → Option V) (removed : List K) : K → Option V :=
  removed.foldl (fun plan k => Function.update plan k none) plan

/-- The plan with the pairs of `added`, later ones over earlier ones. -/
def bringUp (plan : K → Option V) (added : List (K × V)) : K → Option V :=
  added.foldl (fun plan pair => Function.update plan pair.1 (some pair.2)) plan

theorem take_down_apply (plan : K → Option V) (removed : List K) (k : K) :
    takeDown plan removed k = if k ∈ removed then none else plan k := by
  unfold takeDown
  induction removed generalizing plan with
  | nil => simp
  | cons first removed ih =>
    rw [List.foldl_cons, ih]
    by_cases named : k ∈ removed
    · simp [named]
    · by_cases same : k = first <;> simp [named, same]

theorem bring_up_apart (plan : K → Option V) {added : List (K × V)} {k : K}
    (apart : k ∉ added.map Prod.fst) : bringUp plan added k = plan k := by
  unfold bringUp
  induction added generalizing plan with
  | nil => rfl
  | cons pair added ih =>
    rw [List.map_cons, List.mem_cons, not_or] at apart
    rw [List.foldl_cons, ih _ apart.2, Function.update_of_ne apart.1]

theorem bring_up_member (plan : K → Option V) {added : List (K × V)} (once : (added.map Prod.fst).Nodup)
    {k : K} {v : V} (member : (k, v) ∈ added) : bringUp plan added k = some v := by
  induction added generalizing plan with
  | nil => cases member
  | cons pair added ih =>
    obtain ⟨others, once⟩ := List.nodup_cons.mp once
    rcases List.mem_cons.mp member with rfl | member
    · exact (bring_up_apart _ others).trans (Function.update_self ..)
    · exact ih _ once member

/-- Taking down what a diff removes and bringing up what it adds turns the one
plan into the other. -/
theorem carried_out (diff : Diff current next removed added) : bringUp (takeDown current removed) added = next := by
  funext k
  by_cases named : k ∈ added.map Prod.fst
  · obtain ⟨⟨_, v⟩, member, rfl⟩ := List.mem_map.mp named
    rw [bring_up_member _ diff.uniqueAdded member, ((diff.mem_added _ _).mp member).1]
  · rw [bring_up_apart _ named, take_down_apply]
    have kept : ∀ v, next k = some v → current k = some v := by
      intro v asked
      by_contra fresh
      exact named (List.mem_map_of_mem (f := Prod.fst) ((diff.mem_added k v).mpr ⟨asked, fresh⟩))
    by_cases gone : k ∈ removed
    · rw [if_pos gone]
      obtain ⟨-, differs⟩ := (diff.mem_removed k).mp gone
      cases asked : next k with
      | none => rfl
      | some v => exact absurd ((kept v asked).trans asked.symm) differs
    · rw [if_neg gone]
      by_contra differs
      refine gone ((diff.mem_removed k).mpr ⟨fun absent => ?_, differs⟩)
      cases asked : next k with
      | none => exact differs (absent.trans asked.symm)
      | some v => exact nomatch (kept v asked).symm.trans absent

end Carrying

/-! ### Loops over a diff -/

/-- What one turn of a loop relates, the whole loop relates. -/
theorem foldl_related {R : σ → σ → Prop} {f : σ → α → σ} (refl : ∀ s, R s s)
    (trans : ∀ {a b c}, R a b → R b c → R a c) (step : ∀ s a, R s (f s a)) (l : List α) (s : σ) :
    R s (l.foldl f s) := by
  induction l generalizing s with
  | nil => exact refl s
  | cons a l ih => exact trans (step s a) (ih (f s a))

variable {view : σ → List (K × V)} {f : σ → α → σ} {item : α → K × V} {ready : σ → Prop}

theorem foldl_adds (keeps : ∀ s a, ready s → ready (f s a))
    (adds : ∀ s a, ready s → view (f s a) = view s ∨ view (f s a) = view s ++ [item a])
    (l : List α) (s : σ) (start : ready s) :
    ∃ new, new.Sublist (l.map item) ∧ view (l.foldl f s) = view s ++ new := by
  induction l generalizing s with
  | nil => exact ⟨[], List.Sublist.refl _, (List.append_nil _).symm⟩
  | cons a l ih =>
    obtain ⟨new, sub, result⟩ := ih (f s a) (keeps s a start)
    rcases adds s a start with same | grown
    · exact ⟨new, sub.cons _, by rw [List.foldl_cons, result, same]⟩
    · exact ⟨item a :: new, sub.cons_cons _, by rw [List.foldl_cons, result, grown]; simp⟩

theorem foldl_adds_all (keeps : ∀ s a, ready s → ready (f s a)) (l : List α)
    (adds : ∀ s, ∀ a ∈ l, ready s → view (f s a) = view s ++ [item a])
    (s : σ) (start : ready s) : view (l.foldl f s) = view s ++ l.map item := by
  induction l generalizing s with
  | nil => exact (List.append_nil _).symm
  | cons a l ih =>
    rw [List.foldl_cons, ih (fun s b member => adds s b (List.mem_cons_of_mem _ member)) _ (keeps s a start),
      adds s a List.mem_cons_self start]
    simp

/-- Bringing up a pair adds its key at most. -/
theorem key_grows {before after : List (K × V)} {pair : K × V} (grows : after = before ∨ after = before ++ [pair])
    {k : K} (runs : k ∈ after.map Prod.fst) : k ∈ before.map Prod.fst ∨ k = pair.1 := by
  rcases grows with rfl | rfl
  · exact Or.inl runs
  · rw [List.map_append, List.mem_append] at runs
    exact runs.imp_right List.mem_singleton.mp

/-- A loop that brings up each key once, over keys that are not there yet. -/
theorem foldl_fresh {P : σ → Prop} (keys : σ → List K) (key : α → K)
    (keeps : ∀ s a, P s → key a ∉ keys s → P (f s a))
    (grows : ∀ s a k, k ∈ keys (f s a) → k ∈ keys s ∨ k = key a)
    {l : List α} (once : (l.map key).Nodup) {s : σ} (holds : P s) (apart : ∀ a ∈ l, key a ∉ keys s) :
    P (l.foldl f s) := by
  induction l generalizing s with
  | nil => exact holds
  | cons a l ih =>
    obtain ⟨others, once⟩ := List.nodup_cons.mp once
    apply ih once (keeps s a holds (apart a List.mem_cons_self))
    intro b member there
    rcases grows s a _ there with old | same
    · exact apart b (List.mem_cons_of_mem _ member) old
    · exact others (same ▸ List.mem_map_of_mem member)

/-- A loop in which `select` decides what comes to be. -/
theorem foldl_adds_selected (keeps : ∀ s a, ready s → ready (f s a)) (select : α → Bool)
    (adds : ∀ s a, ready s → view (f s a) = view s ++ if select a then [item a] else [])
    (l : List α) (s : σ) (start : ready s) : view (l.foldl f s) = view s ++ (l.filter select).map item := by
  induction l generalizing s with
  | nil => exact (List.append_nil _).symm
  | cons a l ih =>
    rw [List.foldl_cons, ih _ (keeps s a start), adds s a start]
    cases chosen : select a <;> simp [chosen]

end SlurmTracer.Lib.Reconcile
