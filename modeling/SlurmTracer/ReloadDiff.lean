import SlurmTracer.Core.Config
import SlurmTracer.Lib.Keyed
import SlurmTracer.Lib.Reconcile

/-!
What `diff_for_reload` says of two configurations. Its two loops over each kind
of component mirror each other, so that taking down what the one names and
bringing up what the other names leads from the current plugins to the next
ones and to nothing else (`diff_exact`).
-/
namespace SlurmTracer.ReloadDiff
open SlurmTracer.Core Lib Lib.Reconcile

theorem mem_diff_loop (these others : Components) (id : Bytes) :
    id ∈ diffLoop these others ↔ ∃ config, these[id]? = some config ∧
      ∀ other, others[id]? = some other → pluginOf id config ≠ pluginOf id other := by
  unfold diffLoop
  rw [List.mem_filterMap]
  constructor
  · rintro ⟨⟨id', config⟩, member, picked⟩
    have there := Std.TreeMap.mem_toList_iff_getElem?_eq_some.mp member
    simp only at picked
    cases found : others[id']? with
    | none =>
      rw [found] at picked
      cases picked
      exact ⟨config, there, fun other held => by rw [found] at held; cases held⟩
    | some other =>
      rw [found] at picked
      simp only [Option.ite_none_right_eq_some] at picked
      obtain ⟨differs, same⟩ := picked
      cases same
      refine ⟨config, there, fun other' held => ?_⟩
      rw [found] at held
      cases held
      exact differs
  · rintro ⟨config, there, differs⟩
    refine ⟨(id, config), Std.TreeMap.mem_toList_iff_getElem?_eq_some.mpr there, ?_⟩
    cases found : others[id]? with
    | none => simp only [found]
    | some other =>
      simp only [found]
      exact if_pos (differs other found)

theorem keys_nodup (components : Components) : (components.toList.map Prod.fst).Nodup := by
  have := @Std.TreeMap.distinct_keys_toList _ _ _ components _
  rw [List.Nodup, List.pairwise_map]
  exact this.imp fun differ same => differ (by rw [same]; exact Std.ReflCmp.compare_self)

theorem diff_loop_nodup (these others : Components) : (diffLoop these others).Nodup := by
  refine (keys_nodup these).sublist ?_
  unfold diffLoop
  induction these.toList with
  | nil => exact List.Sublist.refl _
  | cons entry entries ih =>
    obtain ⟨id, config⟩ := entry
    rw [List.filterMap_cons]
    cases found : others[id]? with
    | none =>
      simp only [found]
      exact ih.cons_cons _
    | some other =>
      simp only [found]
      by_cases differs : pluginOf id config ≠ pluginOf id other
      · rw [if_pos differs]
        exact ih.cons_cons _
      · rw [if_neg differs]
        exact ih.cons _

/-- Which plugin each instance is built from, by id. -/
def plugins (components : Components) : Std.TreeMap Bytes Bytes := components.map pluginOf

/-- The ids of `added`, with the plugin that `next` builds each from. -/
def pluginsOf (next : Components) (added : List Bytes) : List (Bytes × Bytes) :=
  added.filterMap fun id => (plugins next)[id]?.map fun plugin => (id, plugin)

/-- The current plugins after deleting the removed ids and then inserting the
added ones. -/
def patched (current next : Components) (removed added : List Bytes) : Std.TreeMap Bytes Bytes :=
  (pluginsOf next added).foldl (fun map entry => map.insert entry.1 entry.2)
    (removed.foldl (fun map id => map.erase id) (plugins current))

theorem plugins_lookup (components : Components) (id : Bytes) :
    (plugins components)[id]? = components[id]?.map (pluginOf id) :=
  Std.TreeMap.getElem?_map

theorem mem_loop_iff (these others : Components) (id : Bytes) :
    id ∈ diffLoop these others ↔ (plugins these)[id]? ≠ none ∧ (plugins these)[id]? ≠ (plugins others)[id]? := by
  rw [mem_diff_loop, plugins_lookup, plugins_lookup]
  cases here : these[id]? with
  | none => simp
  | some config =>
    cases there : others[id]? with
    | none => simp
    | some other => simp

theorem mem_plugins_of (next : Components) (added : List Bytes) (id plugin : Bytes) :
    (id, plugin) ∈ pluginsOf next added ↔ id ∈ added ∧ (plugins next)[id]? = some plugin := by
  unfold pluginsOf
  rw [List.mem_filterMap]
  constructor
  · rintro ⟨id', member, named⟩
    obtain ⟨plugin', held, same⟩ := Option.map_eq_some_iff.mp named
    cases same
    exact ⟨member, held⟩
  · rintro ⟨member, held⟩
    exact ⟨id, member, by rw [held]; rfl⟩

theorem plugins_of_keys (next : Components) (added : List Bytes) :
    ((pluginsOf next added).map Prod.fst).Sublist added := by
  unfold pluginsOf
  induction added with
  | nil => exact List.Sublist.refl _
  | cons id added ih =>
    rw [List.filterMap_cons]
    cases (plugins next)[id]? with
    | none => exact ih.cons _
    | some plugin => exact ih.cons_cons _

/-- The two loops are a diff of the plugins asked for. -/
theorem plugins_diff (current next : Components) :
    Diff (fun id => (plugins current)[id]?) (fun id => (plugins next)[id]?) (diffLoop current next)
      (pluginsOf next (diffLoop next current)) where
  mem_removed := mem_loop_iff current next
  mem_added := by
    intro id plugin
    rw [mem_plugins_of, mem_loop_iff]
    constructor
    · rintro ⟨⟨-, differs⟩, asked⟩
      exact ⟨asked, fun same => differs (asked.trans same.symm)⟩
    · rintro ⟨asked, fresh⟩
      refine ⟨⟨by simp [asked], fun same => fresh ?_⟩, asked⟩
      exact same.symm.trans asked
  uniqueAdded := (diff_loop_nodup next current).sublist (plugins_of_keys next _)

/-! ### The lists carried out on a map -/

/-- A map as the plan it is. -/
def plan (map : Std.TreeMap Bytes Bytes) (id : Bytes) : Option Bytes := map[id]?

theorem plan_erase (map : Std.TreeMap Bytes Bytes) (id : Bytes) :
    plan (map.erase id) = Function.update (plan map) id none := by
  funext other
  unfold plan
  rw [Keyed.lookup_after_erase, Function.update_apply]

theorem plan_insert (map : Std.TreeMap Bytes Bytes) (id plugin : Bytes) :
    plan (map.insert id plugin) = Function.update (plan map) id (some plugin) := by
  funext other
  unfold plan
  rw [Keyed.lookup_after_insert, Function.update_apply]

theorem plan_patched (current next : Components) (removed added : List Bytes) :
    plan (patched current next removed added) =
      bringUp (takeDown (plan (plugins current)) removed) (pluginsOf next added) := by
  have erased : takeDown (plan (plugins current)) removed =
      plan (removed.foldl (fun map id => map.erase id) (plugins current)) :=
    List.foldl_hom plan fun map id => (plan_erase map id).symm
  rw [erased]
  exact (List.foldl_hom plan fun map entry => (plan_insert map entry.1 entry.2).symm).symm

/-- One kind of component across a reload with these two lists. -/
structure Exact (current next : Components) (removed added : List Bytes) : Prop where
  lands : (patched current next removed added).toList = (plugins next).toList
  removedOnce : removed.Nodup
  addedOnce : added.Nodup
  replaced : ∀ id, (id ∈ removed ∧ id ∈ added) ↔ ∃ old new,
    (plugins current)[id]? = some old ∧ (plugins next)[id]? = some new ∧ old ≠ new
  untouched : ∀ id plugin, (plugins current)[id]? = some plugin → (plugins next)[id]? = some plugin →
    id ∉ removed ∧ id ∉ added

theorem loops_exact (current next : Components) :
    Exact current next (diffLoop current next) (diffLoop next current) where
  lands := by
    apply Std.TreeMap.equiv_iff_toList_eq.mp
    apply Std.TreeMap.Equiv.of_forall_constGet?_eq
    intro id
    exact congrFun ((plan_patched current next _ _).trans (carried_out (plugins_diff current next))) id
  removedOnce := diff_loop_nodup current next
  addedOnce := diff_loop_nodup next current
  replaced := by
    intro id
    rw [mem_loop_iff, mem_loop_iff]
    constructor
    · rintro ⟨⟨held, differs⟩, asked, -⟩
      obtain ⟨old, held⟩ := Option.ne_none_iff_exists'.mp held
      obtain ⟨new, asked⟩ := Option.ne_none_iff_exists'.mp asked
      refine ⟨old, new, held, asked, fun same => differs ?_⟩
      rw [held, asked, same]
    · rintro ⟨old, new, held, asked, differs⟩
      rw [held, asked]
      exact ⟨⟨nofun, fun same => differs (Option.some.inj same)⟩,
        nofun, fun same => differs (Option.some.inj same).symm⟩
  untouched := by
    intro id plugin held asked
    rw [mem_loop_iff, mem_loop_iff, held, asked]
    exact ⟨fun named => named.2 rfl, fun named => named.2 rfl⟩

theorem diff_loop_self (components : Components) : diffLoop components components = [] := by
  apply List.eq_nil_iff_forall_not_mem.mpr
  intro id named
  exact ((mem_loop_iff components components id).mp named).2 rfl

/-- What a running daemon cannot change differs between the two. -/
def Differ (current next : Config) : Prop :=
  current.cluster ≠ next.cluster ∨ current.node ≠ next.node ∨ current.cgroupRoot ≠ next.cgroupRoot ∨
    current.pluginDir ≠ next.pluginDir ∨ current.batchSize ≠ next.batchSize ∨
    current.flushInterval ≠ next.flushInterval ∨ current.verbose ≠ next.verbose

theorem diff_for_reload_none (current next : Config) :
    diffForReload current next = none ↔ Differ current next := by
  have settings : Differ current next ↔ _ := or_congr ne_comm <| or_congr ne_comm <| or_congr ne_comm <|
    or_congr ne_comm <| or_congr ne_comm <| or_congr ne_comm ne_comm
  rw [settings]
  unfold diffForReload
  split
  · exact iff_of_true rfl ‹_›
  · exact iff_of_false nofun ‹_›

theorem diff_for_reload_some (current next : Config) {diff : ConfigDiff}
    (accepted : diffForReload current next = some diff) :
    diff.removedProbes = diffLoop current.probes next.probes ∧
      diff.addedProbes = diffLoop next.probes current.probes ∧
      diff.removedSinks = diffLoop current.sinks next.sinks ∧
      diff.addedSinks = diffLoop next.sinks current.sinks := by
  unfold diffForReload at accepted
  split at accepted
  · cases accepted
  · cases accepted
    exact ⟨rfl, rfl, rfl, rfl⟩

/-- A reload is refused exactly over the settings that have no live path, and
an accepted one is carried out by its lists exactly. -/
theorem diff_exact (current next : Config) :
    (diffForReload current next = none ↔ Differ current next) ∧
      (∀ diff, diffForReload current next = some diff →
        Exact current.probes next.probes diff.removedProbes diff.addedProbes ∧
          Exact current.sinks next.sinks diff.removedSinks diff.addedSinks) ∧
      diffForReload current current =
        some { addedProbes := [], removedProbes := [], addedSinks := [], removedSinks := [] } := by
  refine ⟨diff_for_reload_none current next, fun diff accepted => ?_, ?_⟩
  · obtain ⟨removedProbes, addedProbes, removedSinks, addedSinks⟩ := diff_for_reload_some current next accepted
    rw [removedProbes, addedProbes, removedSinks, addedSinks]
    exact ⟨loops_exact _ _, loops_exact _ _⟩
  · simp [diffForReload, diffComponents, diff_loop_self]

end SlurmTracer.ReloadDiff
