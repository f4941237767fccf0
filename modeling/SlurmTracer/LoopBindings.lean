import SlurmTracer.EventLoopProofs
import SlurmTracer.Lib.Transition

/-!
`EventLoop` over a whole life of `add` and `remove` calls, libbpf refusing
whichever ring it likes each time. The bindings and the rings behind `rb_` never
part, and both calls report truthfully what became of whom (`loop_in_step`).
-/
namespace SlurmTracer.LoopBindings
open SlurmTracer.Core Lib Core.EventLoop EventLoopProofs Lib.Transition

/-- A call on the loop, with what libbpf answers. -/
inductive Call where
  | add (probe : ProbePtr) (out : Emitter) (ok : Bool)
  | remove (probe : ProbePtr) (rearm : ProbePtr → Bool)

/-- `add` is for a component with a ring that is not bound yet. -/
def call (l : EventLoop) : Call → Option EventLoop
  | .add probe out ok =>
    if ∀ b ∈ l.bindings, b.probe ≠ probe then some (l.add probe out true ok).2 else none
  | .remove probe rearm => some (l.remove probe rearm).2

/-- The loops some sequence of calls leads to. -/
def Lived : EventLoop → Prop := Runs (fun l => l = {}) call Anything

/-- `rb_` is there exactly for the bindings: one ring for each, handed over
with that binding's address. -/
structure InStep (l : EventLoop) : Prop where
  null : l.rb = none ↔ l.bindings = []
  armed : rings l = l.bindings.map ringOf
  once : ((rings l).map ArmedRing.probe).Nodup
  live : ∀ ring ∈ rings l, ∃ b ∈ l.bindings, b.addr = ring.ctx ∧ b.probe = ring.probe ∧
    ∀ other ∈ l.bindings, other.addr = ring.ctx → other = b

/-- What `add` says of its own ring, and does to nothing else. -/
structure AddTells (l : EventLoop) (probe : ProbePtr) (out : Emitter) (ok : Bool) : Prop where
  refused : (l.add probe out true ok).1 = false ↔ ∀ ring ∈ rings (l.add probe out true ok).2, ring.probe ≠ probe
  unchanged : (l.add probe out true ok).1 = false → (l.add probe out true ok).2 = l
  bound : (l.add probe out true ok).1 = true → ∃ b, b.probe = probe ∧ b.out = out ∧
    (l.add probe out true ok).2.bindings = l.bindings ++ [b]

/-- `remove` splits the other bindings into those it keeps, in their order, and
those it returns. -/
structure RemoveSplits (l : EventLoop) (probe : ProbePtr) (rearm : ProbePtr → Bool) : Prop where
  kept : (l.remove probe rearm).2.bindings.Sublist (l.bindings.filter (·.probe ≠ probe))
  split : ∃ lost : List Binding, (l.remove probe rearm).1 = lost.map Binding.probe ∧
    (lost ++ (l.remove probe rearm).2.bindings).Perm (l.bindings.filter (·.probe ≠ probe))
  once : ((l.remove probe rearm).1 ++ (l.remove probe rearm).2.bindings.map Binding.probe).Nodup
  /-- It returns those whose ring libbpf refused when it was rebuilt, and no others. -/
  refused : ∀ lost, lost ∈ (l.remove probe rearm).1 ↔
    (∃ b ∈ l.bindings, b.probe = probe) ∧ (∃ b ∈ l.bindings, b.probe = lost) ∧ lost ≠ probe ∧ rearm lost = false

variable {l : EventLoop} {probe : ProbePtr}

/-! ### The null pointer -/

theorem add_null (null : l.rb = none ↔ l.bindings = []) (probe : ProbePtr) (out : Emitter) (ok : Bool) :
    (l.add probe out true ok).2.rb = none ↔ (l.add probe out true ok).2.bindings = [] := by
  cases ok with
  | false => exact null
  | true => cases armed : l.rb <;> simp [add, arm, armed]

/-- The first ring the loop manages to arm creates `rb_`, later ones extend it. -/
theorem rearm_all_null (rearm : ProbePtr → Bool) (bindings : List Binding) (s : Rebuild)
    (null : s.rb = none ↔ s.surviving = []) :
    (bindings.foldl (rearmOne rearm) s).rb = none ↔ (bindings.foldl (rearmOne rearm) s).surviving = [] := by
  induction bindings generalizing s with
  | nil => exact null
  | cons b bindings ih =>
    apply ih
    cases ok : rearm b.probe with
    | false => simpa [rearmOne, ok, arm] using null
    | true => cases armed : s.rb <;> simp [rearmOne, ok, arm, armed]

theorem remove_null (null : l.rb = none ↔ l.bindings = []) (probe : ProbePtr) (rearm : ProbePtr → Bool) :
    (l.remove probe rearm).2.rb = none ↔ (l.remove probe rearm).2.bindings = [] := by
  unfold remove
  cases l.bindings.find? (·.probe = probe) with
  | none => exact null
  | some b =>
    dsimp only
    split
    · exact iff_of_true rfl rfl
    · exact rearm_all_null rearm _ {} (iff_of_true rfl rfl)

/-! ### Runs -/

/-- The invariant of a run. -/
def Inv (l : EventLoop) : Prop := Consistent l ∧ (l.rb = none ↔ l.bindings = [])

theorem inv_call {l' : EventLoop} (c : Call) (inv : Inv l) (ran : call l c = some l') : Inv l' := by
  obtain ⟨held, null⟩ := inv
  cases c with
  | add probe out ok =>
    obtain ⟨fresh, ran⟩ := Option.ite_none_right_eq_some.mp ran
    cases ran
    exact ⟨add_consistent held fresh out true ok, add_null null probe out ok⟩
  | remove probe rearm =>
    cases ran
    exact ⟨remove_consistent held probe rearm, remove_null null probe rearm⟩

theorem inv_lived (lived : Lived l) : Inv l := by
  refine lived.invariant ?_ (fun s c s' inv _ ran => inv_call c inv ran)
  rintro s rfl
  exact ⟨consistent_empty, iff_of_true rfl rfl⟩

theorem in_step (inv : Inv l) : InStep l where
  null := inv.2
  armed := inv.1.rings
  once := by
    rw [inv.1.rings, List.map_map]
    exact inv.1.unique
  live := by
    intro ring member
    rw [inv.1.rings] at member
    obtain ⟨b, bound, rfl⟩ := List.mem_map.mp member
    refine ⟨b, bound, rfl, rfl, fun other there same => ?_⟩
    exact List.inj_on_of_nodup_map inv.1.addresses there bound same

theorem add_tells (held : Consistent l) (fresh : ∀ b ∈ l.bindings, b.probe ≠ probe) (out : Emitter) (ok : Bool) :
    AddTells l probe out ok := by
  have unbound : ∀ ring ∈ rings l, ring.probe ≠ probe := by
    intro ring member
    rw [held.rings] at member
    obtain ⟨b, bound, rfl⟩ := List.mem_map.mp member
    exact fresh b bound
  have after := (add_consistent held fresh out true ok).rings
  rw [add_bindings] at after
  cases ok with
  | false => exact ⟨iff_of_true rfl unbound, fun _ => rfl, nofun⟩
  | true =>
    refine ⟨iff_of_false nofun fun absent => ?_, nofun, fun _ => ⟨_, rfl, rfl, add_bindings ..⟩⟩
    refine absent (ringOf ⟨l.nextAddr, probe, out⟩) ?_ rfl
    rw [after]
    simp

/-- The bindings `remove` is not asked about. -/
theorem others_once (held : Consistent l) (probe : ProbePtr) :
    ((l.bindings.filter (·.probe ≠ probe)).map Binding.probe).Nodup :=
  held.unique.sublist (List.filter_sublist.map _)

theorem remove_splits (held : Consistent l) (probe : ProbePtr) (rearm : ProbePtr → Bool) :
    RemoveSplits l probe rearm := by
  have once := others_once held probe
  by_cases bound : ∃ b ∈ l.bindings, b.probe = probe
  · obtain ⟨dropped, bindings, -, -⟩ := remove_bound bound rearm
    rw [Keyed.eraseP_key held.unique] at dropped bindings
    have split : ∀ others : List Binding,
        (others.filter (fun b => !rearm b.probe) ++ others.filter fun b => rearm b.probe).Perm others :=
      fun others => List.perm_append_comm.trans (List.filter_append_perm _ others)
    refine ⟨?_, ⟨_, dropped, ?_⟩, ?_, fun lost => ?_⟩
    · rw [bindings]
      exact List.filter_sublist
    · rw [bindings]
      exact split _
    · rw [bindings, dropped, ← List.map_append]
      exact ((split _).map _).nodup_iff.mpr once
    · rw [mem_dropped held bound, and_iff_right bound]
  · have absent := bound
    push Not at bound
    have all : l.bindings.filter (·.probe ≠ probe) = l.bindings := by
      rw [List.filter_eq_self]
      simpa using bound
    rw [all] at once
    have idle := remove_unbound bound rearm
    refine ⟨?_, ⟨[], ?_, ?_⟩, ?_, fun lost => ?_⟩ <;> rw [idle]
    · rw [all]
    · rfl
    · rw [all, List.nil_append]
    · exact once
    · exact iff_of_false List.not_mem_nil fun refused => absent refused.1

/-- After any calls on the loop, and in the next one, the loop is in step with
its `ring_buffer` and truthful about it. -/
theorem loop_in_step (l : EventLoop) (lived : Lived l) :
    InStep l ∧
      (∀ probe out ok, (∀ b ∈ l.bindings, b.probe ≠ probe) → AddTells l probe out ok) ∧
      ∀ probe rearm, RemoveSplits l probe rearm := by
  have inv := inv_lived lived
  exact ⟨in_step inv, fun _ out ok fresh => add_tells inv.1 fresh out ok, remove_splits inv.1⟩

/-- Of three probes the last is left: the first was removed, and libbpf then
refused the second. -/
def oneLeft : EventLoop where
  rb := some [⟨.probe 2, 2⟩]
  bindings := [⟨2, .probe 2, .instance (ascii "c")⟩]
  nextAddr := 3

theorem in_step_with_survivor :
    InStep oneLeft ∧
      (∀ probe out ok, (∀ b ∈ oneLeft.bindings, b.probe ≠ probe) → AddTells oneLeft probe out ok) ∧
      ∀ probe rearm, RemoveSplits oneLeft probe rearm := by
  have bound : Lived _ := Runs.steps (.start rfl)
    [.add (.probe 0) (.instance (ascii "a")) true, .add (.probe 1) (.instance (ascii "b")) true,
      .add (.probe 2) (.instance (ascii "c")) true, .remove (.probe 0) fun probe => probe ≠ .probe 1] rfl
  exact loop_in_step _ bound

end SlurmTracer.LoopBindings
