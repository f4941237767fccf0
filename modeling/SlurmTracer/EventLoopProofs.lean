import SlurmTracer.Core.EventLoop
import SlurmTracer.Lib.Keyed

/-! What `EventLoop::add` and `EventLoop::remove` leave behind: the shared
`ring_buffer` holds one ring for each binding, pointing at it, and nothing
else. -/
namespace SlurmTracer.EventLoopProofs
open SlurmTracer.Core Lib Core.EventLoop

/-- The rings libbpf polls for a loop. -/
def rings (l : EventLoop) : List ArmedRing := l.rb.getD []

/-- The ring a binding stands for. -/
def ringOf (b : Binding) : ArmedRing := ⟨b.probe, b.addr⟩

/-- Every context pointer libbpf holds is a live binding's, one for each
component. -/
structure Consistent (l : EventLoop) : Prop where
  rings : rings l = l.bindings.map ringOf
  unique : (l.bindings.map Binding.probe).Nodup
  addresses : (l.bindings.map Binding.addr).Nodup
  allocated : ∀ b ∈ l.bindings, b.addr < l.nextAddr

theorem consistent_empty : Consistent {} := ⟨rfl, List.nodup_nil, List.nodup_nil, by simp⟩

private theorem arm_rings (rb : Option (List ArmedRing)) (b : Binding) (ok : Bool) :
    (arm rb b ok).getD [] = rb.getD [] ++ (if ok then [ringOf b] else []) := by
  cases ok <;> cases rb <;> simp [arm, ringOf]

/-! ### Adding -/

theorem add_fst (l : EventLoop) (probe : ProbePtr) (out : Emitter) (offersRing ok : Bool) :
    (l.add probe out offersRing ok).1 = (!offersRing || ok) := by
  cases offersRing <;> cases ok <;> rfl

theorem add_bindings (l : EventLoop) (probe : ProbePtr) (out : Emitter) (offersRing ok : Bool) :
    (l.add probe out offersRing ok).2.bindings =
      if offersRing && ok then l.bindings ++ [⟨l.nextAddr, probe, out⟩] else l.bindings := by
  cases offersRing <;> cases ok <;> rfl

theorem add_consistent {l : EventLoop} (held : Consistent l) {probe : ProbePtr}
    (fresh : ∀ b ∈ l.bindings, b.probe ≠ probe) (out : Emitter) (offersRing ok : Bool) :
    Consistent (l.add probe out offersRing ok).2 := by
  cases offersRing with
  | false => exact held
  | true =>
    cases ok with
    | false => exact ⟨held.rings, held.unique, held.addresses, held.allocated⟩
    | true =>
      simp only [add, Bool.not_true, Bool.false_eq_true, if_false]
      constructor
      · simp only [rings, arm_rings, if_true, List.map_append, List.map_cons, List.map_nil]
        rw [← held.rings]
        rfl
      · rw [List.map_append]
        refine Keyed.nodup_snoc held.unique fun taken => ?_
        obtain ⟨bound, present, same⟩ := List.mem_map.mp taken
        exact fresh bound present same
      · rw [List.map_append]
        refine Keyed.nodup_snoc held.addresses fun taken => ?_
        obtain ⟨bound, present, same⟩ := List.mem_map.mp taken
        exact Nat.ne_of_lt (held.allocated bound present) same
      · intro b member
        rcases List.mem_append.mp member with present | new
        · exact Nat.lt_succ_of_lt (held.allocated b present)
        · rw [List.mem_singleton.mp new]
          exact Nat.lt_succ_self _

/-! ### Removing -/

/-- The rebuilding loop splits the bindings by libbpf's answers. -/
theorem rearm_all (rearm : ProbePtr → Bool) (bindings : List Binding) (s : Rebuild) :
    let s' := bindings.foldl (rearmOne rearm) s
    let survivors := bindings.filter fun b => rearm b.probe
    s'.rb.getD [] = s.rb.getD [] ++ survivors.map ringOf ∧
      s'.surviving = s.surviving ++ survivors ∧
      s'.dropped = s.dropped ++ (bindings.filter fun b => !rearm b.probe).map Binding.probe := by
  induction bindings generalizing s with
  | nil => simp
  | cons b bindings ih =>
    obtain ⟨ringsStep, survivingStep, droppedStep⟩ := ih (rearmOne rearm s b)
    rw [List.foldl_cons]
    refine ⟨ringsStep.trans ?_, survivingStep.trans ?_, droppedStep.trans ?_⟩ <;>
      cases ok : rearm b.probe <;> simp [rearmOne, ok, arm_rings]

/-- What `remove` reports and keeps, for a component that is bound. -/
theorem remove_bound {l : EventLoop} {probe : ProbePtr} (bound : ∃ b ∈ l.bindings, b.probe = probe)
    (rearm : ProbePtr → Bool) :
    let others := l.bindings.eraseP (·.probe = probe)
    (l.remove probe rearm).1 = (others.filter fun b => !rearm b.probe).map Binding.probe ∧
      (l.remove probe rearm).2.bindings = (others.filter fun b => rearm b.probe) ∧
      rings (l.remove probe rearm).2 = (others.filter fun b => rearm b.probe).map ringOf ∧
      (l.remove probe rearm).2.nextAddr = l.nextAddr := by
  obtain ⟨b, member, isIt⟩ := bound
  obtain ⟨found, here⟩ : ∃ found, l.bindings.find? (·.probe = probe) = some found :=
    Option.isSome_iff_exists.mp (List.find?_isSome.mpr ⟨b, member, by simp [isIt]⟩)
  simp only [remove, here]
  by_cases last : l.bindings.eraseP (·.probe = probe) = []
  · simp [last, rings]
  · obtain ⟨ringsAll, survivingAll, droppedAll⟩ :=
      rearm_all rearm (l.bindings.eraseP (·.probe = probe)) {}
    simp only [if_neg last]
    exact ⟨by simpa using droppedAll, by simpa using survivingAll, by simpa [rings] using ringsAll, trivial⟩

theorem remove_unbound {l : EventLoop} {probe : ProbePtr} (unbound : ∀ b ∈ l.bindings, b.probe ≠ probe)
    (rearm : ProbePtr → Bool) : l.remove probe rearm = ([], l) := by
  have missing : l.bindings.find? (·.probe = probe) = none :=
    List.find?_eq_none.mpr fun b member => by simpa using unbound b member
  simp only [remove, missing]

/-- Nothing is reported as dropped that libbpf re-armed. -/
theorem dropped_refused (l : EventLoop) (probe : ProbePtr) (rearm : ProbePtr → Bool) (dead : ProbePtr)
    (reported : dead ∈ (l.remove probe rearm).1) : rearm dead = false := by
  by_cases bound : ∃ b ∈ l.bindings, b.probe = probe
  · rw [(remove_bound bound rearm).1] at reported
    obtain ⟨b, member, rfl⟩ := List.mem_map.mp reported
    simpa using (List.mem_filter.mp member).2
  · push Not at bound
    simp [remove_unbound bound] at reported

private theorem mem_others {l : EventLoop} (held : Consistent l) (probe : ProbePtr) (b : Binding) :
    b ∈ l.bindings.eraseP (·.probe = probe) ↔ b ∈ l.bindings ∧ b.probe ≠ probe :=
  Keyed.mem_eraseP_key held.unique probe b

/-- Who is still bound after a removal. -/
theorem mem_remove_bindings {l : EventLoop} (held : Consistent l) {probe : ProbePtr}
    (bound : ∃ b ∈ l.bindings, b.probe = probe) (rearm : ProbePtr → Bool) (b : Binding) :
    b ∈ (l.remove probe rearm).2.bindings ↔ b ∈ l.bindings ∧ b.probe ≠ probe ∧ rearm b.probe = true := by
  rw [(remove_bound bound rearm).2.1, List.mem_filter, mem_others held, and_assoc]

/-- Who is reported as dropped by a removal. -/
theorem mem_dropped {l : EventLoop} (held : Consistent l) {probe : ProbePtr}
    (bound : ∃ b ∈ l.bindings, b.probe = probe) (rearm : ProbePtr → Bool) (dead : ProbePtr) :
    dead ∈ (l.remove probe rearm).1 ↔
      (∃ b ∈ l.bindings, b.probe = dead) ∧ dead ≠ probe ∧ rearm dead = false := by
  rw [(remove_bound bound rearm).1]
  simp only [List.mem_map, List.mem_filter, mem_others held, Bool.not_eq_true']
  constructor
  · rintro ⟨b, ⟨⟨member, other⟩, refused⟩, rfl⟩
    exact ⟨⟨b, member, rfl⟩, other, refused⟩
  · rintro ⟨⟨b, member, rfl⟩, other, refused⟩
    exact ⟨b, ⟨⟨member, other⟩, refused⟩, rfl⟩

theorem remove_consistent {l : EventLoop} (held : Consistent l) (probe : ProbePtr)
    (rearm : ProbePtr → Bool) : Consistent (l.remove probe rearm).2 := by
  by_cases bound : ∃ b ∈ l.bindings, b.probe = probe
  · obtain ⟨-, bindings, ringsLeft, nextAddr⟩ := remove_bound bound rearm
    have sub : ((l.remove probe rearm).2.bindings).Sublist l.bindings := by
      rw [bindings]
      exact List.filter_sublist.trans List.eraseP_sublist
    exact ⟨ringsLeft.trans (by rw [bindings]), held.unique.sublist (sub.map _),
      held.addresses.sublist (sub.map _), fun b member => nextAddr ▸ held.allocated b (sub.subset member)⟩
  · push Not at bound
    rw [remove_unbound bound]
    exact held

end SlurmTracer.EventLoopProofs
