import SlurmTracer.RecycleGuard
import SlurmTracer.WalkCompleteness

/-!
Creation times the bootstrap makes up from two clocks. A directory's `ctime` is
wall clock, the offset to `CLOCK_MONOTONIC` is sampled once, and the wall clock
may be stepped in between: the reuse guard lets every later event of the
directory through exactly when the time so reconstructed is not past the end of
the scan (`never_rejected_iff`).
-/
namespace SlurmTracer.BootstrapClocks
open Lib SlurmTracer.Core Core.CgroupResolver ResolverProofs RecycleGuard WalkProofs WalkAndFeed WalkCompleteness

/-- The two clocks up to the end of a scan. Instants are `CLOCK_MONOTONIC`
nanoseconds; `CLOCK_REALTIME` may show anything at any of them. -/
structure Clocks where
  realtime : UInt64 → UInt64
  /-- When `boot_offset_ns` reads `CLOCK_REALTIME`, and then `CLOCK_MONOTONIC`. -/
  realtimeRead : UInt64
  monotonicRead : UInt64
  /-- When the scan is over. -/
  scanned : UInt64
  running : 0 < realtimeRead
  inOrder : realtimeRead ≤ monotonicRead ∧ monotonicRead ≤ scanned

/-- What `boot_offset_ns` returns from then on. -/
def Clocks.bootOffsetNs (clocks : Clocks) : UInt64 :=
  clocks.realtime clocks.realtimeRead - clocks.monotonicRead

/-- The directory's `ctime` is what the wall clock showed at some instant
before the scan was over. -/
def Recorded (clocks : Clocks) (n : Node) : Prop :=
  ∃ changed ≤ clocks.scanned, n.ctimeNs = clocks.realtime changed

/-- The calls that put another entry in the place of an id's. -/
def Replaces (id : UInt64) (op : Op) : Prop :=
  ∃ path createdNs attr, op = .created id path createdNs ∧ parseCgroupPath path = some attr

/-- The resolver after the scan and these calls. -/
def after (clocks : Clocks) (tree : CgroupTree) (root : Path) (graceNs : UInt64) (ops : List Op) :
    CgroupResolver :=
  ops.foldl apply (start clocks.bootOffsetNs tree { root, graceNs }).2

/-- For as long as the scan's entry for the directory is there, an event
stamped after the scan gets the directory's attribution. -/
def NeverRejected (clocks : Clocks) (tree : CgroupTree) (root : Path) (graceNs : UInt64) (n : Node) : Prop :=
  ∀ ops eventTsNs, (∀ op ∈ ops, ¬ Replaces n.ino op) →
    (after clocks tree root graceNs ops).entries.lookup n.ino ≠ none → clocks.scanned ≤ eventTsNs →
    ((after clocks tree root graceNs ops).resolve n.ino eventTsNs).1 = parseCgroupPath (pathString n.path)

/-- Carried over with the sampled offset, the `ctime` is not past the end of
the scan. An offset below zero wraps around. -/
def CarriedToPast (clocks : Clocks) (n : Node) : Prop :=
  n.ctimeNs.toNat + clocks.monotonicRead.toNat ≤ clocks.scanned.toNat +
    (clocks.realtime clocks.realtimeRead).toNat +
    if clocks.realtime clocks.realtimeRead < clocks.monotonicRead then UInt64.size else 0

/-! ### The arithmetic of the offset -/

/-- The clamp makes it a subtraction of natural numbers. -/
theorem created_nat (bootOffsetNs : UInt64) (n : Node) :
    (createdFromCtime bootOffsetNs n).toNat = n.ctimeNs.toNat - bootOffsetNs.toNat := by
  unfold createdFromCtime
  split
  · rename_i later
    exact UInt64.toNat_sub_of_le _ _ (UInt64.le_of_lt later)
  · rename_i earlier
    have notLater : n.ctimeNs.toNat ≤ bootOffsetNs.toNat := UInt64.le_iff_toNat_le.mp (UInt64.not_lt.mp earlier)
    exact (Nat.sub_eq_zero_of_le notLater).symm

theorem offset_nat (clocks : Clocks) :
    clocks.bootOffsetNs.toNat + clocks.monotonicRead.toNat = (clocks.realtime clocks.realtimeRead).toNat +
      if clocks.realtime clocks.realtimeRead < clocks.monotonicRead then UInt64.size else 0 := by
  unfold Clocks.bootOffsetNs
  generalize clocks.realtime clocks.realtimeRead = realtime
  have bound := realtime.toNat_lt
  have readBound := clocks.monotonicRead.toNat_lt
  split
  · rename_i below
    rw [UInt64.lt_iff_toNat_lt] at below
    rw [UInt64.toNat_sub]
    have small : 2 ^ 64 - clocks.monotonicRead.toNat + realtime.toNat < 2 ^ 64 := by omega
    rw [Nat.mod_eq_of_lt small]
    unfold UInt64.size
    omega
  · rename_i above
    have notBelow := UInt64.not_lt.mp above
    rw [UInt64.toNat_sub_of_le _ _ notBelow]
    rw [UInt64.le_iff_toNat_le] at notBelow
    omega

theorem created_in_past_iff (clocks : Clocks) (n : Node) :
    createdFromCtime clocks.bootOffsetNs n ≤ clocks.scanned ↔ CarriedToPast clocks n := by
  have read := UInt64.le_iff_toNat_le.mp clocks.inOrder.2
  have offset := offset_nat clocks
  unfold CarriedToPast
  rw [UInt64.le_iff_toNat_le, created_nat, Nat.add_assoc, ← offset]
  omega

/-! ### An entry of the scan -/

/-- Whatever the id's entry is, it is the scan's, up to its removal time. -/
def Scans (id : UInt64) (attr : Attribution) (createdNs : UInt64) (r : CgroupResolver) : Prop :=
  ∀ e, r.entries.lookup id = some e → e.attr = attr ∧ e.createdNs = createdNs

variable {id createdNs : UInt64} {attr : Attribution} {r : CgroupResolver} {clocks : Clocks} {tree : CgroupTree}
  {root : Path} {n : Node}

theorem scans_apply (scans : Scans id attr createdNs r) {op : Op} (spared : ¬ Replaces id op) :
    Scans id attr createdNs (apply r op) := by
  intro e held
  cases op with
  | created key path ns =>
    simp only [apply, lookup_on_created] at held
    by_cases same : id = key
    · subst same
      cases parsed : parseCgroupPath path with
      | none =>
        simp only [↓reduceIte, parsed] at held
        exact scans e held
      | some attr => exact absurd ⟨path, ns, attr, rfl, parsed⟩ spared
    · rw [if_neg same] at held
      exact scans e held
  | removed key ns =>
    simp only [apply, lookup_on_removed] at held
    by_cases same : id = key
    · rw [if_pos same, Option.map_eq_some_iff] at held
      obtain ⟨prior, before, rfl⟩ := held
      have known := scans prior before
      split <;> exact known
    · rw [if_neg same] at held
      exact scans e held
  | tick now =>
    simp only [apply, lookup_tick, Option.filter_eq_some_iff] at held
    exact scans e held.1
  | resolve key ts =>
    simp only [apply, resolve_entries] at held
    exact scans e held

theorem scans_run (scans : Scans id attr createdNs r) (ops : List Op) (spared : ∀ op ∈ ops, ¬ Replaces id op) :
    Scans id attr createdNs (ops.foldl apply r) := by
  induction ops generalizing r with
  | nil => exact scans
  | cons op ops ih =>
    obtain ⟨first, rest⟩ := List.forall_mem_cons.mp spared
    exact ih (scans_apply scans first) rest

theorem scanned_entry (clocks : Clocks) (graceNs : UInt64) (member : n ∈ tree.nodes) (isJob : JobDir root n)
    (parsed : parseCgroupPath (pathString n.path) = some attr) :
    (start clocks.bootOffsetNs tree { root, graceNs }).2.entries.lookup n.ino =
      some { attr, createdNs := createdFromCtime clocks.bootOffsetNs n } := by
  obtain ⟨dir, ⟨above, strict⟩, -⟩ := isJob
  rw [start_learns _ _ _ { root, graceNs } rfl]
  exact ⟨n.path, above, strict, is_dir_iff.mpr ⟨n, member, rfl, dir⟩, n, attr,
    stat_some.mpr ⟨member, rfl⟩, parsed, rfl, rfl⟩

/-- An event stamped just when the scan is over has to get through as well. -/
theorem created_in_past {graceNs : UInt64} (member : n ∈ tree.nodes) (isJob : JobDir root n)
    (promise : NeverRejected clocks tree root graceNs n) :
    createdFromCtime clocks.bootOffsetNs n ≤ clocks.scanned := by
  obtain ⟨attr, parsed⟩ := (parses_iff member).mpr isJob.2.2
  have entry := scanned_entry clocks graceNs member isJob parsed
  have answered := promise [] clocks.scanned (by simp) (by simp [after, entry]) (UInt64.le_refl _)
  rw [parsed, resolve_some] at answered
  obtain ⟨e, held, -, fresh⟩ := answered
  cases entry.symm.trans held
  have past := clocks.running
  have read := clocks.inOrder
  refine fresh.resolve_left fun zero => ?_
  rw [zero] at read
  exact UInt64.not_lt.mpr (UInt64.le_trans read.1 read.2) past

/-- An entry found by the scan answers every later event exactly when its
reconstructed creation does not lie past the end of the scan. -/
theorem never_rejected_iff (clocks : Clocks) (tree : CgroupTree) (root : Path) (graceNs : UInt64) (n : Node)
    (member : n ∈ tree.nodes) (isJob : JobDir root n) :
    NeverRejected clocks tree root graceNs n ↔ CarriedToPast clocks n := by
  rw [← created_in_past_iff]
  refine ⟨created_in_past member isJob, fun past ops eventTsNs spared there afterScan => ?_⟩
  obtain ⟨attr, parsed⟩ := (parses_iff member).mpr isJob.2.2
  have entry := scanned_entry clocks graceNs member isJob parsed
  have scans : Scans n.ino attr (createdFromCtime clocks.bootOffsetNs n)
      (start clocks.bootOffsetNs tree { root, graceNs }).2 := by
    intro e held
    cases entry.symm.trans held
    exact ⟨rfl, rfl⟩
  obtain ⟨e, held⟩ := Option.ne_none_iff_exists'.mp there
  obtain ⟨same, created⟩ := scans_run scans ops spared e held
  rw [parsed, resolve_some]
  exact ⟨e, held, same, .inr (created ▸ UInt64.le_trans past afterScan)⟩

/-- The wall clock is set back by 950 s at 50 s after boot; the offset is
sampled at 100 s and the scan over at 101 s. -/
def setBack : Clocks where
  realtime now := if now < 50000000000 then now + 1950000000000 else now + 1000000000000
  realtimeRead := 100000000000
  monotonicRead := 100000000000
  scanned := 101000000000
  running := by decide
  inOrder := by decide

/-- A job's directory made at 40 s after boot. -/
def earlyJob : Node := ⟨[ascii "job_7"], 2, true, .dir, 1990000000000⟩

def earlyJobTree : CgroupTree where
  nodes := [⟨[], 1, true, .dir, 0⟩, earlyJob]
  pathsDistinct := by decide
  inosDistinct := by decide
  parents := by decide
  names := by decide
  types := by decide

theorem never_rejected_at_set_back :
    NeverRejected setBack earlyJobTree [] 30000000000 earlyJob ↔ CarriedToPast setBack earlyJob :=
  never_rejected_iff setBack earlyJobTree [] 30000000000 earlyJob (by decide)
    ⟨rfl, by decide, ascii "job_7", by decide, by decide⟩

/-- The early job counts as created at 990 s, so until then its events are
taken for another cgroup's. -/
theorem set_back_rejects :
    ¬ ∀ clocks (tree : CgroupTree) root graceNs n, n ∈ tree.nodes → JobDir root n → Recorded clocks n →
      NeverRejected clocks tree root graceNs n := by
  intro promise
  have isJob : JobDir [] earlyJob := ⟨rfl, by decide, ascii "job_7", by decide, by decide⟩
  have early : Recorded setBack earlyJob := ⟨40000000000, by decide, by decide⟩
  have kept := promise setBack earlyJobTree [] 30000000000 earlyJob (by decide) isJob early
  exact absurd (created_in_past (by decide) isJob kept) (by decide)

end SlurmTracer.BootstrapClocks
