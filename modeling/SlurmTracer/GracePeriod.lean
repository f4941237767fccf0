import SlurmTracer.RecycleGuard
import SlurmTracer.WalkProofs

/-!
The grace period over whole histories of the resolver. An entry remembers its
removal by one stamp, in which 0 stands for a live cgroup, and its age is one
wrapping subtraction. `grace_period` is what a history delivers: an entry leaves
at a tick and by a removal of its own, and none outlasts its grace period. How
soon it leaves is exact as long as the clock has reached the stamp.
-/
namespace SlurmTracer.GracePeriod
open Lib SlurmTracer.Core Core.CgroupResolver ResolverProofs RecycleGuard

/-- No entry is in its grace period. -/
def AllLive (r : CgroupResolver) : Prop := ∀ id e, r.entries.lookup id = some e → e.removedNs = 0

/-- A resolver as `start` leaves it. -/
abbrev Started := { r : CgroupResolver // AllLive r }

def after (r : Started) (ops : List Op) : CgroupResolver := ops.foldl apply r.val

/-- The stamps of the removals delivered for an id since the creation that made
its entry, in order. -/
def removalsSince (id : UInt64) (ops : List Op) : List UInt64 :=
  ops.foldl (fun stamps op => match op with
    | .created key path _ => if key = id ∧ (parseCgroupPath path).isSome then [] else stamps
    | .removed key removedNs => if key = id then stamps ++ [removedNs] else stamps
    | _ => stamps) []

/-- The first of them that is not the mark of a live entry. -/
def firstRemoval (id : UInt64) (ops : List Op) : Option UInt64 := (removalsSince id ops).find? (· ≠ 0)

/-- The grace period of a removal is over, in unbounded arithmetic. -/
def PastGrace (r : Started) (removedNs now : UInt64) : Prop :=
  removedNs.toNat + r.val.graceNs.toNat < now.toNat

/-- After these calls the id has an entry. -/
def Known (r : Started) (ops : List Op) (id : UInt64) : Prop := (after r ops).entries.lookup id ≠ none

/-- The entry of an id goes with this call. -/
def Leaves (r : Started) (past : List Op) (op : Op) (id : UInt64) : Prop :=
  Known r past id ∧ ¬ Known r (past ++ [op]) id

/-- The grace period to the letter, whatever the stamps and the clock say. -/
structure Exact (r : Started) (ops : List Op) : Prop where
  leaves : ∀ past op id, past ++ [op] <+: ops → Leaves r past op id →
    ∃ now, op = .tick now ∧ ∃ removedNs ∈ removalsSince id past, PastGrace r removedNs now
  noneLeft : ∀ past now id removedNs, past ++ [.tick now] <+: ops →
    (removalsSince id past).head? = some removedNs → PastGrace r removedNs now →
    ¬ Known r (past ++ [.tick now]) id

/-- The grace period of the removals that are seen as such. Nothing is said of
a clock that reads less than the stamp. -/
structure Graced (r : Started) (ops : List Op) : Prop where
  leaves : ∀ past op id, past ++ [op] <+: ops → Leaves r past op id →
    ∃ now, op = .tick now ∧ ∃ removedNs, firstRemoval id past = some removedNs ∧
      (removedNs ≤ now → PastGrace r removedNs now)
  noneLeft : ∀ past now id removedNs, past ++ [.tick now] <+: ops →
    firstRemoval id past = some removedNs → PastGrace r removedNs now →
    ¬ Known r (past ++ [.tick now]) id

/-! ### Histories -/

@[simp] theorem after_snoc (r : Started) (ops : List Op) (op : Op) :
    after r (ops ++ [op]) = apply (after r ops) op := by
  simp [after]

theorem first_removal_snoc (id : UInt64) (ops : List Op) (op : Op) :
    firstRemoval id (ops ++ [op]) = match op with
      | .created key path _ => if key = id ∧ (parseCgroupPath path).isSome then none else firstRemoval id ops
      | .removed key removedNs =>
        if key = id then (firstRemoval id ops).or (if removedNs = 0 then none else some removedNs)
        else firstRemoval id ops
      | _ => firstRemoval id ops := by
  simp only [firstRemoval, removalsSince, List.foldl_append, List.foldl_cons, List.foldl_nil]
  cases op with
  | created key path createdNs =>
    dsimp only
    split <;> rfl
  | removed key removedNs =>
    dsimp only
    split
    · by_cases zero : removedNs = 0 <;> simp [List.find?_append, zero]
    · rfl
  | tick now => rfl
  | resolve key eventTsNs => rfl

/-- No call changes the period. -/
theorem after_grace (r : Started) (ops : List Op) : (after r ops).graceNs = r.val.graceNs := by
  induction ops using List.reverseRecOn with
  | nil => rfl
  | append_singleton ops op ih =>
    rw [after_snoc, ← ih]
    cases op <;> simp [apply]

/-- Every entry carries the first removal seen since it was made. -/
def Marked (entries : EntryMap) (ops : List Op) : Prop :=
  ∀ id e, entries.lookup id = some e → e.removedNs = (firstRemoval id ops).getD 0

theorem marked_step {r : CgroupResolver} {ops : List Op} (marked : Marked r.entries ops) (op : Op) :
    Marked (apply r op).entries (ops ++ [op]) := by
  intro id e held
  rw [first_removal_snoc]
  cases op with
  | created key path createdNs =>
    simp only [apply, lookup_on_created] at held
    cases parsed : parseCgroupPath path with
    | none =>
      simp only [parsed, ite_self] at held
      simpa [parsed] using marked id e held
    | some attr =>
      by_cases same : id = key
      · simp only [parsed, same, ↓reduceIte, Option.some.injEq] at held
        simp [parsed, same, ← held]
      · simp only [same, ↓reduceIte] at held
        simpa [Ne.symm same] using marked id e held
  | removed key removedNs =>
    simp only [apply, lookup_on_removed] at held
    by_cases same : id = key
    · subst key
      simp only [↓reduceIte, Option.map_eq_some_iff] at held ⊢
      obtain ⟨prior, heldPrior, rfl⟩ := held
      have before := marked id prior heldPrior
      cases earlier : firstRemoval id ops with
      | none =>
        have live : prior.removedNs = 0 := by simpa [earlier] using before
        by_cases zero : removedNs = 0 <;> simp [live, zero]
      | some first =>
        have real : first ≠ 0 := by simpa using List.find?_some earlier
        have seen : prior.removedNs = first := by simpa [earlier] using before
        simp [seen, real]
    · simp only [same, ↓reduceIte] at held
      simpa [Ne.symm same] using marked id e held
  | tick now =>
    simp only [apply, lookup_tick, Option.filter_eq_some_iff] at held
    exact marked id e held.1
  | resolve key eventTsNs =>
    simp only [apply, resolve_entries] at held
    exact marked id e held

theorem marked_run (r : Started) (ops : List Op) : Marked (after r ops).entries ops := by
  induction ops using List.reverseRecOn with
  | nil => exact r.property
  | append_singleton ops op ih =>
    rw [after_snoc]
    exact marked_step ih op

/-! ### Leaving -/

/-- Only a tick takes an entry out, and only one whose age passes the test. -/
theorem leaves_iff {r : Started} {past : List Op} {op : Op} {id : UInt64} :
    Leaves r past op id ↔ ∃ now e, op = .tick now ∧ (after r past).entries.lookup id = some e ∧
      expired r.val.graceNs now e = true := by
  unfold Leaves Known
  rw [after_snoc, not_not]
  constructor
  · rintro ⟨known, gone⟩
    obtain ⟨e, held⟩ := Option.ne_none_iff_exists'.mp known
    cases op with
    | created key path createdNs =>
      simp only [apply, lookup_on_created] at gone
      split at gone
      · split at gone
        · cases gone
        · exact absurd gone known
      · exact absurd gone known
    | removed key removedNs =>
      simp only [apply, lookup_on_removed, held] at gone
      split at gone <;> cases gone
    | tick now =>
      simp only [apply, lookup_tick, held, Option.filter_some, after_grace] at gone
      exact ⟨now, e, rfl, held, by simpa using gone⟩
    | resolve key eventTsNs =>
      rw [apply, resolve_entries] at gone
      exact absurd gone known
  · rintro ⟨now, e, rfl, held, aged⟩
    simp [apply, lookup_tick, held, Option.filter_some, after_grace, aged]

/-- Once the clock has reached the stamp, the subtraction does not wrap. -/
theorem expired_iff {graceNs now : UInt64} {e : Entry} (marked : e.removedNs ≠ 0) (reached : e.removedNs ≤ now) :
    expired graceNs now e = true ↔ e.removedNs.toNat + graceNs.toNat < now.toNat := by
  have exactly := UInt64.toNat_sub_of_le now e.removedNs reached
  have order := UInt64.le_iff_toNat_le.mp reached
  simp only [expired, bne_iff_ne, Bool.and_eq_true, decide_eq_true_eq, gt_iff_lt, UInt64.lt_iff_toNat_lt, exactly]
  constructor
  · rintro ⟨-, older⟩
    omega
  · intro older
    exact ⟨marked, by omega⟩

theorem graced (r : Started) (ops : List Op) : Graced r ops := by
  constructor
  · intro past op id _ leaves
    obtain ⟨now, e, rfl, held, aged⟩ := leaves_iff.mp leaves
    have mark := marked_run r past id e held
    have real : e.removedNs ≠ 0 := by
      simp only [expired, bne_iff_ne, Bool.and_eq_true] at aged
      exact aged.1
    refine ⟨now, rfl, ?_⟩
    cases first : firstRemoval id past with
    | none =>
      rw [first] at mark
      exact absurd mark real
    | some removedNs =>
      rw [first, Option.getD_some] at mark
      subst mark
      exact ⟨_, rfl, fun reached => (expired_iff real reached).mp aged⟩
  · intro past now id removedNs _ first past' known
    have before : Known r past id := by
      intro none
      rw [Known, after_snoc, apply, lookup_tick, none] at known
      exact known rfl
    obtain ⟨e, held⟩ := Option.ne_none_iff_exists'.mp before
    have mark := marked_run r past id e held
    rw [first, Option.getD_some] at mark
    have real : removedNs ≠ 0 := by simpa using List.find?_some first
    have reached : removedNs ≤ now := by
      rw [UInt64.le_iff_toNat_le]
      unfold PastGrace at past'
      omega
    subst mark
    have aged := (expired_iff real reached).mpr past'
    exact (leaves_iff.mpr ⟨now, e, rfl, held, aged⟩).2 known

/-! ### From `start` on -/

section
variable {bootOffsetNs : UInt64} {tree : CgroupTree}

theorem walk_all_live (fuel : Nat) {w : Walk} (live : AllLive w.resolver) :
    AllLive (addSubtreeLoop bootOffsetNs tree fuel w).resolver := by
  induction fuel generalizing w with
  | zero => exact live
  | succ fuel ih =>
    rw [addSubtreeLoop]
    cases head : w.stack with
    | nil => exact live
    | cons current rest =>
      rw [if_neg nofun]
      apply ih
      rw [WalkProofs.step_resolver head]
      split
      · intro id e held
        rcases WalkProofs.lookup_add_dir _ |>.mp held with ⟨n, attr, -, -, -, rfl⟩ | ⟨-, old⟩
        · rfl
        · exact live id e old
      · exact live

/-- The startup scan finds every entry live. -/
theorem start_all_live (r : CgroupResolver) (fresh : r.entries = ∅) :
    AllLive (r.start bootOffsetNs tree).2 := by
  have empty : AllLive r := by
    intro id e held
    rw [fresh] at held
    cases held
  unfold CgroupResolver.start
  split
  · exact walk_all_live _ empty
  · exact empty

/-- The grace period of the resolver that `start` returns. -/
theorem graced_since_start (r : CgroupResolver) (fresh : r.entries = ∅) (ops : List Op) :
    Graced ⟨(r.start bootOffsetNs tree).2, start_all_live r fresh⟩ ops :=
  graced _ ops

end

/-- Whatever the stamps and the clock say, an entry leaves only at a tick and by
the first removal seen since it was made, not before its grace period is over if
the clock has reached that removal, and no entry is left whose grace period is
over. -/
theorem grace_period (r : Started) (ops : List Op) : Graced r ops := graced r ops

/-! ### Both ends of the stamps -/

/-- A resolver that has found nothing yet. -/
def bare : Started := ⟨{}, nofun⟩

/-- A clock that has not reached the removal ends the grace period at once, and
a removal stamped 0 never starts one. -/
theorem wrapped_age_and_sentinel :
    ¬ Exact bare [.created 7 (ascii "/slurm/job_1") 5, .removed 7 10, .tick 9] ∧
      ¬ Exact bare [.created 7 (ascii "/slurm/job_1") 0, .removed 7 0, .tick 30000000001] := by
  constructor
  · intro exactly
    have leaves : Leaves bare [.created 7 (ascii "/slurm/job_1") 5, .removed 7 10] (.tick 9) 7 := by
      unfold Leaves Known
      decide
    obtain ⟨now, is, removedNs, member, past⟩ := exactly.leaves _ _ _ (List.prefix_refl _) leaves
    cases is
    have stamp : removedNs = 10 := by simpa [removalsSince] using member
    subst stamp
    exact absurd past (by unfold PastGrace; decide)
  · intro exactly
    have stays : Known bare [.created 7 (ascii "/slurm/job_1") 0, .removed 7 0, .tick 30000000001] 7 := by
      unfold Known
      decide
    exact exactly.noneLeft [.created 7 (ascii "/slurm/job_1") 0, .removed 7 0] 30000000001 7 0
      (List.prefix_refl _) (by decide) (by unfold PastGrace; decide) stays

end SlurmTracer.GracePeriod
