import Mathlib.Algebra.Group.Int.Defs
import SlurmTracer.Durations
import SlurmTracer.Lib.Transition
import SlurmTracer.PipelineDelivery

/-!
The flush interval over whole runs of the pipeline. Everything pending was
emitted since `last_flush_`, whoever shipped in between, so no record outlasts
the interval in the batch (`bounded_staleness`). The interval is compared in
nanoseconds of 64 bits and admitted in milliseconds of 64 bits: it is honoured
exactly where the one count holds the other (`honoured_iff`).
-/
namespace SlurmTracer.FlushInterval
open SlurmTracer.Core Lib Lib.Transition PipelineDelivery

/-- A reading of `steady_clock`, which counts up from boot. -/
abbrev Reading := { now : Int64 // 0 ≤ now }

/-- Its nanoseconds. -/
def ns (now : Reading) : Int := now.val.toInt

/-- An interval in nanoseconds, in exact arithmetic. -/
def intervalNs (ms : Int64) : Int := ms.toInt * 1000000

/-- What is called on the pipeline. -/
inductive Act where
  | emit (around : Surroundings) (r : Record)
  | tick
  | flush
  | setSinks (sinks : SinkList)

def Act.op (now : Reading) : Act → Op
  | .emit around r => .emit around r
  | .tick => .tick now.val
  | .flush => .flush now.val
  | .setSinks sinks => .setSinks sinks

/-- A pipeline, what it was given and when, and what it has shipped. -/
structure Timed where
  pipeline : Pipeline
  /-- When it was last called. -/
  clock : Reading
  emitted : List (Reading × Record) := []
  shipped : List Record := []

/-- A call at a moment not before the last one. -/
def step (s : Timed) (timed : Reading × Act) : Option Timed :=
  if timed.1.val < s.clock.val then none
  else
    let o := call s.pipeline (timed.2.op timed.1)
    some
      { pipeline := o.after
        clock := timed.1
        emitted := s.emitted ++ o.enriched.map (timed.1, ·)
        shipped := s.shipped ++ (o.shipments.map Shipment.batch).flatten }

def Begins (opt : PipelineOptions) (s : Timed) : Prop :=
  ∃ (sinks : SinkList) (now : Reading), s = { pipeline := .new opt sinks.val now.val, clock := now }

/-- What is pending was emitted less than an interval ago: the emissions are
those already shipped and those pending, in this order. -/
def Fresh (s : Timed) : Prop :=
  ∃ earlier pending, s.emitted = earlier ++ pending ∧ earlier.map Prod.snd = s.shipped ∧
    pending.map Prod.snd = s.pipeline.batch ∧
    ∀ e ∈ pending, ns s.clock - ns e.1 < intervalNs s.pipeline.opt.flushInterval

/-- A tick now would pass the interval check. -/
def Passes (s : Timed) (now : Reading) : Prop := s.pipeline.intervalElapsed now.val = true

/-- Two ticks of a run that pass the check are an interval apart. -/
def Spaced (ms : Int64) : Prop :=
  ∀ opt : PipelineOptions, opt.flushInterval = ms → ∀ s now s' t now', Runs (Begins opt) step Anything s →
    Passes s now → step s (now, .tick) = some s' → Runs (· = s') step Anything t → t.clock.val ≤ now'.val →
    Passes t now' → intervalNs ms ≤ ns now' - ns now

/-- The check is the one of exact arithmetic. -/
def Compares (ms : Int64) : Prop :=
  ∀ (p : Pipeline) (last now : Reading), p.opt.flushInterval = ms → p.lastFlush = last.val → last.val ≤ now.val →
    (p.intervalElapsed now.val = true ↔ intervalNs ms ≤ ns now - ns last)

/-- The interval is kept to in every run, and no comparison wraps. -/
structure Honoured (ms : Int64) : Prop where
  spaced : Spaced ms
  compares : Compares ms

/-! ### The check -/

theorem elapsed_iff {p : Pipeline} {last now : Reading} (lastFlush : p.lastFlush = last.val)
    (order : last.val ≤ now.val) :
    p.intervalElapsed now.val = true ↔
      (p.opt.flushInterval * 1000000).toInt ≤ ns now - ns last := by
  have since := Int64.toInt_sub_of_le now.val last.val last.property order
  rw [Pipeline.intervalElapsed, lastFlush, decide_eq_true_eq, Int64.lt_iff_toInt_lt, since]
  exact Int.not_lt

/-- An interval whose nanoseconds fit is scaled exactly. -/
theorem interval_exact {ms : Int64} (low : -2 ^ 63 ≤ intervalNs ms) (high : intervalNs ms < 2 ^ 63) :
    (ms * 1000000).toInt = intervalNs ms := by
  rw [Int64.toInt_mul]
  apply Int.bmod_eq_of_le
  · exact low
  · exact high

theorem compares_of_fits {ms : Int64} (low : -2 ^ 63 ≤ intervalNs ms) (high : intervalNs ms < 2 ^ 63) :
    Compares ms := by
  intro p last now same lastFlush order
  rw [elapsed_iff lastFlush order, same, interval_exact low high]

/-! ### What one call does -/

theorem emit_last_flush (p : Pipeline) (around : Surroundings) (r : Record) :
    (p.emit around r).1.lastFlush = p.lastFlush := by
  obtain ⟨userCache, stats, frame⟩ := enrich_frame p around r
  simp only [Pipeline.emit, frame]
  split
  · rw [ship_fst]
  · rfl

/-- A tick that passes ships everything, and the others do nothing. -/
theorem tick_eq (p : Pipeline) (now : Int64) : (p.tick now).1 =
    if p.intervalElapsed now = true then { p with batch := [], lastFlush := now } else p := by
  unfold Pipeline.tick
  split
  · change { p.ship.1 with lastFlush := now } = _
    rw [ship_fst]
  · rfl

/-- `last_flush_` stays, or it moves to this moment and nothing is pending. -/
theorem call_last_flush (p : Pipeline) (now : Reading) (act : Act) :
    (call p (act.op now)).after.lastFlush = p.lastFlush ∨
      (call p (act.op now)).after.lastFlush = now.val ∧ (call p (act.op now)).after.batch = [] := by
  cases act with
  | emit around r => exact Or.inl (emit_last_flush p around r)
  | tick =>
    simp only [call, Act.op, tick_eq]
    split
    · exact Or.inr ⟨rfl, rfl⟩
    · exact Or.inl rfl
  | flush =>
    refine Or.inr ⟨rfl, ?_⟩
    simp only [call, Act.op, Pipeline.flush, ship_fst]
  | setSinks sinks => exact Or.inl rfl

theorem step_some {s s' : Timed} {timed : Reading × Act} (ran : step s timed = some s') :
    s.clock.val ≤ timed.1.val ∧ s'.clock = timed.1 ∧
      s'.pipeline = (call s.pipeline (timed.2.op timed.1)).after ∧
      s'.emitted = s.emitted ++ (call s.pipeline (timed.2.op timed.1)).enriched.map (timed.1, ·) ∧
      s'.shipped = s.shipped ++ ((call s.pipeline (timed.2.op timed.1)).shipments.map Shipment.batch).flatten := by
  unfold step at ran
  split at ran
  · cases ran
  · rename_i order
    cases ran
    exact ⟨Int64.not_lt.mp order, rfl, rfl, rfl, rfl⟩

/-! ### Runs -/

/-- From a moment on: `last_flush_` is a reading between it and the clock. -/
structure FlushedSince (opt : PipelineOptions) (since : Reading) (s : Timed) : Prop where
  opt : s.pipeline.opt = opt
  after : since.val ≤ s.pipeline.lastFlush
  before : s.pipeline.lastFlush ≤ s.clock.val

theorem flushed_since_step {opt : PipelineOptions} {since : Reading} {s s' : Timed} {timed : Reading × Act}
    (flushed : FlushedSince opt since s) (ran : step s timed = some s') : FlushedSince opt since s' := by
  obtain ⟨order, clock, pipeline, -, -⟩ := step_some ran
  have later := Int64.le_trans flushed.before order
  refine ⟨?_, ?_, ?_⟩
  · rw [pipeline, (moves_call _ _).opt]
    exact flushed.opt
  · rw [pipeline]
    rcases call_last_flush s.pipeline timed.1 timed.2 with same | ⟨moved, -⟩
    · exact same ▸ flushed.after
    · exact moved ▸ Int64.le_trans flushed.after later
  · rw [pipeline, clock]
    rcases call_last_flush s.pipeline timed.1 timed.2 with same | ⟨moved, -⟩
    · exact same ▸ later
    · exact moved ▸ Int64.le_refl _

/-- The emissions are those shipped and those pending, which came since
`last_flush_`. -/
def PendingSince (s : Timed) : Prop :=
  ∃ earlier pending, s.emitted = earlier ++ pending ∧ earlier.map Prod.snd = s.shipped ∧
    pending.map Prod.snd = s.pipeline.batch ∧ ∀ e ∈ pending, s.pipeline.lastFlush ≤ e.1.val

theorem pending_since_step {s s' : Timed} {timed : Reading × Act} (since : PendingSince s)
    (flushed : s.pipeline.lastFlush ≤ s.clock.val) (ran : step s timed = some s') : PendingSince s' := by
  obtain ⟨earlier, pending, split, gone, left, recent⟩ := since
  obtain ⟨order, -, pipeline, emitted, shipped⟩ := step_some ran
  obtain ⟨-, conserved, -, -⟩ := moves_call s.pipeline (timed.2.op timed.1)
  generalize moment : call s.pipeline (timed.2.op timed.1) = o at *
  let now := pending ++ o.enriched.map (timed.1, ·)
  have records : now.map Prod.snd = (o.shipments.map Shipment.batch).flatten ++ o.after.batch := by
    rw [List.map_append, left, List.map_map, ← conserved]
    simp [Function.comp_def]
  refine ⟨earlier ++ now.take (o.shipments.map Shipment.batch).flatten.length,
    now.drop (o.shipments.map Shipment.batch).flatten.length, ?_, ?_, ?_, ?_⟩
  · rw [emitted, split, List.append_assoc, List.append_assoc, List.take_append_drop]
  · rw [List.map_append, gone, List.map_take, records, List.take_left, shipped]
  · rw [List.map_drop, records, List.drop_left, pipeline]
  · intro e member
    rw [pipeline]
    rcases call_last_flush s.pipeline timed.1 timed.2 with same | ⟨-, empty⟩
    · rw [moment] at same
      rw [same]
      rcases List.mem_append.mp (List.mem_of_mem_drop member) with old | new
      · exact recent e old
      · obtain ⟨r, -, rfl⟩ := List.mem_map.mp new
        exact Int64.le_trans flushed order
    · rw [moment] at empty
      have nothing : (now.drop (o.shipments.map Shipment.batch).flatten.length).map Prod.snd = [] := by
        rw [List.map_drop, records, List.drop_left, empty]
      rw [List.map_eq_nil_iff.mp nothing] at member
      cases member

/-- When nothing was flushed yet. -/
def boot : Reading := ⟨0, Int64.le_refl 0⟩

/-- What holds all along. -/
def Since (opt : PipelineOptions) (s : Timed) : Prop := FlushedSince opt boot s ∧ PendingSince s

theorem reached_since {opt : PipelineOptions} {s : Timed} (reached : Runs (Begins opt) step Anything s) :
    Since opt s := by
  apply reached.invariant
  · rintro _ ⟨sinks, now, rfl⟩
    exact ⟨⟨rfl, now.property, Int64.le_refl _⟩, [], [], rfl, rfl, rfl, nofun⟩
  · intro s timed s' ⟨flushed, since⟩ _ ran
    exact ⟨flushed_since_step flushed ran, pending_since_step since flushed.before ran⟩

/-- After a tick nothing is pending that is an interval old. -/
theorem bounded_staleness {opt : PipelineOptions} (low : -2 ^ 63 ≤ intervalNs opt.flushInterval)
    (high : intervalNs opt.flushInterval < 2 ^ 63) {s s' : Timed} {now : Reading}
    (reached : Runs (Begins opt) step Anything s) (ticked : step s (now, .tick) = some s') : Fresh s' := by
  obtain ⟨flushed, since⟩ := reached_since reached
  obtain ⟨order, clock, pipeline, -, -⟩ := step_some ticked
  obtain ⟨earlier, pending, split, gone, left, recent⟩ := pending_since_step since flushed.before ticked
  refine ⟨earlier, pending, split, gone, left, fun e member => ?_⟩
  let last : Reading := ⟨s.pipeline.lastFlush, flushed.after⟩
  have exactly := compares_of_fits low high s.pipeline last now (congrArg _ flushed.opt) rfl
    (Int64.le_trans flushed.before order)
  simp only [call, Act.op, tick_eq] at pipeline
  split at pipeline
  · rw [pipeline] at left
    rw [List.map_eq_nil_iff.mp left] at member
    cases member
  · rename_i early
    have young : ns now - ns last < intervalNs opt.flushInterval := Int.not_le.mp fun due => early (exactly.mpr due)
    have since' := recent e member
    rw [pipeline, Int64.le_iff_toInt_le] at since'
    have sinceLast : ns last ≤ ns e.1 := since'
    rw [clock, pipeline, flushed.opt]
    dsimp only
    omega

/-! ### Runs to look at -/

/-- A reading within the first moments. -/
def moment (now : Nat) (small : now < 2 ^ 63) : Reading := ⟨Int64.ofNat now, Int64.zero_le_ofNat_of_lt small⟩

/-- A pipeline that is set up at boot. -/
def early (opt : PipelineOptions) : Timed := { pipeline := .new opt [] 0, clock := boot }

theorem early_reached (opt : PipelineOptions) : Runs (Begins opt) step Anything (early opt) :=
  .start ⟨⟨[], List.nodup_nil⟩, boot, rfl⟩

/-- With a record emitted. -/
def oneEmitted (opt : PipelineOptions) : Timed :=
  (step (early opt) (moment 5 (by decide), .emit ⟨{}, 0, .notFound⟩ {})).getD (early opt)

theorem one_emitted_reached (opt : PipelineOptions) : Runs (Begins opt) step Anything (oneEmitted opt) :=
  (early_reached opt).steps [(moment 5 (by decide), .emit ⟨{}, 0, .notFound⟩ {})] rfl

/-- The record stays pending for the time being. -/
theorem bounded_staleness_pending :
    ∃ s', step (oneEmitted {}) (moment 10 (by decide), .tick) = some s' ∧ s'.pipeline.batch.length = 1 ∧ Fresh s' := by
  have ticked : step (oneEmitted {}) (moment 10 (by decide), .tick) = some _ := rfl
  exact ⟨_, ticked, rfl, bounded_staleness (by decide) (by decide) (one_emitted_reached {}) ticked⟩

/-! ### Two ticks -/

theorem tick_moves {s s' : Timed} {now : Reading} (passes : Passes s now) (ticked : step s (now, .tick) = some s') :
    s'.pipeline.lastFlush = now.val := by
  obtain ⟨-, -, pipeline, -, -⟩ := step_some ticked
  rw [pipeline]
  simp only [call, Act.op, tick_eq]
  exact congrArg Pipeline.lastFlush (if_pos passes)

theorem spaced_of_fits {ms : Int64} (low : -2 ^ 63 ≤ intervalNs ms) (high : intervalNs ms < 2 ^ 63) : Spaced ms := by
  intro opt same s now s' t now' reached passes ticked later order passes'
  obtain ⟨flushed, -⟩ := reached_since reached
  obtain ⟨-, clock, -, -, -⟩ := step_some ticked
  have moved := tick_moves passes ticked
  have since : FlushedSince opt now t := by
    apply later.invariant
    · rintro _ rfl
      refine ⟨(flushed_since_step flushed ticked).opt, moved ▸ Int64.le_refl _, ?_⟩
      rw [moved, clock]
      exact Int64.le_refl _
    · intro s timed s' flushed _ ran
      exact flushed_since_step flushed ran
  let last : Reading := ⟨t.pipeline.lastFlush, Int64.le_trans now.property since.after⟩
  have due : intervalNs ms ≤ ns now' - ns last :=
    (compares_of_fits low high t.pipeline last now' (by rw [since.opt, same]) rfl
      (Int64.le_trans since.before order)).mp passes'
  have notBefore : ns now ≤ ns last := Int64.le_iff_toInt_le.mp since.after
  omega

/-- At the end of the clock a comparison that does not wrap knows the
interval is not over. -/
theorem fits_of_compares {ms : Int64} (compares : Compares ms) : intervalNs ms < 2 ^ 63 := by
  let latest : Reading := ⟨Int64.maxValue, by decide⟩
  let p : Pipeline := { Pipeline.new { flushInterval := ms } [] 0 with lastFlush := 0 }
  have order : boot.val ≤ latest.val := by decide
  have span : ns latest - ns boot = 2 ^ 63 - 1 := by decide
  have wrapped : (p.opt.flushInterval * 1000000).toInt ≤ ns latest - ns boot := by
    have bound := Int64.toInt_lt (p.opt.flushInterval * 1000000)
    omega
  have lastFlush : p.lastFlush = boot.val := rfl
  have exactly := (compares p boot latest rfl rfl order).mp ((elapsed_iff lastFlush order).mpr wrapped)
  omega

/-- Any number of milliseconds that is not negative can be configured. -/
theorem configurable {ms : Int64} (admitted : 0 ≤ ms) :
    ∃ (c : ComponentConfig) (key : Bytes), ∀ fallback, c.getDuration key fallback = ms := by
  have count : (ms.toInt.toNat : Int) = ms.toInt := Int.toNat_of_nonneg (Int64.le_iff_toInt_le.mp admitted)
  have bound := Int64.toInt_lt ms
  have reads : Durations.Reads (toDecimal ms.toInt.toNat) ms.toInt.toNat 1 :=
    ⟨_, [], (List.append_nil _).symm, Decimal.to_decimal_filled _, to_decimal_digits _, by decide,
      Decimal.digits_value_to_decimal _⟩
  obtain ⟨c, key, set⟩ := Durations.settable (toDecimal ms.toInt.toNat)
  refine ⟨c, key, fun fallback => Int64.toInt.inj ?_⟩
  rw [Durations.get_duration_eq set, Durations.parse_reads reads, if_pos (by omega), Option.getD_some,
    Durations.scaled_exact (by omega), Nat.mul_one, count]

/-- An interval is honoured exactly if its nanoseconds fit. -/
theorem honoured_iff {ms : Int64} (admitted : 0 ≤ ms) : Honoured ms ↔ intervalNs ms < 2 ^ 63 := by
  constructor
  · exact fun honoured => fits_of_compares honoured.compares
  · intro high
    have positive : 0 ≤ ms.toInt := Int64.le_iff_toInt_le.mp admitted
    have low : -2 ^ 63 ≤ intervalNs ms := by
      unfold intervalNs
      omega
    exact ⟨spaced_of_fits low high, compares_of_fits low high⟩

theorem honoured_iff_default : Honoured 1000 ↔ intervalNs 1000 < 2 ^ 63 := honoured_iff (by decide)

/-- With an interval of three hundred years every tick passes. -/
theorem centuries_pass_at_once : ¬ ∀ ms : Int64, 0 ≤ ms → Honoured ms := by
  intro always
  have spaced := (always 9223372036855 (by decide)).spaced
  let opt : PipelineOptions := { flushInterval := 9223372036855 }
  have passes : Passes (early opt) (moment 1 (by decide)) := by
    unfold Passes
    decide
  have ticked : step (early opt) (moment 1 (by decide), .tick) = some _ := rfl
  have apart := spaced opt rfl _ _ _ _ (moment 2 (by decide)) (early_reached opt) passes ticked (.start rfl)
    (by decide) (by unfold Passes; decide)
  exact absurd apart (by decide)

end SlurmTracer.FlushInterval
