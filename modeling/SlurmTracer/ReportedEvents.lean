import SlurmTracer.Core.Wire

/-!
What the probes report of the tasks they see, across the ring buffer: the
kernel side fills memory somebody else has used before, the user side reads it
back by offset. Nothing of the old bytes shows in a record (`tasks_reported`,
`victims_reported`) or in the resolver (`feed_carried`).
-/
namespace SlurmTracer.ReportedEvents
open SlurmTracer.Core Lib Lib.Memory

variable {e : Bytes}

/-! ### The header -/

@[simp] theorem length_store_hdr (h : StEventHdr) (e : Bytes) : (h.store e).length = e.length := by
  simp [StEventHdr.store]

/-- What was written into the header is read back. -/
theorem load_store_hdr (h : StEventHdr) (fits : 32 ≤ e.length) : StEventHdr.load (h.store e) = h := by
  have small (n : UInt32) : n.toNat % 256 ^ 4 = n.toNat := Nat.mod_eq_of_lt n.toNat_lt
  have large (n : UInt64) : n.toNat % 256 ^ 8 = n.toNat := Nat.mod_eq_of_lt n.toNat_lt
  simp (disch := simp <;> omega) only [StEventHdr.load, StEventHdr.store, load_word_store_word, load_word_apart,
    small, large, UInt32.ofNat_toNat, UInt64.ofNat_toNat]

/-- The payload lies behind the header. -/
theorem load_hdr_store {offset : Nat} (behind : 32 ≤ offset) (bytes e : Bytes) :
    StEventHdr.load (store offset bytes e) = StEventHdr.load e := by
  simp (disch := omega) only [StEventHdr.load, load_word_store_apart]

theorem load_hdr_store_word {offset : Nat} (behind : 32 ≤ offset) (width value : Nat) (e : Bytes) :
    StEventHdr.load (storeWord offset width value e) = StEventHdr.load e :=
  load_hdr_store behind _ e

/-! ### Strings in fixed buffers -/

/-- A string with its NUL is read out of a buffer with whatever behind it. -/
theorem until_nul_terminated {size : Nat} {bytes : Bytes} (plain : 0 ∉ bytes) (short : bytes.length < size)
    (rest : Bytes) : untilNul size (bytes ++ 0 :: rest) = bytes := by
  obtain ⟨room, rfl⟩ : ∃ room, size = bytes.length + (room + 1) := ⟨size - bytes.length - 1, by omega⟩
  rw [untilNul, List.take_length_add_append, List.take_succ_cons, List.takeWhile_append_of_pos ?_]
  · simp
  · intro c member
    exact decide_eq_true fun zero : c = 0 => plain (zero ▸ member)

theorem until_nul_current (comm : TaskComm) : untilNul stCommLen comm.current = comm.bytes := by
  obtain ⟨room, gap⟩ : ∃ room, stCommLen - comm.bytes.length = room + 1 :=
    ⟨stCommLen - comm.bytes.length - 1, by have := comm.short; omega⟩
  rw [TaskComm.current, gap, List.replicate_succ]
  exact until_nul_terminated comm.plain comm.short _

theorem length_current (comm : TaskComm) : comm.current.length = stCommLen := by
  have short := comm.short
  rw [TaskComm.current, List.length_append, List.length_replicate]
  omega

/-- `bpf_probe_read_kernel_str` of a string that fits. -/
theorem read_short {size : Nat} {bytes : Bytes} (plain : 0 ∉ bytes) (short : bytes.length < size) :
    probeReadKernelStr size bytes = bytes ++ [0] := by
  have whole : bytes.takeWhile (· ≠ 0) = bytes := by
    rw [List.takeWhile_eq_self_iff]
    intro c member
    exact decide_eq_true fun zero : c = 0 => plain (zero ▸ member)
  rw [probeReadKernelStr, whole, List.take_of_length_le (by omega)]

theorem length_read_le {size : Nat} (room : 0 < size) (path : Bytes) : (probeReadKernelStr size path).length ≤ size := by
  rw [probeReadKernelStr, List.length_append, List.length_take, List.length_singleton]
  omega

/-! ### Words made of halves -/

theorem halves (high low : UInt32) :
    (high.toUInt64 <<< 32 ||| low.toUInt64).toNat = 2 ^ 32 * high.toNat + low.toNat := by
  have top := high.toNat_lt
  have bottom := low.toNat_lt
  rw [UInt64.toNat_or, UInt64.toNat_shiftLeft, UInt32.toNat_toUInt64, UInt32.toNat_toUInt64,
    show (32 : UInt64).toNat % 64 = 32 from rfl, Nat.mod_eq_of_lt (by rw [Nat.shiftLeft_eq]; omega),
    ← Nat.shiftLeft_add_eq_or_of_lt (by simpa using bottom), Nat.shiftLeft_eq]
  omega

theorem high_half (high low : UInt32) : ((high.toUInt64 <<< 32 ||| low.toUInt64) >>> 32).toUInt32 = high := by
  have bottom := low.toNat_lt
  have top := high.toNat_lt
  apply UInt32.toNat_inj.mp
  rw [UInt64.toNat_toUInt32, UInt64.toNat_shiftRight, halves, show (32 : UInt64).toNat % 64 = 32 from rfl,
    Nat.shiftRight_eq_div_pow]
  omega

theorem low_half (high low : UInt32) : (high.toUInt64 <<< 32 ||| low.toUInt64).toUInt32 = low := by
  have bottom := low.toNat_lt
  apply UInt32.toNat_inj.mp
  rw [UInt64.toNat_toUInt32, halves]
  omega

/-! ### Exit codes -/

/-- The byte above the lowest. -/
theorem status_byte (code : UInt32) : ((code >>> 8) &&& 0xff).toNat = code.toNat / 256 % 256 := by
  rw [UInt32.toNat_and, UInt32.toNat_shiftRight, show (8 : UInt32).toNat % 32 = 8 from rfl,
    Nat.shiftRight_eq_div_pow]
  exact Nat.and_two_pow_sub_one_eq_mod _ 8

theorem signal_bits (code : UInt32) : (code &&& 0x7f).toNat = code.toNat % 128 := by
  rw [UInt32.toNat_and]
  exact Nat.and_two_pow_sub_one_eq_mod code.toNat 7

theorem signal_none (code : UInt32) : code &&& 0x7f = 0 ↔ code.toNat % 128 = 0 := by
  rw [← signal_bits, ← UInt32.toNat_inj]
  rfl

/-- How a task ended, as wait(2) tells it apart. -/
inductive Ending where
  | exited (status : Fin 256)
  | killed (signal : { signal : Fin 128 // signal ≠ 0 }) (dumped : Bool)

/-- The kernel's packing of it. -/
def Ending.exitCode : Ending → UInt32
  | .exited status => .ofNat (256 * status)
  | .killed signal dumped => .ofNat (signal.val + if dumped then 128 else 0)

/-- What a record has of it. -/
def Ending.Recorded (r : Record) : Ending → Prop
  | .exited status => r.value = status ∧ r.attrs = []
  | .killed signal _ => r.value = 0 ∧ r.attrs = [(ascii "signal", toDecimal signal.val)]

/-! ### Processes -/

/-- One firing of a tracepoint of the proc_lifecycle probe: the running task,
and the memory the ring has for the event, should it have room. -/
structure Fired where
  exits : Bool
  task : TaskStruct
  ktimeNs : UInt64
  reserved : Option (Reserved sizeofStProcEvent)

/-- The sample the program submits. -/
def sample (filterCgroupId : UInt64) (f : Fired) : Option Bytes :=
  if f.exits then ProcLifecycle.onExit filterCgroupId f.task f.ktimeNs f.reserved
  else ProcLifecycle.onExec filterCgroupId f.task f.ktimeNs f.reserved

/-- Processes are reported, in the cgroup asked for, as far as the ring has
room; threads that exit are not. -/
def Reportable (filterCgroupId : UInt64) (f : Fired) : Prop :=
  (filterCgroupId = 0 ∨ f.task.cgroupId = filterCgroupId) ∧ f.reserved.isSome = true ∧
    (f.exits = true → f.task.pid = f.task.tgid)

instance (filterCgroupId : UInt64) (f : Fired) : Decidable (Reportable filterCgroupId f) :=
  inferInstanceAs (Decidable (_ ∧ _ ∧ _))

/-- The record of a firing. -/
def report (f : Fired) : Record :=
  let code := f.task.exitCode.toNat
  let task : Record :=
    { probe := ascii "proc_lifecycle", tsNs := f.ktimeNs, cgroupId := f.task.cgroupId, uid := some f.task.uid
      pid := f.task.tgid, tid := f.task.pid, comm := f.task.comm.bytes }
  if f.exits then
    { task with
      eventType := ascii "exit", metric := ascii "proc.exit", value := code / 256 % 256, unit := ascii "exit_status"
      attrs := if code % 128 = 0 then [] else [(ascii "signal", toDecimal (code % 128))] }
  else { task with eventType := ascii "exec", metric := ascii "proc.exec", value := 1, unit := ascii "count" }

/-- The event is read back out of the memory it was written into. -/
theorem load_proc_event (block : Reserved sizeofStProcEvent) (h : StEventHdr) (code : UInt32) (comm : TaskComm) :
    ProcLifecycle.StProcEvent.load (block.val |> h.store |> storeWord 32 4 code.toNat |> store 36 comm.current) =
      ⟨h, code, comm.current⟩ := by
  have size : block.val.length = 56 := block.property
  have comm_size : comm.current.length = 16 := length_current comm
  have small : code.toNat % 256 ^ 4 = code.toNat := Nat.mod_eq_of_lt code.toNat_lt
  have hdr : StEventHdr.load (store 36 comm.current (storeWord 32 4 code.toNat (h.store block.val))) = h := by
    rw [load_hdr_store (by omega), load_hdr_store_word (by omega), load_store_hdr h (by omega)]
  have exit_code : loadWord 32 4 (store 36 comm.current (storeWord 32 4 code.toNat (h.store block.val))) =
      code.toNat := by
    rw [load_word_store_apart (by omega), load_word_store_word (by rw [length_store_hdr]; omega), small]
  have name : Memory.load 36 stCommLen (store 36 comm.current (storeWord 32 4 code.toNat (h.store block.val))) =
      comm.current := by
    have stored : Memory.load 36 comm.current.length
        (store 36 comm.current (storeWord 32 4 code.toNat (h.store block.val))) = comm.current :=
      load_store (by simp; omega)
    rwa [comm_size] at stored
  rw [ProcLifecycle.StProcEvent.load, hdr, exit_code, name, UInt32.ofNat_toNat]

/-- What `on_event` makes of a sample. -/
theorem on_event_emitted (filterCgroupId : UInt64) (t : TaskStruct) (ktimeNs : UInt64) (type code : UInt32)
    (reserved : Option (Reserved sizeofStProcEvent)) :
    (ProcLifecycle.emit filterCgroupId t ktimeNs type code reserved).bind ProcLifecycle.onEvent =
      if (filterCgroupId = 0 ∨ t.cgroupId = filterCgroupId) ∧ reserved.isSome = true then
        ProcLifecycle.translate
          ⟨⟨ktimeNs, t.cgroupId, type, t.tgid, t.pid, t.uid⟩, code, t.comm.current⟩
      else none := by
  cases reserved with
  | none => simp [ProcLifecycle.emit]
  | some block =>
    have size : block.val.length = 56 := block.property
    by_cases passed : filterCgroupId = 0 ∨ t.cgroupId = filterCgroupId
    · have kept : ¬ (filterCgroupId ≠ 0 ∧ t.cgroupId ≠ filterCgroupId) := by
        rcases passed with none_set | same <;> simp_all
      rw [if_pos ⟨passed, rfl⟩, ProcLifecycle.emit, if_neg kept, Option.map_some, Option.bind_some,
        ProcLifecycle.onEvent, if_neg (by simp [sizeofStProcEvent, size]), load_proc_event, TaskStruct.pidTgid,
        TaskStruct.uidGid, high_half, low_half, low_half]
    · rw [if_neg fun both => passed both.1, ProcLifecycle.emit, if_pos (not_or.mp passed)]
      rfl

theorem on_event_sample (filterCgroupId : UInt64) (f : Fired) :
    (sample filterCgroupId f).bind ProcLifecycle.onEvent =
      if Reportable filterCgroupId f then some (report f) else none := by
  obtain ⟨exits, t, ktimeNs, reserved⟩ := f
  cases exits with
  | false =>
    simp only [sample, ProcLifecycle.onExec, on_event_emitted, Reportable, report, Bool.false_eq_true, if_false,
      false_implies, and_true]
    congr 1
    simp [ProcLifecycle.translate, until_nul_current]
  | true =>
    simp only [sample, ProcLifecycle.onExit, Reportable, report, if_true, true_implies]
    by_cases leader : t.pid = t.tgid
    · simp only [leader, ne_eq, not_true, if_false, and_true, on_event_emitted]
      congr 1
      simp only [ProcLifecycle.translate, until_nul_current, status_byte, signal_bits, ne_eq, signal_none, ite_not]
      simp
    · simp [leader]

theorem reports_of_samples (filterCgroupId : UInt64) (fired : List Fired) :
    (fired.filterMap (sample filterCgroupId)).filterMap ProcLifecycle.onEvent =
      (fired.filter (Reportable filterCgroupId ·)).map report := by
  rw [List.filterMap_filterMap, ← List.filterMap_eq_map, List.filterMap_filter]
  refine List.filterMap_congr fun f _ => ?_
  rw [on_event_sample]
  by_cases may : Reportable filterCgroupId f <;> simp [may]

/-- The exec of a process in cgroup 7, with a block of the ring that was used before. -/
def bashExec : Fired where
  exits := false
  task := { pid := 10, tgid := 10, exitCode := 0, cgroupId := 7, uid := 0, gid := 0
            comm := ⟨ascii "bash", by decide, by decide⟩ }
  ktimeNs := 5
  reserved := some ⟨List.replicate sizeofStProcEvent 255, rfl⟩

/-- Its exit. -/
def bashExit : Fired := { bashExec with exits := true, ktimeNs := 9 }

/-- An exec in cgroup 8. -/
def strayExec : Fired := { bashExec with task := { bashExec.task with cgroupId := 8 }, ktimeNs := 11 }

/-! ### Victims -/

/-- One OOM kill: whom it hit, and the memory the ring has for the event. The
task that allocated does not come into it. -/
structure Kill where
  victim : TaskStruct
  ktimeNs : UInt64
  reserved : Option (Reserved sizeofStOomEvent)

def killSample (k : Kill) : Option Bytes := Oom.onMarkVictim k.victim k.victim.uid k.ktimeNs k.reserved

/-- The record of a kill. -/
def killReport (k : Kill) : Record :=
  { probe := ascii "oom", tsNs := k.ktimeNs, cgroupId := k.victim.cgroupId, uid := some k.victim.uid
    pid := k.victim.tgid, tid := k.victim.pid, comm := k.victim.comm.bytes
    eventType := ascii "oom_kill", metric := ascii "oom.kill", value := 1, unit := ascii "count" }

/-- The name is read up to its NUL, whatever the buffer held behind it. -/
theorem until_nul_stored {offset size : Nat} {block path : Bytes} (room : 0 < size)
    (fits : offset + size ≤ block.length) :
    untilNul size (load offset size (store offset (probeReadKernelStr size path) block)) =
      untilNul size (probeReadKernelStr size path) := by
  have short := length_read_le room path
  have plain : ∀ c ∈ (path.takeWhile (· ≠ 0)).take (size - 1), decide (c ≠ 0) = true := fun c member =>
    @List.mem_takeWhile_imp _ (· ≠ 0) path c (List.mem_of_mem_take member)
  have zero_free : 0 ∉ (path.takeWhile (· ≠ 0)).take (size - 1) := fun member => by simpa using plain 0 member
  have below : ((path.takeWhile (· ≠ 0)).take (size - 1)).length < size := by
    rw [List.length_take]
    omega
  rw [load_store_start (by omega) short, probeReadKernelStr, List.append_assoc, List.singleton_append,
    until_nul_terminated zero_free below, until_nul_terminated zero_free below]

theorem on_event_kill (k : Kill) :
    (killSample k).bind Oom.onEvent = if k.reserved.isSome = true then some (killReport k) else none := by
  obtain ⟨victim, ktimeNs, reserved⟩ := k
  cases reserved with
  | none => rfl
  | some block =>
    have size : block.val.length = 48 := block.property
    have terminated := read_short victim.comm.plain victim.comm.short
    have name : untilNul stCommLen (victim.comm.bytes ++ [0]) = victim.comm.bytes :=
      until_nul_terminated victim.comm.plain victim.comm.short []
    have stored (h : StEventHdr) :
        untilNul stCommLen (Memory.load 32 stCommLen
            (store 32 (probeReadKernelStr stCommLen victim.comm.bytes) (h.store block.val))) =
          untilNul stCommLen (probeReadKernelStr stCommLen victim.comm.bytes) :=
      until_nul_stored (by decide) (by simp [size, stCommLen])
    let h : StEventHdr := ⟨ktimeNs, victim.cgroupId, 1, victim.tgid, victim.pid, victim.uid⟩
    let filled := store 32 (probeReadKernelStr stCommLen victim.comm.bytes) (h.store block.val)
    have whole : ¬ filled.length < sizeofStOomEvent := by simp [filled, size, sizeofStOomEvent]
    have hdr : StEventHdr.load filled = h := by
      rw [load_hdr_store (by omega), load_store_hdr _ (by omega)]
    have submitted : killSample ⟨victim, ktimeNs, some block⟩ = some filled := rfl
    have comm : untilNul stCommLen (Memory.load 32 stCommLen filled) = victim.comm.bytes := by
      rw [stored, terminated, name]
    simp only [submitted, Option.bind_some, Oom.onEvent, if_neg whole, Oom.StOomEvent.load, Oom.translate, hdr, comm]
    rfl

/-- The oom probe emits one record for each kill the ring had room for, and it
is about the victim. -/
theorem victims_reported (kills : List Kill) :
    (kills.filterMap killSample).filterMap Oom.onEvent = (kills.filter (·.reserved.isSome)).map killReport := by
  rw [List.filterMap_filterMap, ← List.filterMap_eq_map, List.filterMap_filter]
  refine List.filterMap_congr fun k _ => ?_
  rw [on_event_kill]
  cases k.reserved <;> rfl

/-! ### The watcher's feed -/

/-- One firing of a tracepoint of the watcher. -/
structure Announced where
  created : Bool
  kernfsId : UInt64
  path : Option Bytes
  ktimeNs : UInt64
  reserved : Option (Reserved sizeofStCgroupEvent)

def Announced.type (a : Announced) : UInt32 := if a.created then stCgroupEventCreate else stCgroupEventRemove

def Announced.sample (a : Announced) : Option Bytes :=
  CgroupWatcher.emitInto a.type a.kernfsId a.path a.ktimeNs a.reserved

/-- The event, without the memory it travels in. -/
def Announced.event (a : Announced) : StCgroupEvent := CgroupWatcher.emit a.type a.kernfsId a.path a.ktimeNs

/-- A null path is announced as an empty one. -/
theorem event_path (a : Announced) : a.event.path = probeReadKernelStr stCgroupPathLen (a.path.getD []) := by
  cases path : a.path <;> simp [Announced.event, CgroupWatcher.emit, path, probeReadKernelStr]

/-- What reaches the resolver is the event, whatever the memory held. -/
theorem on_sample (r : CgroupResolver) (a : Announced) (block : Reserved sizeofStCgroupEvent) :
    CgroupWatcher.onSample r (store 32 a.event.path (a.event.hdr.store block.val)) =
      CgroupWatcher.onEvent r a.event := by
  have size : block.val.length = 288 := block.property
  have hdr : StEventHdr.load (store 32 a.event.path (a.event.hdr.store block.val)) = a.event.hdr := by
    rw [load_hdr_store (by omega), load_store_hdr _ (by omega)]
  have path : untilNul stCgroupPathLen (load 32 stCgroupPathLen
      (store 32 a.event.path (a.event.hdr.store block.val))) = untilNul stCgroupPathLen a.event.path := by
    rw [event_path]
    exact until_nul_stored (by decide) (by simp [size, stCgroupPathLen])
  have translated : CgroupWatcher.translate (.load (store 32 a.event.path (a.event.hdr.store block.val))) =
      CgroupWatcher.translate a.event := by
    simp only [CgroupWatcher.translate, StCgroupEvent.load, hdr, path]
  rw [CgroupWatcher.onSample, if_neg (by simp [size, sizeofStCgroupEvent]), CgroupWatcher.onEvent, translated]
  rfl

/-- Whatever the ring's memory held and whenever it was full, the bytes take the
resolver where the announcements with room take it. -/
theorem feed_carried (announced : List Announced) (r : CgroupResolver) :
    (announced.filterMap Announced.sample).foldl CgroupWatcher.onSample r =
      ((announced.filter (·.reserved.isSome)).map Announced.event).foldl CgroupWatcher.onEvent r := by
  induction announced generalizing r with
  | nil => rfl
  | cons a announced ih =>
    cases room : a.reserved with
    | none =>
      have lost : a.sample = none := by simp [Announced.sample, CgroupWatcher.emitInto, room]
      rw [List.filterMap_cons_none lost, List.filter_cons_of_neg (by simp [room])]
      exact ih r
    | some block =>
      have submitted : a.sample = some (store 32 a.event.path (a.event.hdr.store block.val)) := by
        simp [Announced.sample, CgroupWatcher.emitInto, room, Announced.event]
      rw [List.filterMap_cons_some submitted, List.filter_cons_of_pos (by simp [room]), List.map_cons,
        List.foldl_cons, List.foldl_cons, on_sample]
      exact ih _

end SlurmTracer.ReportedEvents
