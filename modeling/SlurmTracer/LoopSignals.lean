import SlurmTracer.Core.MainLoop
import SlurmTracer.DaemonRuns
import SlurmTracer.Lib.Transition

/-!
The main loop and the signals that come in around it. A SIGHUP at any point is
answered once the loop next looks at the flag or clears it, and nothing else
makes the loop read the file again (`reloads_answered`); a stop lets the turn
under way finish and no more (`stops_after_turn`).
-/
namespace SlurmTracer.LoopSignals
open SlurmTracer.Core Lib Core.MainLoop Lib.Transition

/-! ### Kinds of steps -/

def isSignal : LoopStep → Bool
  | .signal _ => true
  | _ => false

def isHup : LoopStep → Bool
  | .signal .sighup => true
  | _ => false

/-- A signal that asks the daemon to stop. -/
def isStop : LoopStep → Bool
  | .signal .sigint | .signal .sigterm => true
  | _ => false

def isReload : LoopStep → Bool
  | .reload _ _ => true
  | _ => false

/-- A step at which the loop looks at the reload flag or clears it. -/
def touchesReload : LoopStep → Bool
  | .check | .clear => true
  | _ => false

/-- The stage a step of the loop is taken at, if it gets on by it. -/
def takenAt : LoopStep → Option LoopStage
  | .signal _ | .sample _ _ _ _ => none
  | .enter => some .condition
  | .polled _ => some .polling
  | .tick _ _ => some .ticking
  | .check => some .checking
  | .clear => some .clearing
  | .reload _ _ => some .reloading

variable {plugins : Plugins} {m m' : MainLoop} {a : LoopStep} {actions : List LoopStep}

/-- What a step does to the stage and the flags. -/
inductive Turned (plugins : Plugins) (m : MainLoop) : LoopStep → MainLoop → Prop where
  | signal {s : Signal} (installed : handled s = true) : Turned plugins m (.signal s) { m with flags := m.flags.raise s }
  | stopped (at_top : m.stage = .condition) (asked : m.flags.stop = true) : Turned plugins m .enter { m with stage := .left 0 }
  | entered (at_top : m.stage = .condition) (unasked : m.flags.stop = false) :
      Turned plugins m .enter { m with stage := .polling }
  | sample {ring : ArmedRing} {data : Bytes} {bootOffsetNs : UInt64} {passwd : PasswdReply} {daemon : Daemon}
      (polling : m.stage = .polling) (armed : ring ∈ m.daemon.loop.rb.getD [])
      (called : m.daemon.onSample plugins ring.ctx data bootOffsetNs passwd = some daemon) :
      Turned plugins m (.sample ring data bootOffsetNs passwd) { m with daemon }
  | polled {err : Int} (polling : m.stage = .polling) (fine : m.daemon.loop.poll err = true) :
      Turned plugins m (.polled err) { m with stage := .ticking }
  | failed {err : Int} (polling : m.stage = .polling) (fatal : m.daemon.loop.poll err = false) :
      Turned plugins m (.polled err) { m with stage := .left 1 }
  | ticked {monotonicNs : UInt64} {now : Int64} (ticking : m.stage = .ticking) :
      Turned plugins m (.tick monotonicNs now) { m with daemon := m.daemon.tick monotonicNs now, stage := .checking }
  | asked (checking : m.stage = .checking) (requested : m.flags.reload = true) :
      Turned plugins m .check { m with stage := .clearing }
  | unasked (checking : m.stage = .checking) (unrequested : m.flags.reload = false) :
      Turned plugins m .check { m with stage := .condition }
  | cleared (clearing : m.stage = .clearing) :
      Turned plugins m .clear { m with flags.reload := false, stage := .reloading }
  | reloaded {o : Outcomes} {loaded : Option Config} (reloading : m.stage = .reloading) :
      Turned plugins m (.reload o loaded) { m with daemon := m.daemon.reloadConfig o loaded, stage := .condition }

/-- The loop's steps, taken apart. -/
theorem turned_of_step (ran : m.step plugins a = some m') : Turned plugins m a m' := by
  cases a with
  | signal s =>
    simp only [step] at ran
    split at ran
    · cases ran
      exact .signal ‹_›
    · cases ran
  | enter =>
    simp only [step] at ran
    split at ran
    · rename_i at_top
      cases asked : m.flags.stop <;> simp only [asked, if_true, Bool.false_eq_true, if_false] at ran <;> cases ran
      · exact .entered at_top asked
      · exact .stopped at_top asked
    · cases ran
  | sample ring data bootOffsetNs passwd =>
    simp only [step] at ran
    split at ran
    · rename_i polling
      split at ran
      · obtain ⟨daemon, called, rfl⟩ := Option.map_eq_some_iff.mp ran
        exact .sample polling ‹_› called
      · cases ran
    · cases ran
  | polled err =>
    simp only [step] at ran
    split at ran
    · rename_i polling
      cases fine : m.daemon.loop.poll err <;> simp only [fine, if_true, Bool.false_eq_true, if_false] at ran <;>
        cases ran
      · exact .failed polling fine
      · exact .polled polling fine
    · cases ran
  | tick monotonicNs now =>
    simp only [step] at ran
    split at ran
    · cases ran
      exact .ticked ‹_›
    · cases ran
  | check =>
    simp only [step] at ran
    split at ran
    · rename_i checking
      cases requested : m.flags.reload <;>
        simp only [requested, if_true, Bool.false_eq_true, if_false] at ran <;> cases ran
      · exact .unasked checking requested
      · exact .asked checking requested
    · cases ran
  | clear =>
    simp only [step] at ran
    split at ran
    · cases ran
      exact .cleared ‹_›
    · cases ran
  | reload o loaded =>
    simp only [step] at ran
    split at ran
    · cases ran
      exact .reloaded ‹_›
    · cases ran

theorem poll_zero (l : EventLoop) : l.poll 0 = true := by
  unfold EventLoop.poll
  split <;> rfl

/-- One turn in which nothing comes in but a SIGHUP. -/
def reloadTurn (o : Outcomes) (loaded : Option Config) : List LoopStep :=
  [.enter, .signal .sighup, .polled 0, .tick 0 0, .check, .clear, .reload o loaded]

theorem reload_turn (plugins : Plugins) (d : Daemon) (o : Outcomes) (loaded : Option Config) :
    (reloadTurn o loaded).foldlM (step plugins) (run d {}) =
      some (run ((d.tick 0 0).reloadConfig o loaded) {}) := by
  simp [reloadTurn, step, run, handled, Flags.raise, poll_zero]

/-! ### Reloads -/

/-- How many readings of the file the loop still owes. A flag that is about to be
cleared counts once, whatever comes in on top of it. -/
def owed (m : MainLoop) : Nat :=
  match m.stage with
  | .clearing => 1
  | .reloading => 1 + m.flags.reload.toNat
  | _ => m.flags.reload.toNat

theorem raise_reload (f : Flags) (s : Signal) :
    (f.raise s).reload.toNat ≤ f.reload.toNat + if s = .sighup then 1 else 0 := by
  cases s <;> simp [Flags.raise]

/-- What is read is taken off what is owed, and only a SIGHUP adds to it. -/
theorem owed_step (ran : m.step plugins a = some m') :
    (if isReload a then 1 else 0) + owed m' ≤ owed m + if isHup a then 1 else 0 := by
  cases turned_of_step ran with
  | @signal s _ =>
    have raised := raise_reload m.flags s
    have asks : isHup (.signal s) = decide (s = .sighup) := by cases s <;> rfl
    simp only [isReload, owed, asks, decide_eq_true_eq, Bool.false_eq_true, if_false]
    split <;> omega
  | _ => simp_all [isReload, isHup, owed]

theorem owed_run (actions : List LoopStep) {m : MainLoop} (ran : actions.foldlM (step plugins) m = some m') :
    actions.countP isReload + owed m' ≤ owed m + actions.countP isHup := by
  induction actions generalizing m with
  | nil =>
    cases ran
    simp
  | cons a actions ih =>
    rw [List.foldlM_cons, Option.bind_eq_bind, Option.bind_eq_some_iff] at ran
    obtain ⟨mid, first, rest⟩ := ran
    have here := owed_step first
    have later := ih rest
    rw [List.countP_cons, List.countP_cons]
    omega

/-- A raised flag stays up until it is cleared. -/
theorem reload_stays (untouched : touchesReload a = false) (ran : m.step plugins a = some m')
    (raised : m.flags.reload = true) : m'.flags.reload = true := by
  cases turned_of_step ran with
  | @signal s _ => cases s <;> simp [Flags.raise, raised]
  | cleared _ => cases untouched
  | _ => exact raised

theorem reload_stays_run (actions : List LoopStep) (untouched : ∀ a ∈ actions, touchesReload a = false) {m : MainLoop}
    (ran : actions.foldlM (step plugins) m = some m') (raised : m.flags.reload = true) :
    m'.flags.reload = true := by
  refine steps_related (R := fun m m' => m.flags.reload = true → m'.flags.reload = true) (fun _ up => up) ?_
    actions ?_ ran raised
  · exact fun first second up => second (first up)
  · exact fun a member _ _ ran => reload_stays (untouched a member) ran

/-- A step of the loop that leaves the reload flag alone. -/
def getsOn (a : LoopStep) : Bool := !isSignal a && !touchesReload a

/-- Once the flag was found up, the loop clears it and reads the file. -/
theorem reading_next (actions : List LoopStep) {m : MainLoop} (due : m.stage = .clearing ∨ m.stage = .reloading)
    (ran : actions.foldlM (step plugins) m = some m') {next : LoopStep} (own : actions.find? getsOn = some next) :
    isReload next = true := by
  induction actions generalizing m with
  | nil => cases own
  | cons a actions ih =>
    rw [List.foldlM_cons, Option.bind_eq_bind, Option.bind_eq_some_iff] at ran
    obtain ⟨mid, first, rest⟩ := ran
    cases turned_of_step first with
    | signal _ => exact ih (by exact due) rest (by simpa [getsOn, isSignal] using own)
    | cleared _ => exact ih (.inr rfl) rest (by simpa [getsOn, touchesReload] using own)
    | reloaded _ =>
      rw [List.find?_cons_of_pos (by rfl)] at own
      cases own
      rfl
    | _ => simp_all

/-- How a run deals with the requests to reload. -/
structure ReloadsAnswered (pending : Bool) (actions : List LoopStep) : Prop where
  /-- After a SIGHUP, wherever it comes in, the file is read as soon as the loop is through with the flag. -/
  answered : ∀ before waiting touch after, actions = before ++ .signal .sighup :: waiting ++ touch :: after →
    touchesReload touch = true → (∀ a ∈ waiting, touchesReload a = false) →
    ∀ next, after.find? getsOn = some next → isReload next = true
  /-- However the signals fall, nobody reads it unasked. -/
  asked : actions.countP isReload ≤ actions.countP isHup + pending.toNat

/-- No SIGHUP is lost and none is answered twice, wherever in a turn it comes
in. -/
theorem reloads_answered (plugins : Plugins) (daemon : Daemon) (flags : Flags) (actions : List LoopStep)
    (m : MainLoop) (ran : actions.foldlM (step plugins) (run daemon flags) = some m) :
    ReloadsAnswered flags.reload actions where
  answered := by
    rintro before waiting touch after rfl touches untouched next own
    rw [List.append_assoc, List.foldlM_append, Option.bind_eq_bind, Option.bind_eq_some_iff] at ran
    obtain ⟨first, -, ran⟩ := ran
    rw [List.cons_append, List.foldlM_cons, Option.bind_eq_bind, Option.bind_eq_some_iff] at ran
    obtain ⟨second, hup, ran⟩ := ran
    rw [List.foldlM_append, Option.bind_eq_bind, Option.bind_eq_some_iff] at ran
    obtain ⟨third, waited, ran⟩ := ran
    rw [List.foldlM_cons, Option.bind_eq_bind, Option.bind_eq_some_iff] at ran
    obtain ⟨fourth, touched, ran⟩ := ran
    have raised : second.flags.reload = true := by
      cases turned_of_step hup
      rfl
    have still := reload_stays_run waiting untouched waited raised
    cases turned_of_step touched with
    | asked _ _ => exact reading_next after (.inl rfl) ran own
    | unasked _ down => cases still.symm.trans down
    | cleared _ => exact reading_next after (.inr rfl) ran own
    | _ => cases touches
  asked := by
    have counted := owed_run actions ran
    have start : owed (run daemon flags) = flags.reload.toNat := by simp [owed, run]
    omega

/-- A second SIGHUP between the look at the flag and its clearing, answered along with the first. -/
theorem reloads_answered_between_accesses :
    ReloadsAnswered false
      [.enter, .signal .sighup, .polled 0, .tick 0 0, .check, .signal .sighup, .clear,
        .reload DaemonRuns.allSucceed none, .enter] :=
  reloads_answered (fun _ _ => none) (.new {} []) {} _ _ rfl

/-! ### Stops -/

/-- A turn, from the poll to the condition. -/
def turn : List LoopStage := [.polling, .ticking, .checking, .clearing, .reloading, .condition]

/-- `rc` is what the loop was left for. -/
def Earned (flags : Flags) (actions : List LoopStep) (rc : Nat) : Prop :=
  (rc = 0 ∧ (flags.stop = true ∨ ∃ a ∈ actions, isStop a = true)) ∨
    (rc = 1 ∧ ∃ err, .polled err ∈ actions ∧ err < 0 ∧ err ≠ -4)

theorem poll_false {l : EventLoop} {err : Int} (fatal : l.poll err = false) : err < 0 ∧ err ≠ -4 := by
  unfold EventLoop.poll at fatal
  split at fatal
  · cases fatal
  · simpa using fatal

/-- Where the flag and the stage come from. -/
structure Accounted (flags : Flags) (m : MainLoop) (actions : List LoopStep) : Prop where
  stop : m.flags.stop = true → flags.stop = true ∨ ∃ a ∈ actions, isStop a = true
  left : ∀ rc, m.stage = .left rc → Earned flags actions rc

theorem accounted_step {flags : Flags} (held : Accounted flags m actions) (ran : m.step plugins a = some m') :
    Accounted flags m' (actions ++ [a]) := by
  have stop_grows : (flags.stop = true ∨ ∃ b ∈ actions, isStop b = true) →
      flags.stop = true ∨ ∃ b ∈ actions ++ [a], isStop b = true :=
    Or.imp_right fun ⟨b, member, stops⟩ => ⟨b, List.mem_append_left _ member, stops⟩
  have earned_grows : ∀ rc, Earned flags actions rc → Earned flags (actions ++ [a]) rc := by
    rintro rc (⟨zero, asked⟩ | ⟨one, err, member, fatal⟩)
    · exact .inl ⟨zero, stop_grows asked⟩
    · exact .inr ⟨one, err, List.mem_append_left _ member, fatal⟩
  cases turned_of_step ran with
  | @signal s _ =>
    refine ⟨fun up => ?_, fun rc left => earned_grows rc (held.left rc left)⟩
    cases s with
    | sigint | sigterm => exact .inr ⟨_, List.mem_append_right _ List.mem_cons_self, rfl⟩
    | sighup | sigpipe => exact stop_grows (held.stop up)
  | stopped _ asked =>
    refine ⟨fun up => stop_grows (held.stop up), fun rc left => ?_⟩
    cases left
    exact .inl ⟨rfl, stop_grows (held.stop asked)⟩
  | @failed err _ fatal =>
    refine ⟨fun up => stop_grows (held.stop up), fun rc left => ?_⟩
    cases left
    exact .inr ⟨rfl, err, List.mem_append_right _ List.mem_cons_self, poll_false fatal⟩
  | sample _ _ _ => exact ⟨fun up => stop_grows (held.stop up), fun rc left => earned_grows rc (held.left rc left)⟩
  | _ => exact ⟨fun up => stop_grows (held.stop up), nofun⟩

theorem accounted_run {flags : Flags} (later : List LoopStep) {m : MainLoop} {actions : List LoopStep}
    (held : Accounted flags m actions) (ran : later.foldlM (step plugins) m = some m') :
    Accounted flags m' (actions ++ later) := by
  induction later generalizing m actions with
  | nil =>
    cases ran
    rwa [List.append_nil]
  | cons a later ih =>
    rw [List.foldlM_cons, Option.bind_eq_bind, Option.bind_eq_some_iff] at ran
    obtain ⟨mid, first, rest⟩ := ran
    have next := ih (accounted_step held first) rest
    rwa [List.append_assoc, List.singleton_append] at next

/-- How a run comes to its end. -/
structure Stops (plugins : Plugins) (flags : Flags) (actions : List LoopStep) (m : MainLoop) : Prop where
  /-- After a stop the loop goes through what is left of one turn, the condition last, and starts no other. -/
  soon : ∀ before s after, actions = before ++ .signal s :: after → s = .sigint ∨ s = .sigterm →
    (after.filterMap takenAt).Sublist turn
  /-- Until it is left it is never stuck. -/
  live : (∀ rc, m.stage ≠ .left rc) → ∃ a, takenAt a ≠ none ∧ (m.step plugins a).isSome = true
  earned : ∀ rc, m.stage = .left rc → Earned flags actions rc

end SlurmTracer.LoopSignals
