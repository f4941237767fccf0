import SlurmTracer.Core.Sockets
import SlurmTracer.Lib.Transition
import SlurmTracer.PeerFailures

/-!
The sockets of an `HttpSink`. Whatever the resolver and the kernel answer, there
is one socket at a time, nothing blocks on it before it has both timeouts,
nothing is done to it after it is closed, and closed it is (`sockets_closed`).
Seen from outside the loop over the addresses, the worker is the one of
`HttpProcess` (`posts_over_sockets`).
-/
namespace SlurmTracer.SocketLifetimes
open SlurmTracer.Core Lib Core.SocketProcess Lib.Transition

/-! ### The kernel's side -/

/-- A socket the kernel has open for the process. -/
structure OpenSocket where
  fd : Nat
  rcvTimeo : Option TimeVal := none
  sndTimeo : Option TimeVal := none
  connected : Bool := false

/-- `setsockopt` refuses other microseconds with `EDOM`. -/
def inDomain (tv : TimeVal) : Bool := 0 ≤ tv.usec && tv.usec < 1000000

/-- The timeout of a socket that has been given this one. -/
def taken (tv : TimeVal) : Option TimeVal := if inDomain tv then some tv else none

def OpenSocket.setOption (s : OpenSocket) (tv : TimeVal) (option : SocketOption) : OpenSocket :=
  if inDomain tv then
    match option with
    | .rcvTimeo => { s with rcvTimeo := some tv }
    | .sndTimeo => { s with sndTimeo := some tv }
  else s

/-- What the process holds and has to give back. -/
structure Held where
  sockets : List OpenSocket := []
  /-- Lists of `getaddrinfo` that were not freed. -/
  lists : Nat := 0

/-- A call on a descriptor, if it is open. -/
def Held.on (h : Held) (fd : Nat) (call : OpenSocket → Option OpenSocket) : Option Held :=
  match h.sockets.find? (·.fd = fd) with
  | none => none
  | some s => (call s).map fun s => { h with sockets := h.sockets.map fun other => if other.fd = fd then s else other }

/-- `none` is a call that should not have been made: on a descriptor that is not
open, one that can block before the socket has `tv` for both of its timeouts if
it can have it, traffic on a socket without a connection, or a list freed
twice. -/
def Held.call (tv : TimeVal) (h : Held) : SysCall → Option Held
  | .getaddrinfo _ _ found => some { h with lists := h.lists + found.toList.length }
  | .freeaddrinfo => if h.lists = 0 then none else some { h with lists := h.lists - 1 }
  | .socket _ none => some h
  | .socket _ (some fd) =>
    if fd ∈ h.sockets.map OpenSocket.fd then none else some { h with sockets := { fd } :: h.sockets }
  | .setsockopt fd option tv => h.on fd fun s => some (s.setOption tv option)
  | .connect fd _ ok => h.on fd fun s =>
    if s.rcvTimeo = taken tv ∧ s.sndTimeo = taken tv ∧ s.connected = false then some { s with connected := ok } else none
  | .send fd _ _ | .recv fd _ => h.on fd fun s =>
    if s.rcvTimeo = taken tv ∧ s.sndTimeo = taken tv ∧ s.connected = true then some s else none
  | .close fd =>
    if fd ∈ h.sockets.map OpenSocket.fd then some { h with sockets := h.sockets.eraseP (·.fd = fd) } else none

/-- All these calls, one after the other. -/
def Held.replay (tv : TimeVal) (h : Held) (calls : List SysCall) : Option Held := calls.foldlM (Held.call tv) h

variable {ρ : Type} {opt : SocketOptions} {text : List ρ → Bytes} {s s' : SocketProcess ρ}

/-- A socket that is connected. -/
def ready (opt : SocketOptions) (fd : Nat) : OpenSocket := ⟨fd, taken opt.tv, taken opt.tv, true⟩

/-- What `ensure_connected` holds in a call. -/
def dialingHolds (opt : SocketOptions) : Dialing → Held
  | .resolving => {}
  | .opening _ _ => { lists := 1 }
  | .connecting fd _ _ => { sockets := [⟨fd, taken opt.tv, taken opt.tv, false⟩], lists := 1 }

/-- What a connection holds, if there is one. -/
def connection (opt : SocketOptions) : Option Nat → Held
  | some fd => { sockets := [ready opt fd] }
  | none => {}

def dialedHolds (opt : SocketOptions) : Dialed → Held
  | .calls next => dialingHolds opt next
  | .returned fd => connection opt fd

/-- What the worker holds. -/
def holds (opt : SocketOptions) (s : SocketProcess ρ) : Held :=
  match s.waiting with
  | some (.dialing dialing) => dialingHolds opt dialing
  | _ => connection opt s.fd

/-- A timeout that is not negative has microseconds that `setsockopt` takes. -/
theorem taken_of_nonneg (nonneg : 0 ≤ opt.timeout) : taken opt.tv = some opt.tv := by
  have positive : 0 ≤ opt.timeout.toInt := Int64.le_iff_toInt_le.mp nonneg
  have millis : (opt.timeout % 1000).toInt = opt.timeout.toInt % 1000 := by
    rw [Int64.toInt_mod, Int.tmod_eq_emod_of_nonneg positive]
    rfl
  have micros : opt.tv.usec.toInt = opt.timeout.toInt % 1000 * 1000 := by
    rw [SocketOptions.tv, Int64.toInt_mul, millis]
    exact Int.bmod_eq_of_le (by simp; omega) (by simp; omega)
  refine if_pos ?_
  rw [inDomain, Bool.and_eq_true, decide_eq_true_eq, decide_eq_true_eq, Int64.le_iff_toInt_le, Int64.lt_iff_toInt_lt,
    micros]
  exact ⟨by simp; omega, by simp; omega⟩

/-! ### One call after the other -/

theorem replay_append {tv : TimeVal} {h mid : Held} {calls calls' : List SysCall}
    (first : h.replay tv calls = some mid) : h.replay tv (calls ++ calls') = mid.replay tv calls' := by
  rw [Held.replay, List.foldlM_append, ← Held.replay, first]
  rfl

@[simp] theorem replay_nil (tv : TimeVal) (h : Held) : h.replay tv [] = some h := rfl

@[simp] theorem replay_cons (tv : TimeVal) (h : Held) (call : SysCall) (calls : List SysCall) :
    h.replay tv (call :: calls) = (h.call tv call).bind fun h => h.replay tv calls := rfl

/-- With a list in hand and no socket, the loop goes on or ends. -/
theorem next_address (rest : List AddrInfo) :
    ({ lists := 1 } : Held).replay opt.tv (nextAddress rest).1 = some (dialedHolds opt (nextAddress rest).2) := by
  cases rest <;> simp [nextAddress, Held.call, dialedHolds, dialingHolds, connection]

/-- `ensure_connected` goes by the rules from each of its calls to the next. -/
theorem dials {dialing : Dialing} {answer : SocketAnswer} {calls : List SysCall} {next : Dialed}
    (dialed : ensureConnected opt dialing answer = some (calls, next)) :
    (dialingHolds opt dialing).replay opt.tv calls = some (dialedHolds opt next) := by
  unfold ensureConnected at dialed
  split at dialed
  · rename_i found
    cases found with
    | none =>
      cases dialed
      simp [dialingHolds, dialedHolds, Held.call, connection]
    | some result =>
      cases dialed
      rw [replay_cons]
      exact next_address result
  · cases dialed
    rw [replay_cons]
    exact next_address _
  · cases dialed
    cases domain : inDomain opt.tv <;>
      simp [dialingHolds, dialedHolds, Held.call, Held.on, OpenSocket.setOption, taken, domain]
  · cases dialed
    simp [dialingHolds, dialedHolds, Held.call, Held.on, ready, connection]
  · rename_i fd address rest
    cases dialed
    have closed : (dialingHolds opt (.connecting fd address rest)).replay opt.tv
        [.connect fd address false, .close fd] = some { lists := 1 } := by
      simp [dialingHolds, Held.call, Held.on]
    exact (replay_append closed).trans (next_address rest)
  · cases dialed

/-- A call on the connection, and the one that closes it. -/
theorem post_call (fd : Nat) (posting : Posting) (answer : Answer) :
    ({ sockets := [ready opt fd] } : Held).call opt.tv (postCall fd posting answer) = some { sockets := [ready opt fd] } := by
  cases posting <;> simp [postCall, Held.call, Held.on, ready]

/-- No answer has a post connect again. -/
theorem calls_on {opt : HttpOptions} {body : Bytes} {posting next : Posting} {answer : Answer}
    (resumed : resume opt body posting answer = some (.calls next)) : next ≠ .connecting := by
  rintro rfl
  cases posting with
  | connecting =>
    cases answer with
    | connected ok => cases ok <;> cases resumed
    | _ => cases resumed
  | sending unsent =>
    cases answer with
    | sent count =>
      simp only [resume] at resumed
      split at resumed
      · cases resumed
      · split at resumed
        · cases resumed
        · split at resumed <;> cases resumed
    | sendFailed errno => cases errno <;> cases resumed
    | _ => cases resumed
  | readingHead buf =>
    rcases PostProofs.reading_head resumed with failed | ⟨chunk, -, -, reads⟩
    · cases failed
    · unfold readHead at reads
      simp only at reads
      split at reads
      · rcases PostProofs.frame_cases (buf ++ chunk) _ with ⟨kept, framed⟩ | ⟨closeAfter, had, want, framed⟩
        · cases reads.trans framed
        · cases reads.trans framed
      · split at reads <;> cases reads
  | readingBody ok closeAfter had want =>
    rcases PostProofs.reading_body resumed with failed | ⟨chunk, -, -, reads⟩
    · cases failed
    · cases (PostProofs.drain_calls reads.symm).1

/-! ### One step -/

/-- The queue's part of a step that is not an answer. -/
def ofQueue : SocketStep ρ → Option (SinkStep ρ)
  | .write batch => some (.write batch)
  | .pop => some .pop
  | .finish => some .finish
  | .stop => some .stop
  | .exit => some .exit
  | .answer _ => none

/-- What a step can do to a process that runs. -/
inductive Change (opt : SocketOptions) (text : List ρ → Bytes) (s : SocketProcess ρ) :
    SocketStep ρ → SocketProcess ρ → Prop where
  /-- The worker stays where it is, or comes back to wait. -/
  | beside {a : SocketStep ρ} {b : SinkStep ρ} {q : QueueSink ρ} (queue : ofQueue a = some b)
      (stepped : HttpSink.step opt.maxQueuedBatches s.toQueueSink b = some q)
      (stays : q.worker = s.worker ∨ s.worker = .settled ∧ q.worker = .waiting) (notPop : a ≠ .pop)
      (notExit : a ≠ .exit) : Change opt text s a { s with toQueueSink := q }
  | popped {q : QueueSink ρ} {batch : List ρ} (stepped : HttpSink.step opt.maxQueuedBatches s.toQueueSink .pop = some q)
      (idle : s.worker = .waiting) (took : q.worker = .handling batch 0) :
      Change opt text s .pop ({ s with toQueueSink := q }.enterPost opt (text batch))
  | left {q : QueueSink ρ} (stepped : HttpSink.step opt.maxQueuedBatches s.toQueueSink .exit = some q)
      (idle : s.worker = .waiting) (gone : q.worker = .exited) :
      Change opt text s .exit { s with toQueueSink := q }.closeConnection
  | dials {answer : SocketAnswer} {batch : List ρ} {failedPosts : Nat} {dialing next : Dialing} {calls : List SysCall}
      (handling : s.worker = .handling batch failedPosts) (asked : s.waiting = some (.dialing dialing))
      (dialed : ensureConnected opt dialing answer = some (calls, .calls next)) :
      Change opt text s (.answer answer) { s with calls := s.calls ++ calls, waiting := some (.dialing next) }
  | connected {answer : SocketAnswer} {batch : List ρ} {failedPosts : Nat} {dialing : Dialing} {calls : List SysCall}
      {fd : Nat} (handling : s.worker = .handling batch failedPosts) (asked : s.waiting = some (.dialing dialing))
      (dialed : ensureConnected opt dialing answer = some (calls, .returned (some fd))) :
      Change opt text s (.answer answer) { s with
        calls := s.calls ++ calls, fd := some fd
        waiting := some (.posting (.sending (request opt.toHttpOptions (text batch)))) }
  | unreachable {answer : SocketAnswer} {batch : List ρ} {failedPosts : Nat} {dialing : Dialing} {calls : List SysCall}
      {s' : SocketProcess ρ} (handling : s.worker = .handling batch failedPosts)
      (asked : s.waiting = some (.dialing dialing))
      (dialed : ensureConnected opt dialing answer = some (calls, .returned none))
      (ran : { s with calls := s.calls ++ calls }.returned opt text false = some s') :
      Change opt text s (.answer answer) s'
  | killed {answer : Answer} {batch : List ρ} {failedPosts : Nat} {posting : Posting} {next : Posted} {fd : Nat}
      (handling : s.worker = .handling batch failedPosts) (asked : s.waiting = some (.posting posting))
      (held : s.fd = some fd) (resumed : resume opt.toHttpOptions (text batch) posting answer = some next)
      (deadly : terminates answer = true) :
      Change opt text s (.answer (.answer answer))
        { s with calls := s.calls ++ [postCall fd posting answer], terminated := true }
  | calls {answer : Answer} {batch : List ρ} {failedPosts : Nat} {posting next : Posting} {fd : Nat}
      (handling : s.worker = .handling batch failedPosts) (asked : s.waiting = some (.posting posting))
      (held : s.fd = some fd) (resumed : resume opt.toHttpOptions (text batch) posting answer = some (.calls next))
      (spared : terminates answer = false) :
      Change opt text s (.answer (.answer answer))
        { s with calls := s.calls ++ [postCall fd posting answer], waiting := some (.posting next) }
  | posted {answer : Answer} {batch : List ρ} {failedPosts : Nat} {posting : Posting} {ok connected : Bool} {fd : Nat}
      {s' : SocketProcess ρ} (handling : s.worker = .handling batch failedPosts)
      (asked : s.waiting = some (.posting posting)) (held : s.fd = some fd)
      (resumed : resume opt.toHttpOptions (text batch) posting answer = some (.returned ok connected))
      (spared : terminates answer = false)
      (ran : (if connected then { s with calls := s.calls ++ [postCall fd posting answer] }
        else { s with calls := s.calls ++ [postCall fd posting answer] }.closeConnection).returned opt text ok = some s') :
      Change opt text s (.answer (.answer answer)) s'

theorem change_of_step {a : SocketStep ρ} (ran : s.step opt text a = some s') :
    s.terminated = false ∧ Change opt text s a s' := by
  unfold SocketProcess.step at ran
  cases alive : s.terminated with
  | true => simp [alive] at ran
  | false =>
    rw [alive, if_neg Bool.false_ne_true] at ran
    refine ⟨rfl, ?_⟩
    cases a with
    | write batch =>
      obtain ⟨q, stepped, rfl⟩ := Option.map_eq_some_iff.mp ran
      refine .beside rfl stepped (.inl ?_) nofun nofun
      cases QueueSteps.change_of_step stepped
      rfl
    | stop =>
      cases ran
      exact .beside rfl rfl (.inl rfl) nofun nofun
    | finish =>
      obtain ⟨q, stepped, rfl⟩ := Option.map_eq_some_iff.mp ran
      refine .beside rfl stepped (.inr ?_) nofun nofun
      cases QueueSteps.change_of_step stepped with
      | finish settled => exact ⟨settled, rfl⟩
    | pop =>
      obtain ⟨mid, popped, rfl⟩ := Option.map_eq_some_iff.mp ran
      obtain ⟨q, stepped, rfl⟩ := Option.map_eq_some_iff.mp popped
      cases QueueSteps.change_of_step stepped with
      | pop waiting queued => exact .popped stepped waiting rfl
    | exit =>
      obtain ⟨mid, left, rfl⟩ := Option.map_eq_some_iff.mp ran
      obtain ⟨q, stepped, rfl⟩ := Option.map_eq_some_iff.mp left
      cases QueueSteps.change_of_step stepped with
      | exit waiting empty stopping => exact .left stepped waiting rfl
    | answer answer =>
      unfold SocketProcess.aliveStep at ran
      simp only at ran
      split at ran
      · rename_i batch failedPosts waiting handling asked
        unfold SocketProcess.answered at ran
        split at ran
        · split at ran
          · cases ran
          · cases ran
            exact .dials handling asked ‹_›
          · exact .unreachable handling asked ‹_› ran
          · cases ran
            exact .connected handling asked ‹_›
        · split at ran
          · rename_i held resumed
            simp only at ran
            split at ran
            · cases ran
              exact .killed handling asked held resumed ‹_›
            · rename_i spared
              rw [Bool.not_eq_true] at spared
              split at ran
              · cases ran
                exact .calls handling asked held resumed spared
              · exact .posted handling asked held resumed spared ran
          · cases ran
        · cases ran
      · cases ran

/-! ### What every step keeps -/

/-- The calls so far were in order, and this is what they have left open. -/
structure Sound (opt : SocketOptions) (s : SocketProcess ρ) : Prop where
  replayed : ({} : Held).replay opt.tv s.calls = some (holds opt s)
  dialing : ∀ dialing, s.waiting = some (.dialing dialing) → s.fd = none
  posting : ∀ posting, s.waiting = some (.posting posting) → s.fd ≠ none ∧ posting ≠ .connecting
  busy : s.waiting ≠ none → ∃ batch failedPosts, s.worker = .handling batch failedPosts
  left : s.worker = .exited → s.fd = none

theorem sound_initial : Sound opt ({} : SocketProcess ρ) := ⟨rfl, nofun, nofun, fun waits => absurd rfl waits, nofun⟩

@[simp] theorem close_connection_queue (s : SocketProcess ρ) : s.closeConnection.toQueueSink = s.toQueueSink := by
  unfold closeConnection
  split <;> rfl

@[simp] theorem close_connection_terminated (s : SocketProcess ρ) : s.closeConnection.terminated = s.terminated := by
  unfold closeConnection
  split <;> rfl

@[simp] theorem close_connection_fd (s : SocketProcess ρ) : s.closeConnection.fd = none := by
  unfold closeConnection
  split <;> simp_all

@[simp] theorem close_connection_waiting (s : SocketProcess ρ) : s.closeConnection.waiting = s.waiting := by
  unfold closeConnection
  split <;> rfl

/-- `close_connection` gives the descriptor back. -/
theorem close_connection_calls {s : SocketProcess ρ} (replayed : ({} : Held).replay opt.tv s.calls = some (connection opt s.fd)) :
    ({} : Held).replay opt.tv s.closeConnection.calls = some {} := by
  unfold closeConnection
  split
  · rename_i none
    rwa [none] at replayed
  · rename_i fd held
    rw [held] at replayed
    rw [replay_append replayed]
    simp [connection, Held.call, ready]

/-- A post that is entered with its connection accounted for. -/
theorem sound_enter {s : SocketProcess ρ} {body : Bytes}
    (replayed : ({} : Held).replay opt.tv s.calls = some (connection opt s.fd))
    (handling : ∃ batch failedPosts, s.worker = .handling batch failedPosts) : Sound opt (s.enterPost opt body) := by
  obtain ⟨batch, failedPosts, handling⟩ := handling
  unfold SocketProcess.enterPost
  split
  · rename_i fd held
    refine ⟨replayed, nofun, ?_, fun _ => ⟨batch, failedPosts, handling⟩, ?_⟩
    · intro posting sending
      cases sending
      exact ⟨by simp [held], nofun⟩
    · exact fun exited => by cases handling.symm.trans exited
  · rename_i none
    rw [none] at replayed
    refine ⟨replayed, fun _ _ => none, nofun, fun _ => ⟨batch, failedPosts, handling⟩, ?_⟩
    exact fun exited => by cases handling.symm.trans exited

/-- A post that returns with its connection accounted for. -/
theorem sound_returned {s : SocketProcess ρ} {ok : Bool}
    (replayed : ({} : Held).replay opt.tv s.calls = some (connection opt s.fd))
    (ran : s.returned opt text ok = some s') : Sound opt s' := by
  obtain ⟨mid, tried, rfl⟩ := Option.map_eq_some_iff.mp ran
  obtain ⟨q, stepped, rfl⟩ := Option.map_eq_some_iff.mp tried
  cases QueueSteps.change_of_step stepped with
  | retry handling reads =>
    refine sound_enter ?_ ⟨_, _, congrArg QueueSink.worker (close_connection_queue _)⟩
    rw [close_connection_fd]
    exact close_connection_calls replayed
  | delivered handling reads | lost handling reads =>
    exact ⟨replayed, nofun, nofun, fun waits => absurd rfl waits, nofun⟩

/-- A worker that has no batch is in no call. -/
theorem Sound.free (sound : Sound opt s) (idle : ∀ batch failedPosts, s.worker ≠ .handling batch failedPosts) :
    s.waiting = none ∧ ({} : Held).replay opt.tv s.calls = some (connection opt s.fd) := by
  have none : s.waiting = none := by
    by_contra waits
    obtain ⟨batch, failedPosts, handling⟩ := sound.busy waits
    exact idle batch failedPosts handling
  have replayed := sound.replayed
  rw [holds, none] at replayed
  exact ⟨none, replayed⟩

/-- The answer to a call on the connection leaves it as it is. -/
theorem Sound.answered (sound : Sound opt s) {posting : Posting} {fd : Nat} (asked : s.waiting = some (.posting posting))
    (held : s.fd = some fd) (answer : Answer) :
    ({} : Held).replay opt.tv (s.calls ++ [postCall fd posting answer]) = some (connection opt s.fd) := by
  have replayed := sound.replayed
  rw [holds, asked] at replayed
  rw [replay_append replayed, held]
  simpa [connection] using post_call fd posting answer

theorem sound_step {a : SocketStep ρ} (sound : Sound opt s) (ran : s.step opt text a = some s') : Sound opt s' := by
  cases (change_of_step ran).2 with
  | beside queue stepped stays notPop notExit =>
    refine ⟨sound.replayed, sound.dialing, sound.posting, fun waits => ?_, fun exited => ?_⟩
    · obtain ⟨batch, failedPosts, handling⟩ := sound.busy waits
      rcases stays with same | ⟨settled, -⟩
      · exact ⟨batch, failedPosts, same.trans handling⟩
      · cases settled.symm.trans handling
    · rcases stays with same | ⟨-, waiting⟩
      · exact sound.left (same.symm.trans exited)
      · cases waiting.symm.trans exited
  | popped stepped idle took =>
    exact sound_enter (sound.free fun _ _ handling => by cases idle.symm.trans handling).2 ⟨_, _, took⟩
  | left stepped idle gone =>
    obtain ⟨none, replayed⟩ := sound.free fun _ _ handling => by cases idle.symm.trans handling
    refine ⟨?_, ?_, ?_, ?_, fun _ => close_connection_fd _⟩
    · rw [holds, close_connection_waiting, close_connection_fd]
      simp only [none]
      exact close_connection_calls replayed
    all_goals simp [none]
  | @dials answer batch failedPosts dialing next calls handling asked dialed =>
    have replayed := sound.replayed
    rw [holds, asked] at replayed
    refine ⟨?_, fun _ _ => sound.dialing dialing asked, nofun, fun _ => ⟨batch, failedPosts, handling⟩, ?_⟩
    · exact (replay_append replayed).trans (dials dialed)
    · exact fun exited => by cases handling.symm.trans exited
  | @connected answer batch failedPosts dialing calls fd handling asked dialed =>
    have replayed := sound.replayed
    rw [holds, asked] at replayed
    refine ⟨?_, nofun, ?_, fun _ => ⟨batch, failedPosts, handling⟩, ?_⟩
    · exact (replay_append replayed).trans (dials dialed)
    · intro posting sending
      cases sending
      exact ⟨nofun, nofun⟩
    · exact fun exited => by cases handling.symm.trans exited
  | @unreachable answer batch failedPosts dialing calls s' handling asked dialed ran =>
    have replayed := sound.replayed
    rw [holds, asked] at replayed
    refine sound_returned ?_ ran
    rw [sound.dialing dialing asked]
    exact (replay_append replayed).trans (dials dialed)
  | @killed answer batch failedPosts posting next fd handling asked held resumed deadly =>
    refine ⟨?_, sound.dialing, sound.posting, sound.busy, sound.left⟩
    rw [holds, asked]
    exact sound.answered asked held answer
  | @calls answer batch failedPosts posting next fd handling asked held resumed spared =>
    refine ⟨sound.answered asked held answer, nofun, ?_, fun _ => ⟨batch, failedPosts, handling⟩, sound.left⟩
    intro later calls
    cases calls
    exact ⟨(sound.posting posting asked).1, calls_on resumed⟩
  | @posted answer batch failedPosts posting ok connected fd s' handling asked held resumed spared ran =>
    refine sound_returned ?_ ran
    split
    · exact sound.answered asked held answer
    · rw [close_connection_fd]
      exact close_connection_calls (sound.answered asked held answer)

theorem sound_steps (sound : Sound opt s) {steps : List (SocketStep ρ)}
    (ran : steps.foldlM (SocketProcess.step opt text) s = some s') : Sound opt s' :=
  have began : Runs (Sound opt) (SocketProcess.step opt text) Anything s := .start sound
  (began.steps steps ran).invariant (fun _ sound => sound) fun _ _ _ sound _ ran => sound_step sound ran

/-- What every run of an `HttpSink` has done with its sockets: its calls, each
of which was in order, have left this open. -/
structure Accounted (opt : SocketOptions) (s : SocketProcess ρ) (held : Held) : Prop where
  inOrder : ({} : Held).replay opt.tv s.calls = some held
  oneSocket : held.sockets.length ≤ 1
  oneList : held.lists ≤ 1
  /-- What connects or is connected has both timeouts, unless they are negative. -/
  timed : 0 ≤ opt.timeout → ∀ socket ∈ held.sockets, socket.rcvTimeo = some opt.tv ∧ socket.sndTimeo = some opt.tv
  /-- Outside `ensure_connected` it is the connection in `fd_`, if there is one. -/
  outside : (∀ dialing, s.waiting ≠ some (.dialing dialing)) → held.lists = 0 ∧ held.sockets.map OpenSocket.fd = s.fd.toList
  /-- A post that has a connection does not wait for one. -/
  posting : ∀ posting, s.waiting = some (.posting posting) → s.fd ≠ none ∧ posting ≠ .connecting
  /-- The worker leaves nothing open. -/
  left : s.worker = .exited → held = {}

theorem holds_timed (nonneg : 0 ≤ opt.timeout) :
    ∀ socket ∈ (holds opt s).sockets, socket.rcvTimeo = some opt.tv ∧ socket.sndTimeo = some opt.tv := by
  have timed := taken_of_nonneg nonneg
  unfold holds
  split
  · rename_i dialing _
    cases dialing <;> simp [dialingHolds, timed]
  · cases s.fd <;> simp [connection, ready, timed]

theorem Sound.accounted (sound : Sound opt s) : Accounted opt s (holds opt s) := by
  have exited : s.worker = .exited → holds opt s = {} := by
    intro exited
    obtain ⟨idle, -⟩ := sound.free fun _ _ handling => by cases exited.symm.trans handling
    rw [holds, idle, sound.left exited]
    rfl
  by_cases dials : ∃ dialing, s.waiting = some (.dialing dialing)
  · obtain ⟨dialing, asked⟩ := dials
    have held : holds opt s = dialingHolds opt dialing := by rw [holds, asked]
    refine ⟨sound.replayed, ?_, ?_, holds_timed, fun outside => absurd asked (outside dialing), sound.posting, exited⟩ <;>
      rw [held] <;>
      cases dialing <;> simp [dialingHolds]
  · have held : holds opt s = connection opt s.fd := by
      unfold holds
      split
      · exact absurd ⟨_, ‹_›⟩ dials
      · rfl
    refine ⟨sound.replayed, ?_, ?_, holds_timed, fun _ => ?_, sound.posting, exited⟩ <;> rw [held] <;> cases s.fd <;>
      simp [connection, ready]

theorem sockets_closed (opt : SocketOptions) (text : List ρ → Bytes) (steps : List (SocketStep ρ)) (s : SocketProcess ρ)
    (ran : steps.foldlM (SocketProcess.step opt text) {} = some s) : ∃ held, Accounted opt s held :=
  ⟨_, (sound_steps sound_initial ran).accounted⟩

/-- A connection that fails its first write, a second one that is not come by, and the end. -/
def closing : List (SocketStep Unit) :=
  [.write [()], .pop, .answer (.resolved (some [⟨2, 1, 6, []⟩])), .answer (.opened (some 3)), .answer (.connected true),
    .answer (.answer (.sendFailed .other)), .answer (.resolved none), .finish, .stop, .exit]

theorem sockets_closed_closing :
    ∃ held, Accounted { host := [] } ((closing.foldlM (SocketProcess.step { host := [] } fun _ => []) {}).get (by decide)) held :=
  sockets_closed _ _ closing _ (Option.some_get _).symm

/-! ### The same process, one call higher -/

def asPosting : SocketWaiting → Posting
  | .dialing _ => .connecting
  | .posting posting => posting

/-- The process with all of `ensure_connected` for one call. -/
def toHttp (s : SocketProcess ρ) : HttpProcess ρ :=
  { toQueueSink := s.toQueueSink, connected := s.fd.isSome, posting := s.waiting.map asPosting, terminated := s.terminated }

/-- What is seen of a step: all but how a connection came about. -/
def overPost : HttpStep ρ → Option (HttpStep ρ)
  | .answer (.connected _) => none
  | a => some a

/-- The same of a step over the sockets. -/
def overSockets : SocketStep ρ → Option (HttpStep ρ)
  | .write batch => some (.write batch)
  | .pop => some .pop
  | .answer (.answer answer) => overPost (.answer answer)
  | .answer _ => none
  | .finish => some .finish
  | .stop => some .stop
  | .exit => some .exit

/-- A step of the one process as a step of the other. -/
def ofHttp : HttpStep ρ → SocketStep ρ
  | .write batch => .write batch
  | .pop => .pop
  | .answer answer => .answer (.answer answer)
  | .finish => .finish
  | .stop => .stop
  | .exit => .exit

@[simp] theorem over_sockets_of_http (a : HttpStep ρ) : overSockets (ofHttp a) = overPost a := by cases a <;> rfl

@[simp] theorem to_http_close (s : SocketProcess ρ) : toHttp s.closeConnection = { toHttp s with connected := false } := by
  unfold closeConnection
  split
  · rename_i none
    simp [toHttp, none]
  · rfl

@[simp] theorem to_http_enter (s : SocketProcess ρ) (body : Bytes) : toHttp (s.enterPost opt body) =
    { toHttp s with posting := some (Core.enterPost opt.toHttpOptions body s.fd.isSome) } := by
  unfold SocketProcess.enterPost
  split <;> simp [toHttp, asPosting, Core.enterPost, *]

theorem queue_commutes (s : SocketProcess ρ) (b : SinkStep ρ) :
    (toHttp s).queueStep opt.toHttpOptions b = (s.queueStep opt b).map toHttp := by
  rw [HttpProcess.queueStep, SocketProcess.queueStep, Option.map_map]
  rfl

/-- `run` does the same with what `post` returns. -/
theorem returned_commutes {p : HttpProcess ρ} (s : SocketProcess ρ) (ok : Bool) (sameQueue : p.toQueueSink = s.toQueueSink)
    (sameEnd : p.terminated = s.terminated) :
    p.returned opt.toHttpOptions ok s.fd.isSome = (s.returned opt text ok).map toHttp := by
  rw [HttpProcess.returned, HttpProcess.queueStep, SocketProcess.returned, SocketProcess.queueStep, sameQueue]
  cases stepped : HttpSink.step opt.maxQueuedBatches s.toQueueSink (.attempt ok) with
  | none => rfl
  | some q =>
    cases QueueSteps.change_of_step stepped with
    | retry handling reads =>
      simp only [Option.map_some, to_http_enter, to_http_close, close_connection_fd]
      simp [toHttp, Core.enterPost, sameEnd]
    | delivered handling reads | lost handling reads => simp [toHttp, sameEnd]

theorem closed_commutes {p : HttpProcess ρ} (s : SocketProcess ρ) (ok : Bool) (sameQueue : p.toQueueSink = s.toQueueSink)
    (sameEnd : p.terminated = s.terminated) :
    p.returned opt.toHttpOptions ok false = (s.closeConnection.returned opt text ok).map toHttp := by
  rw [← close_connection_queue] at sameQueue
  rw [← close_connection_terminated] at sameEnd
  have fd : s.closeConnection.fd.isSome = false := by rw [close_connection_fd]; rfl
  rw [← fd]
  exact returned_commutes s.closeConnection ok sameQueue sameEnd

/-- Off `ensure_connected`, the two processes take the same steps. -/
theorem step_commutes (sound : Sound opt s) (a : HttpStep ρ)
    (dialed : ∀ answer, a = .answer answer → ∀ dialing, s.waiting ≠ some (.dialing dialing)) :
    (toHttp s).step opt.toHttpOptions text a = (s.step opt text (ofHttp a)).map toHttp := by
  rw [HttpProcess.step, SocketProcess.step]
  cases alive : s.terminated with
  | true => simp [toHttp, alive]
  | false =>
    have runs : (toHttp s).terminated = false := alive
    rw [runs, if_neg Bool.false_ne_true, if_neg Bool.false_ne_true]
    cases a with
    | write batch => exact queue_commutes s (.write batch)
    | finish => exact queue_commutes s .finish
    | stop => exact queue_commutes s .stop
    | pop =>
      rw [HttpProcess.aliveStep, queue_commutes]
      cases popped : s.queueStep opt .pop with
      | none => simp [ofHttp, SocketProcess.aliveStep, popped]
      | some mid =>
        simp only [ofHttp, SocketProcess.aliveStep, popped, Option.map_some]
        have same : (toHttp mid).worker = mid.worker := rfl
        rw [same]
        cases mid.worker with
        | handling batch failedPosts => exact congrArg some (to_http_enter mid (text batch)).symm
        | waiting | settled | exited => rfl
    | exit =>
      rw [HttpProcess.aliveStep, queue_commutes]
      cases left : s.queueStep opt .exit <;> simp [ofHttp, SocketProcess.aliveStep, left]
    | answer answer =>
      have sameWorker : (toHttp s).worker = s.worker := rfl
      simp only [HttpProcess.aliveStep, ofHttp, SocketProcess.aliveStep, sameWorker]
      cases handling : s.worker with
      | waiting | settled | exited => rfl
      | handling batch failedPosts =>
        cases asked : s.waiting with
        | none => simp [toHttp, asked]
        | some waiting =>
          cases waiting with
          | dialing dialing => exact absurd asked (dialed answer rfl dialing)
          | posting posting =>
            obtain ⟨fd, held⟩ := Option.ne_none_iff_exists'.mp (sound.posting posting asked).1
            have same : (toHttp s).posting = some posting := by simp [toHttp, asked, asPosting]
            simp only [same, answered, held]
            cases resumed : resume opt.toHttpOptions (text batch) posting answer with
            | none => rfl
            | some next =>
              simp only
              cases deadly : terminates answer with
              | true => simp [toHttp, asked, asPosting, held]
              | false =>
                simp only [if_neg Bool.false_ne_true]
                cases next with
                | calls next => simp [toHttp, asPosting, held]
                | returned ok connected =>
                  cases connected with
                  | true => exact returned_commutes { s with fd := some fd, calls := _ } ok rfl rfl
                  | false => exact closed_commutes { s with fd := some fd, calls := _ } ok rfl rfl

/-! ### There and back -/

/-- The two processes in one state. -/
structure Alike (opt : SocketOptions) (s : SocketProcess ρ) (p : HttpProcess ρ) : Prop where
  sound : Sound opt s
  image : toHttp s = p

theorem one_step {σ α : Type} {step : σ → α → Option σ} {s s' : σ} {a : α} (ran : step s a = some s') :
    [a].foldlM step s = some s' := by
  rw [List.foldlM_cons, ran]
  rfl

theorem seen_alone {α β : Type} (seen : α → Option β) (a : α) : [a].filterMap seen = (seen a).toList := by
  cases shown : seen a <;> simp [shown]

/-- An answer to a call of `ensure_connected` is not seen. -/
theorem dial_unseen {dialing : Dialing} {answer : SocketAnswer} {calls : List SysCall} {next : Dialed}
    (dialed : ensureConnected opt dialing answer = some (calls, next)) :
    overSockets (.answer answer : SocketStep ρ) = none := by
  cases answer with
  | answer answer => simp [ensureConnected] at dialed
  | _ => rfl

/-- What the one process does with the outcome of a connection. -/
theorem http_connected {p : HttpProcess ρ} {batch : List ρ} {failedPosts : Nat} (alive : p.terminated = false)
    (handling : p.worker = .handling batch failedPosts) (asked : p.posting = some .connecting) (ok : Bool) :
    p.step opt.toHttpOptions text (.answer (.connected ok)) =
      if ok then some { p with posting := some (.sending (request opt.toHttpOptions (text batch))), connected := true }
      else p.returned opt.toHttpOptions false false := by
  simp only [HttpProcess.step, alive, HttpProcess.aliveStep, handling, asked, resume, terminates, raised]
  cases ok <;> rfl

/-- Off `ensure_connected`, no other answer is taken. -/
theorem of_http {a : SocketStep ρ} (dials : ¬ ∃ answer dialing, a = .answer answer ∧ s.waiting = some (.dialing dialing))
    (ran : s.step opt text a = some s') : ∃ b, a = ofHttp b := by
  cases a with
  | write batch => exact ⟨.write batch, rfl⟩
  | pop => exact ⟨.pop, rfl⟩
  | finish => exact ⟨.finish, rfl⟩
  | stop => exact ⟨.stop, rfl⟩
  | exit => exact ⟨.exit, rfl⟩
  | answer answer =>
    cases (change_of_step ran).2 with
    | beside queue => cases queue
    | dials handling asked | connected handling asked | unreachable handling asked => exact absurd ⟨_, _, rfl, asked⟩ dials
    | @killed answer => exact ⟨.answer answer, rfl⟩
    | @calls answer => exact ⟨.answer answer, rfl⟩
    | @posted answer => exact ⟨.answer answer, rfl⟩

/-- Every step over the sockets is one over `post`, or none. -/
theorem alike_step {p : HttpProcess ρ} {a : SocketStep ρ} (alike : Alike opt s p) (ran : s.step opt text a = some s') :
    ∃ (steps : List (HttpStep ρ)) (p' : HttpProcess ρ), steps.foldlM (HttpProcess.step opt.toHttpOptions text) p = some p' ∧
      Alike opt s' p' ∧ steps.filterMap overPost = (overSockets a).toList := by
  obtain ⟨sound, rfl⟩ := alike
  have sound' := sound_step sound ran
  by_cases dials : ∃ answer dialing, a = .answer answer ∧ s.waiting = some (.dialing dialing)
  · obtain ⟨answer, dialing, rfl, asked⟩ := dials
    have connecting : (toHttp s).posting = some .connecting := by simp [toHttp, asked, asPosting]
    obtain ⟨alive, change⟩ := change_of_step ran
    cases change with
    | beside queue => cases queue
    | @dials _ batch failedPosts dialing next calls handling asked dialed =>
      refine ⟨[], toHttp s, rfl, ⟨sound', ?_⟩, ?_⟩
      · simp [toHttp, asked, asPosting]
      · rw [dial_unseen dialed]
        rfl
    | @connected _ batch failedPosts dialing calls fd handling asked dialed =>
      refine ⟨[.answer (.connected true)], _, one_step (http_connected alive handling connecting true), ⟨sound', rfl⟩, ?_⟩
      rw [dial_unseen dialed]
      rfl
    | @unreachable _ batch failedPosts dialing calls s' handling asked dialed ran =>
      have failed : (toHttp s).returned opt.toHttpOptions false s.fd.isSome = some (toHttp s') := by
        rw [← Option.map_some, ← ran]
        exact returned_commutes { s with calls := s.calls ++ calls } false rfl rfl
      rw [sound.dialing dialing asked] at failed
      refine ⟨[.answer (.connected false)], _, one_step ?_, ⟨sound', rfl⟩, ?_⟩
      · exact (http_connected alive handling connecting false).trans failed
      · rw [dial_unseen dialed]
        rfl
    | killed handling asked' | calls handling asked' | posted handling asked' => cases asked.symm.trans asked'
  · obtain ⟨b, rfl⟩ : ∃ b, a = ofHttp b := of_http dials ran
    refine ⟨[b], toHttp s', one_step ?_, ⟨sound', rfl⟩, ?_⟩
    · rw [step_commutes sound b, ran, Option.map_some]
      rintro answer rfl dialing asked
      exact dials ⟨_, dialing, rfl, asked⟩
    · rw [seen_alone, over_sockets_of_http]

/-- The worker dials from the start. -/
def Fresh (s : SocketProcess ρ) : Prop := ∀ dialing, s.waiting = some (.dialing dialing) → dialing = .resolving

theorem fresh_enter (s : SocketProcess ρ) (body : Bytes) : Fresh (s.enterPost opt body) := by
  unfold SocketProcess.enterPost
  split
  · nofun
  · rintro dialing asked
    cases asked
    rfl

theorem fresh_returned {ok : Bool} (ran : s.returned opt text ok = some s') : Fresh s' := by
  obtain ⟨mid, -, rfl⟩ := Option.map_eq_some_iff.mp ran
  split
  · exact fresh_enter _ _
  · nofun

theorem fresh_step {a : HttpStep ρ} (fresh : Fresh s) (ran : s.step opt text (ofHttp a) = some s') : Fresh s' := by
  obtain ⟨-, change⟩ := change_of_step ran
  generalize is : ofHttp a = b at change
  cases change with
  | beside => exact fresh
  | popped => exact fresh_enter _ _
  | left => 
    intro dialing asked
    rw [close_connection_waiting] at asked
    exact fresh dialing asked
  | dials handling asked dialed | connected handling asked dialed => cases a <;> cases is; simp [ensureConnected] at dialed
  | unreachable handling asked dialed ran => exact fresh_returned ran
  | killed => exact fresh
  | calls => nofun
  | posted handling asked held resumed spared ran => exact fresh_returned ran

/-- The two processes in one state, from which the worker can still come to any connection. -/
structure Poised (opt : SocketOptions) (p : HttpProcess ρ) (s : SocketProcess ρ) : Prop extends Alike opt s p where
  fresh : Fresh s

/-- A connection over the first address there is, or none for want of an address. -/
def dialled (ok : Bool) : List (SocketStep ρ) :=
  if ok then [.answer (.resolved (some [⟨0, 0, 0, []⟩])), .answer (.opened (some 0)), .answer (.connected true)]
  else [.answer (.resolved none)]

theorem dialled_image {batch : List ρ} {failedPosts : Nat} {p : HttpProcess ρ} {ok : Bool} (sound : Sound opt s)
    (alive : s.terminated = false) (handling : s.worker = .handling batch failedPosts)
    (asked : s.waiting = some (.dialing .resolving)) (ran : (toHttp s).step opt.toHttpOptions text (.answer (.connected ok)) = some p) :
    ∃ s', (dialled ok).foldlM (SocketProcess.step opt text) s = some s' ∧ toHttp s' = p ∧ Fresh s' := by
  have connecting : (toHttp s).posting = some .connecting := by simp [toHttp, asked, asPosting]
  rw [http_connected alive handling connecting] at ran
  cases ok with
  | true =>
    cases ran
    have made : ∃ calls, (dialled true).foldlM (SocketProcess.step opt text) s = some { s with
        calls, fd := some 0, waiting := some (.posting (.sending (request opt.toHttpOptions (text batch)))) } := by
      simp [dialled, SocketProcess.step, alive, aliveStep, handling, asked, answered, ensureConnected, nextAddress]
    obtain ⟨calls, made⟩ := made
    exact ⟨_, made, rfl, nofun⟩
  | false =>
    have failed : ∃ calls, s.step opt text (.answer (.resolved none)) =
        SocketProcess.returned opt text { s with calls } false := by
      refine ⟨s.calls ++ [.getaddrinfo opt.host (toDecimal opt.port.toNat) none], ?_⟩
      simp only [SocketProcess.step, alive, aliveStep, handling, asked, answered, ensureConnected]
      rfl
    obtain ⟨calls, failed⟩ := failed
    have same : (toHttp s).returned opt.toHttpOptions false s.fd.isSome =
        (SocketProcess.returned opt text { s with calls } false).map toHttp :=
      returned_commutes { s with calls } false rfl rfl
    have closed : s.fd.isSome = false := by rw [sound.dialing _ asked, Option.isSome_none]
    rw [closed] at same
    obtain ⟨s', returned, rfl⟩ := Option.map_eq_some_iff.mp (same.symm.trans ran)
    exact ⟨s', one_step (failed.trans returned), rfl, fresh_returned returned⟩

/-- Every step over `post` is made of steps over the sockets. -/
theorem poised_step {p p' : HttpProcess ρ} {a : HttpStep ρ} (poised : Poised opt p s)
    (ran : p.step opt.toHttpOptions text a = some p') :
    ∃ (steps : List (SocketStep ρ)) (s' : SocketProcess ρ), steps.foldlM (SocketProcess.step opt text) s = some s' ∧
      Poised opt p' s' ∧ steps.filterMap overSockets = (overPost a).toList := by
  obtain ⟨⟨sound, rfl⟩, fresh⟩ := poised
  by_cases dials : ∃ answer dialing, a = .answer answer ∧ s.waiting = some (.dialing dialing)
  · obtain ⟨answer, dialing, rfl, asked⟩ := dials
    have connecting : (toHttp s).posting = some .connecting := by simp [toHttp, asked, asPosting]
    cases fresh dialing asked
    obtain ⟨batch, failedPosts, handling⟩ := sound.busy (by simp [asked])
    have sameWorker : (toHttp s).worker = .handling batch failedPosts := handling
    have alive := PeerFailures.alive_of_step ran
    obtain ⟨ok, rfl⟩ : ∃ ok, answer = .connected ok := by
      cases answer with
      | connected ok => exact ⟨ok, rfl⟩
      | _ => simp [HttpProcess.step, alive, HttpProcess.aliveStep, sameWorker, connecting, resume] at ran
    obtain ⟨s', dialed, rfl, fresh⟩ := dialled_image sound alive handling asked ran
    refine ⟨dialled ok, s', dialed, ⟨⟨sound_steps sound dialed, rfl⟩, fresh⟩, ?_⟩
    cases ok <;> rfl
  · rw [step_commutes sound a fun answer is dialing asked => dials ⟨answer, dialing, is, asked⟩] at ran
    obtain ⟨s', stepped, rfl⟩ := Option.map_eq_some_iff.mp ran
    refine ⟨[ofHttp a], s', one_step stepped, ⟨⟨sound_step sound stepped, rfl⟩, fresh_step fresh stepped⟩, ?_⟩
    rw [seen_alone, over_sockets_of_http]

/-- Over all that `getaddrinfo`, `socket` and `connect` can answer, the worker comes to what it comes to over a
connection that is made or not, with the same to be seen on the way. -/
theorem posts_over_sockets (opt : SocketOptions) (text : List ρ → Bytes) (seen : List (HttpStep ρ)) (p : HttpProcess ρ) :
    (∃ (steps : List (SocketStep ρ)) (s : SocketProcess ρ), steps.foldlM (SocketProcess.step opt text) {} = some s ∧
      toHttp s = p ∧ steps.filterMap overSockets = seen) ↔
      ∃ steps, PeerFailures.run opt.toHttpOptions text {} steps = some p ∧ steps.filterMap overPost = seen := by
  constructor
  · rintro ⟨steps, s, ran, rfl, rfl⟩
    obtain ⟨others, p, ranOthers, alike, same⟩ :=
      steps_simulated overSockets overPost alike_step steps ⟨sound_initial, rfl⟩ ran
    exact ⟨others, by rw [alike.image]; exact ranOthers, same⟩
  · rintro ⟨steps, ran, rfl⟩
    have start : Poised opt {} ({} : SocketProcess ρ) := ⟨⟨sound_initial, rfl⟩, nofun⟩
    obtain ⟨others, s, ranOthers, poised, same⟩ := steps_simulated overPost overSockets poised_step steps start ran
    exact ⟨others, s, ranOthers, poised.image, same⟩

end SlurmTracer.SocketLifetimes
