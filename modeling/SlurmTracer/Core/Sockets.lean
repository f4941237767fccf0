import SlurmTracer.Core.Http

/-! The sockets under `post`: `ensure_connected` with its loop over the host's
addresses, `close_connection`, and the system calls they make, with the code
between two calls that can block in one step. -/
namespace SlurmTracer.Core
open Lib

/-- `addrinfo`, less the link to the next one. -/
structure AddrInfo where
  family : Nat
  socktype : Nat
  protocol : Nat
  addr : Bytes
  deriving DecidableEq

/-- `timeval`. -/
structure TimeVal where
  sec : Int64
  usec : Int64
  deriving DecidableEq

inductive SocketOption where
  | rcvTimeo | sndTimeo
  deriving DecidableEq

/-- A system call of the worker, with what came of it. -/
inductive SysCall where
  | getaddrinfo (host port : Bytes) (found : Option (List AddrInfo))
  | freeaddrinfo
  | socket (address : AddrInfo) (fd : Option Nat)
  | setsockopt (fd : Nat) (option : SocketOption) (tv : TimeVal)
  | connect (fd : Nat) (address : AddrInfo) (ok : Bool)
  | send (fd : Nat) (data : Bytes) (answer : Answer)
  | recv (fd : Nat) (answer : Answer)
  | close (fd : Nat)
  deriving DecidableEq

/-- `HttpSink::Options`, with what only `ensure_connected` uses. -/
structure SocketOptions extends HttpOptions where
  port : UInt16 := 80
  /-- Milliseconds. -/
  timeout : Int64 := 5000
  deriving DecidableEq

/-- The `timeval` of `ensure_connected`. -/
def SocketOptions.tv (opt : SocketOptions) : TimeVal := ⟨opt.timeout / 1000, opt.timeout % 1000 * 1000⟩

/-- The call `ensure_connected` waits in. -/
inductive Dialing where
  | resolving
  /-- In `socket`, for the first of these addresses. -/
  | opening (address : AddrInfo) (rest : List AddrInfo)
  | connecting (fd : Nat) (address : AddrInfo) (rest : List AddrInfo)
  deriving DecidableEq

/-- What a call of the worker comes back with. -/
inductive SocketAnswer where
  | resolved (found : Option (List AddrInfo))
  | opened (fd : Option Nat)
  | connected (ok : Bool)
  | answer (answer : Answer)
  deriving DecidableEq

/-- What `ensure_connected` does next: another call, or it returns, with the
descriptor of a connection or without. -/
inductive Dialed where
  | calls (next : Dialing)
  | returned (fd : Option Nat)
  deriving DecidableEq

/-- The loop over the addresses, from where it comes to the next one. -/
def nextAddress : List AddrInfo → List SysCall × Dialed
  | [] => ([.freeaddrinfo], .returned none)
  | address :: rest => ([], .calls (.opening address rest))

/-- `ensure_connected` from one call to the next. The results of `setsockopt`
and `close` are not looked at. `none` is an answer to another call. -/
def ensureConnected (opt : SocketOptions) : Dialing → SocketAnswer → Option (List SysCall × Dialed)
  | .resolving, .resolved found =>
    let call := SysCall.getaddrinfo opt.host (toDecimal opt.port.toNat) found
    match found with
    | none => some ([call], .returned none)
    | some result =>
      let (calls, next) := nextAddress result
      some (call :: calls, next)
  | .opening address rest, .opened none =>
    let (calls, next) := nextAddress rest
    some (.socket address none :: calls, next)
  | .opening address rest, .opened (some fd) =>
    some ([.socket address (some fd), .setsockopt fd .rcvTimeo opt.tv, .setsockopt fd .sndTimeo opt.tv],
      .calls (.connecting fd address rest))
  | .connecting fd address _, .connected true => some ([.connect fd address true, .freeaddrinfo], .returned (some fd))
  | .connecting fd address rest, .connected false =>
    let (calls, next) := nextAddress rest
    some (.connect fd address false :: .close fd :: calls, next)
  | _, _ => none

/-- The call the worker waits in. -/
inductive SocketWaiting where
  | dialing (dialing : Dialing)
  | posting (posting : Posting)
  deriving DecidableEq

/-- The call on the connection that this answers. -/
def postCall (fd : Nat) (posting : Posting) (answer : Answer) : SysCall :=
  match posting with
  | .sending unsent => .send fd unsent answer
  | .connecting | .readingHead _ | .readingBody _ _ _ _ => .recv fd answer

/-- An `HttpSink` with its descriptor, and the calls it has made. -/
structure SocketProcess (ρ : Type) extends QueueSink ρ where
  /-- `fd_`, unless it is negative. -/
  fd : Option Nat := none
  waiting : Option SocketWaiting := none
  calls : List SysCall := []
  terminated : Bool := false

/-- One step of the caller, the worker or the destructor. -/
inductive SocketStep (ρ : Type) where
  | write (batch : List ρ)
  | pop
  | answer (answer : SocketAnswer)
  | finish
  | stop
  | exit

namespace SocketProcess
variable {ρ : Type}

def queueStep (opt : SocketOptions) (s : SocketProcess ρ) (a : SinkStep ρ) : Option (SocketProcess ρ) :=
  (HttpSink.step opt.maxQueuedBatches s.toQueueSink a).map fun sink => { s with toQueueSink := sink }

/-- `close_connection`. -/
def closeConnection (s : SocketProcess ρ) : SocketProcess ρ :=
  match s.fd with
  | none => s
  | some fd => { s with fd := none, calls := s.calls ++ [.close fd] }

/-- `post` is entered: `ensure_connected` returns at once on an open
connection. -/
def enterPost (opt : SocketOptions) (body : Bytes) (s : SocketProcess ρ) : SocketProcess ρ :=
  match s.fd with
  | some _ => { s with waiting := some (.posting (.sending (request opt.toHttpOptions body))) }
  | none => { s with waiting := some (.dialing .resolving) }

/-- `post` has returned to `run`. -/
def returned (opt : SocketOptions) (text : List ρ → Bytes) (s : SocketProcess ρ) (ok : Bool) : Option (SocketProcess ρ) :=
  (s.queueStep opt (.attempt ok)).map fun s =>
    match s.worker with
    | .handling batch _ => s.closeConnection.enterPost opt (text batch)
    | _ => { s with waiting := none }

/-- An answer to the call the worker waits in. -/
def answered (opt : SocketOptions) (text : List ρ → Bytes) (s : SocketProcess ρ) (batch : List ρ) :
    SocketWaiting → SocketAnswer → Option (SocketProcess ρ)
  | .dialing dialing, answer =>
    match ensureConnected opt dialing answer with
    | none => none
    | some (calls, .calls next) => some { s with calls := s.calls ++ calls, waiting := some (.dialing next) }
    | some (calls, .returned none) => { s with calls := s.calls ++ calls }.returned opt text false
    | some (calls, .returned (some fd)) => some { s with
        calls := s.calls ++ calls, fd := some fd
        waiting := some (.posting (.sending (request opt.toHttpOptions (text batch)))) }
  | .posting posting, .answer answer =>
    match s.fd, resume opt.toHttpOptions (text batch) posting answer with
    | some fd, some next =>
      let s := { s with calls := s.calls ++ [postCall fd posting answer] }
      if terminates answer then some { s with terminated := true }
      else match next with
      | .calls next => some { s with waiting := some (.posting next) }
      | .returned ok connected => (if connected then s else s.closeConnection).returned opt text ok
    | _, _ => none
  | _, _ => none

/-- The steps of a process that runs. -/
def aliveStep (opt : SocketOptions) (text : List ρ → Bytes) (s : SocketProcess ρ) :
    SocketStep ρ → Option (SocketProcess ρ)
  | .write batch => s.queueStep opt (.write batch)
  | .pop => (s.queueStep opt .pop).map fun s =>
    match s.worker with
    | .handling batch _ => s.enterPost opt (text batch)
    | _ => s
  | .answer answer =>
    match s.worker, s.waiting with
    | .handling batch _, some waiting => s.answered opt text batch waiting answer
    | _, _ => none
  | .finish => s.queueStep opt .finish
  | .stop => s.queueStep opt .stop
  | .exit => (s.queueStep opt .exit).map closeConnection

def step (opt : SocketOptions) (text : List ρ → Bytes) (s : SocketProcess ρ) (a : SocketStep ρ) :
    Option (SocketProcess ρ) :=
  if s.terminated then none else s.aliveStep opt text a

end SocketProcess

end SlurmTracer.Core
