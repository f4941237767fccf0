import Mathlib.Algebra.Group.Int.Defs
import SlurmTracer.Core.Config
import SlurmTracer.Core.Endpoint
import SlurmTracer.Core.Sink
import SlurmTracer.Lib.Search

/-! `sinks/http/sink.cpp`: one `post` over a socket whose calls answer as they
like, and the process it runs in. The code between two system calls is one
step, so `post` is known by the call it waits for. -/
namespace SlurmTracer.Core
open Lib Lib.Search

/-! ### Text -/

def crlf : Bytes := [13, 10]

/-- The end of a header block. -/
def headEnd : Bytes := [13, 10, 13, 10]

/-- `lower`. -/
def lower (s : Bytes) : Bytes := s.map toLower

/-- `isspace` in the C locale. -/
def isSpace (c : UInt8) : Bool := c = 32 || (9 ≤ c && c ≤ 13)

/-- The sign and the digits `strtoul` and `strtol` read from the front of a text. -/
def signedDigits (text : Bytes) : Bool × Bytes :=
  match text.dropWhile isSpace with
  | 45 :: rest => (true, rest.takeWhile isDigit)
  | 43 :: rest => (false, rest.takeWhile isDigit)
  | rest => (false, rest.takeWhile isDigit)

/-- What `strtoul` returns for any text: `ULONG_MAX` past the range, and a
negated number wrapped into it. -/
def strtoulValue (text : Bytes) : Nat :=
  let (negative, digits) := signedDigits text
  match strtoul digits with
  | none => 2 ^ 64 - 1
  | some value => if negative then (2 ^ 64 - value) % 2 ^ 64 else value

/-- `atoi`: `strtol` cut to an `int`. -/
def atoi (text : Bytes) : Int :=
  let (negative, digits) := signedDigits text
  let value : Int := if negative then -digitsValue digits else digitsValue digits
  (max (-2 ^ 63) (min (2 ^ 63 - 1) value)).bmod (2 ^ 32)

/-- `parse_status_code`. -/
def parseStatusCode (statusLine : Bytes) : Int :=
  match statusLine.dropWhile (· ≠ 32) with
  | [] => 0
  | _ :: rest => atoi (rest.takeWhile (· ≠ 32))

/-- `header_value`. -/
def headerValue (headersLower nameLower : Bytes) : Bytes :=
  match find (nameLower ++ ascii ":") headersLower with
  | none => []
  | some pos =>
    let value := (headersLower.drop (pos + nameLower.length + 1)).dropWhile (· = 32)
    match find crlf value with
    | none => value
    | some length => value.take length

/-! ### One post -/

/-- What of `HttpSink::Options` the request and the queue use. -/
structure HttpOptions where
  host : Bytes
  path : Bytes := ascii "/"
  maxQueuedBatches : UInt64 := 1024
  deriving DecidableEq

/-- The options a registered sink has of its endpoint. -/
def HttpEndpoint.options (e : HttpEndpoint) (maxQueuedBatches : UInt64) : HttpOptions :=
  { host := e.host, path := e.path, maxQueuedBatches }

/-- The request `post` sends. -/
def request (opt : HttpOptions) (body : Bytes) : Bytes :=
  ascii "POST " ++ opt.path ++ ascii " HTTP/1.1" ++ crlf ++
    ascii "Host: " ++ opt.host ++ crlf ++
    ascii "Content-Type: application/x-ndjson" ++ crlf ++
    ascii "Content-Length: " ++ toDecimal body.length ++ crlf ++
    ascii "Connection: keep-alive" ++ headEnd ++ body

inductive Errno where
  /-- `EINTR`. -/
  | interrupted
  /-- `EPIPE`. -/
  | brokenPipe
  | other
  deriving DecidableEq

/-- What a system call of `post` comes back with. -/
inductive Answer where
  /-- Whether one of the host's addresses took the connection. -/
  | connected (ok : Bool)
  | sent (count : Nat)
  | sendFailed (errno : Errno)
  /-- The bytes read; none when the peer has closed. -/
  | received (bytes : Bytes)
  | recvFailed (errno : Errno)
  deriving DecidableEq

/-- The call `post` waits in. -/
inductive Posting where
  | connecting
  /-- In `write_all`, with the bytes not taken yet. -/
  | sending (unsent : Bytes)
  | readingHead (buf : Bytes)
  /-- Between `have` and `want` bytes of the body. -/
  | readingBody (ok closeAfter : Bool) (had want : Nat)
  deriving DecidableEq

/-- What `post` does next: another call, or it returns `ok` with the
connection open or closed. -/
inductive Posted where
  | calls (next : Posting)
  | returned (ok connected : Bool)
  deriving DecidableEq

def chunkSize : Nat := 4096

/-- The loop that drains the body. -/
def drain (ok closeAfter : Bool) (had want : Nat) : Posted :=
  if had < want then .calls (.readingBody ok closeAfter had want) else .returned ok (!closeAfter)

/-- `post` once the header block ends at `headerEnd` of `buf`. -/
def frame (buf : Bytes) (headerEnd : Nat) : Posted :=
  let statusLine := buf.take ((find crlf buf).getD buf.length)
  let status := parseStatusCode statusLine
  let ok := decide (200 ≤ status) && decide (status < 300)
  let headersLower := lower (buf.take headerEnd)
  let chunked := (find (ascii "transfer-encoding: chunked") headersLower).isSome
  let contentLength := headerValue headersLower (ascii "content-length")
  let closeAfter := (find (ascii "connection: close") headersLower).isSome
  if chunked then .returned ok false
  else if contentLength ≠ [] then
    drain ok closeAfter (buf.length - (headerEnd + 4)) (strtoulValue contentLength)
  else .returned ok (!closeAfter)

/-- One turn of the loop that reads the header block. -/
def readHead (buf chunk : Bytes) : Posted :=
  let buf := buf ++ chunk
  match find headEnd buf with
  | some headerEnd => frame buf headerEnd
  | none => if buf.length > 64 * 1024 then .returned false false else .calls (.readingHead buf)

/-- `post` up to its first call, on a connection that is open or not. -/
def enterPost (opt : HttpOptions) (body : Bytes) (connected : Bool) : Posting :=
  if connected then .sending (request opt body) else .connecting

/-- `post` from one call to the next. `none` is an answer to another call. -/
def resume (opt : HttpOptions) (body : Bytes) : Posting → Answer → Option Posted
  | .connecting, .connected ok => some (if ok then .calls (.sending (request opt body)) else .returned false false)
  | .sending unsent, .sent count =>
    if count > unsent.length then none
    else if count = 0 then some (.returned false false)
    else if count < unsent.length then some (.calls (.sending (unsent.drop count)))
    else some (.calls (.readingHead []))
  | .sending unsent, .sendFailed errno =>
    some (if errno = .interrupted then .calls (.sending unsent) else .returned false false)
  | .readingHead buf, .received chunk =>
    if chunk.length > chunkSize then none
    else some (if chunk = [] then .returned false false else readHead buf chunk)
  | .readingHead _, .recvFailed _ => some (.returned false false)
  | .readingBody ok closeAfter had want, .received chunk =>
    if chunk.length > chunkSize then none
    else some (if chunk = [] then .returned ok false else drain ok closeAfter (had + chunk.length) want)
  | .readingBody ok _ _ _, .recvFailed _ => some (.returned ok false)
  | _, _ => none

/-- `post` over the answers to come, and the answers it leaves. -/
def post (opt : HttpOptions) (body : Bytes) : Posting → List Answer → Option (Posted × List Answer)
  | waiting, [] => some (.calls waiting, [])
  | waiting, answer :: answers =>
    match resume opt body waiting answer with
    | none => none
    | some (.calls next) => post opt body next answers
    | some (.returned ok connected) => some (.returned ok connected, answers)

/-! ### The process -/

inductive Signal where
  | sigint | sigterm | sighup | sigpipe
  deriving DecidableEq

/-- The handlers `main` installs. -/
def handled : Signal → Bool
  | .sigint | .sigterm | .sighup => true
  | .sigpipe => false

/-- The flags `write_all` passes to `send`. -/
def sendFlags : Nat := 0

def msgNoSignal : Nat := 0x4000

/-- The signal a failing call raises. -/
def raised : Answer → Option Signal
  | .sendFailed .brokenPipe => if sendFlags &&& msgNoSignal = 0 then some .sigpipe else none
  | _ => none

/-- The default action of each of these signals ends the process. -/
def terminates (answer : Answer) : Bool :=
  match raised answer with
  | none => false
  | some signal => !handled signal

/-- An `HttpSink` and the process around it. -/
structure HttpProcess (ρ : Type) extends QueueSink ρ where
  /-- Whether `fd_` is open between two posts. -/
  connected : Bool := false
  /-- The call the worker waits in, while it posts. -/
  posting : Option Posting := none
  terminated : Bool := false

/-- One step of the caller, the worker or the destructor. -/
inductive HttpStep (ρ : Type) where
  | write (batch : List ρ)
  | pop
  | answer (answer : Answer)
  | finish
  | stop
  | exit

namespace HttpProcess
variable {ρ : Type}

/-- A step of the queue. -/
def queueStep (opt : HttpOptions) (s : HttpProcess ρ) (a : SinkStep ρ) : Option (HttpProcess ρ) :=
  (HttpSink.step opt.maxQueuedBatches s.toQueueSink a).map fun sink => { s with toQueueSink := sink }

/-- `post` has returned: `run` tries once more over a fresh connection, or is
done with the batch. -/
def returned (opt : HttpOptions) (s : HttpProcess ρ) (ok connected : Bool) : Option (HttpProcess ρ) :=
  (s.queueStep opt (.attempt ok)).map fun s =>
    match s.worker with
    | .handling _ _ => { s with posting := some .connecting, connected := false }
    | _ => { s with posting := none, connected }

/-- The steps of a process that runs. `text` is what the worker makes of a
batch. -/
def aliveStep (opt : HttpOptions) (text : List ρ → Bytes) (s : HttpProcess ρ) : HttpStep ρ → Option (HttpProcess ρ)
  | .write batch => s.queueStep opt (.write batch)
  | .pop => (s.queueStep opt .pop).map fun s =>
    match s.worker with
    | .handling batch _ => { s with posting := some (enterPost opt (text batch) s.connected) }
    | _ => s
  | .answer answer =>
    match s.worker, s.posting with
    | .handling batch _, some waiting =>
      match resume opt (text batch) waiting answer with
      | none => none
      | some next =>
        if terminates answer then some { s with terminated := true }
        else match next with
        | .calls next => some { s with posting := some next, connected := true }
        | .returned ok connected => s.returned opt ok connected
    | _, _ => none
  | .finish => s.queueStep opt .finish
  | .stop => s.queueStep opt .stop
  | .exit => (s.queueStep opt .exit).map fun s => { s with connected := false }

def step (opt : HttpOptions) (text : List ρ → Bytes) (s : HttpProcess ρ) (a : HttpStep ρ) :
    Option (HttpProcess ρ) :=
  if s.terminated then none else s.aliveStep opt text a

end HttpProcess

end SlurmTracer.Core
