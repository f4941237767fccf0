import SlurmTracer.Lib.Bytes

/-! `event_loop.cpp`: the bindings of the polled components and the one
`ring_buffer` libbpf multiplexes them onto. -/
namespace SlurmTracer.Core
open Lib

/-- The address of a component with a ring: the watcher's, or a probe's. -/
inductive ProbePtr where
  | watcher
  | probe (ref : Nat)
  deriving DecidableEq

/-- Where a component's records go: the pipeline itself, or an
`InstanceEmitter` with the instance's id. -/
inductive Emitter where
  | pipeline
  | instance (id : Bytes)
  deriving DecidableEq

/-- `EventLoop::Binding`, with its heap address. -/
structure Binding where
  addr : Nat
  probe : ProbePtr
  out : Emitter
  deriving DecidableEq

/-- One ring inside libbpf's `ring_buffer`: whose ring, and the context
pointer handed over with it. -/
structure ArmedRing where
  probe : ProbePtr
  ctx : Nat
  deriving DecidableEq

structure EventLoop where
  /-- `rb_`; `none` is the null pointer. -/
  rb : Option (List ArmedRing) := none
  bindings : List Binding := []
  /-- The next address the allocator hands out. -/
  nextAddr : Nat := 0

namespace EventLoop

/-- `rb_ == nullptr ? ring_buffer__new(..) : ring_buffer__add(..)`, where `ok`
is what libbpf answers. A failed add leaves the other rings armed. -/
def arm (rb : Option (List ArmedRing)) (b : Binding) (ok : Bool) : Option (List ArmedRing) :=
  if ok then
    match rb with
    | none => some [⟨b.probe, b.addr⟩]
    | some rings => some (rings ++ [⟨b.probe, b.addr⟩])
  else rb

/-- `add`. A failed arming frees the binding again. -/
def add (l : EventLoop) (probe : ProbePtr) (out : Emitter) (offersRing ok : Bool) : Bool × EventLoop :=
  if !offersRing then (true, l)
  else
    let b : Binding := ⟨l.nextAddr, probe, out⟩
    let rb := arm l.rb b ok
    if !ok then (false, { l with rb })
    else (true, { rb, bindings := l.bindings ++ [b], nextAddr := l.nextAddr + 1 })

/-- The rebuilding loop of `remove`. -/
structure Rebuild where
  rb : Option (List ArmedRing) := none
  surviving : List Binding := []
  dropped : List ProbePtr := []

def rearmOne (rearm : ProbePtr → Bool) (s : Rebuild) (b : Binding) : Rebuild :=
  let ok := rearm b.probe
  let s := { s with rb := arm s.rb b ok }
  if ok then { s with surviving := s.surviving ++ [b] } else { s with dropped := s.dropped ++ [b.probe] }

/-- `remove`: frees the shared `ring_buffer` and re-arms every other binding.
`rearm` is what libbpf answers for each of them. -/
def remove (l : EventLoop) (probe : ProbePtr) (rearm : ProbePtr → Bool) : List ProbePtr × EventLoop :=
  match l.bindings.find? (·.probe = probe) with
  | none => ([], l)
  | some _ =>
    let bindings := l.bindings.eraseP (·.probe = probe)
    if bindings = [] then ([], { l with rb := none, bindings := [] })
    else
      let s := bindings.foldl (rearmOne rearm) {}
      (s.dropped, { l with rb := s.rb, bindings := s.surviving })

end EventLoop

end SlurmTracer.Core
