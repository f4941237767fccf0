import SlurmTracer.Core.Rings
import SlurmTracer.Lib.Transition
import SlurmTracer.ResolverProofs

/-!
Creation and use of a cgroup travel in different rings, and a poll drains them
in whatever order they became ready. An event is attributed to its cgroup in
every run in which its probe's ring is drained in time (`attributed_in_time`):
after the cgroup's CREATE, and before its id's entry is gone again.
-/
namespace SlurmTracer.CreationRace
open Lib SlurmTracer.Core Core.CgroupResolver Core.CgroupWatcher Core.Rings ResolverProofs Lib.Transition

/-- A job cgroup whose CREATE went into the watcher's ring. -/
def Counts (x : Cgroup) : Prop := x.announced = true ∧ (parseCgroupPath x.path).isSome = true

/-- The event of a counting cgroup got its attribution, and no miss. -/
def Attributed (res : Resolution) : Prop :=
  ∀ x attr, res.sample.owner = some x → x.announced = true → parseCgroupPath x.path = some attr →
    res.answer = some attr ∧ res.missed = false

/-- The watcher has just attached: nothing is in a ring, and no cgroup alive
has been announced. -/
structure Attached (w : Rings) : Prop where
  ids : (w.live.map Cgroup.id).Nodup
  before : ∀ x ∈ w.live, x.announced = false ∧ x.createdNs ≤ w.now
  watcher : w.watcherRing = []
  probes : ∀ ref, w.probeRings ref = []
  resolutions : w.resolutions = []

/-- The CREATE of `x` has not been dispatched yet. -/
def Unlearned (w : Rings) (x : Cgroup) : Prop := Note.created x ∈ w.watcherRing

/-- An event that came from `x` has not been dispatched yet. -/
def Awaited (w : Rings) (x : Cgroup) : Prop := ∃ ref, ∃ s ∈ w.probeRings ref, s.owner = some x

/-- A step that leaves every event its entry: a path keeps its attribution when
it is cut to the buffer; an event is dispatched after the CREATE of its cgroup;
and while events of a learned cgroup wait, no other job's CREATE is dispatched
under its id and no tick expires its entry. -/
def InTime (w : Rings) : RingStep → Prop
  | .mkdir _ path lost => lost = false → (parseCgroupPath path).isSome = true →
      parseCgroupPath (delivered path) = parseCgroupPath path
  | .dispatch _ _ _ =>
    match w.ready with
    | [] => True
    | .watcher :: _ => ∀ y, w.watcherRing.head? = some (.created y) →
        (parseCgroupPath (delivered y.path)).isSome = true →
        ∀ x, Awaited w x → Counts x → x.id = y.id → x ≠ y → Unlearned w x
    | .probe ref :: _ => ∀ s, (w.probeRings ref).head? = some s →
        ∀ x, s.owner = some x → Counts x → ¬ Unlearned w x
  | .tick _ => ∀ x e, Awaited w x → Counts x → ¬ Unlearned w x →
      w.resolver.entries.lookup x.id = some e → expired w.resolver.graceNs w.now e = false
  | .advance _ | .rmdir _ _ | .submit _ _ | .wake _ | .leave => True

/-! ### What the resolver knows of one cgroup -/

/-- The id's entry is the one the CREATE of `x` makes, up to its removal. -/
def Known (r : CgroupResolver) (x : Cgroup) (removedNs : UInt64) : Prop :=
  ∃ attr, parseCgroupPath x.path = some attr ∧
    r.entries.lookup x.id = some { attr, createdNs := x.createdNs, removedNs }

variable {r : CgroupResolver} {x y : Cgroup} {note : Note} {ns : UInt64}

private theorem known_created (job : (parseCgroupPath x.path).isSome = true)
    (intact : parseCgroupPath (delivered x.path) = parseCgroupPath x.path) :
    Known (onEvent r (Note.created x).event) x 0 := by
  obtain ⟨attr, parsed⟩ := Option.isSome_iff_exists.mp job
  refine ⟨attr, parsed, ?_⟩
  rw [Note.event, on_event_created, lookup_on_created, if_pos rfl, intact, parsed]

private theorem known_other (known : Known r x ns) (other : note.about.id ≠ x.id) :
    Known (onEvent r note.event) x ns := by
  obtain ⟨attr, parsed, held⟩ := known
  refine ⟨attr, parsed, ?_⟩
  cases note with
  | created y =>
    have apart : x.id ≠ y.id := Ne.symm other
    rw [Note.event, on_event_created, lookup_on_created, if_neg apart]
    exact held
  | removed y removedNs =>
    have apart : x.id ≠ y.id := Ne.symm other
    rw [Note.event, on_event_removed, lookup_on_removed, if_neg apart]
    exact held

private theorem known_removed (known : Known r x ns) (removedNs : UInt64) :
    ∃ ns', Known (onEvent r (Note.removed y removedNs).event) x ns' := by
  obtain ⟨attr, parsed, held⟩ := known
  by_cases same : x.id = y.id
  · refine ⟨if ns = 0 then removedNs else ns, attr, parsed, ?_⟩
    rw [Note.event, on_event_removed, lookup_on_removed, if_pos same, held]
    simp only [Option.map_some, Option.some.injEq]
    split <;> rfl
  · exact ⟨ns, known_other ⟨attr, parsed, held⟩ (Ne.symm same)⟩

private theorem known_ignored (known : Known r x ns) (ignored : parseCgroupPath (delivered y.path) = none) :
    Known (onEvent r (Note.created y).event) x ns := by
  obtain ⟨attr, parsed, held⟩ := known
  refine ⟨attr, parsed, ?_⟩
  rw [Note.event, on_event_created, lookup_on_created, ignored]
  simpa using held

private theorem known_tick {now : UInt64} (known : Known r x ns)
    (kept : ∀ e, r.entries.lookup x.id = some e → expired r.graceNs now e = false) :
    Known (r.tick now) x ns := by
  obtain ⟨attr, parsed, held⟩ := known
  refine ⟨attr, parsed, ?_⟩
  rw [lookup_tick, held, Option.filter_some, kept _ held]
  rfl

/-- A live cgroup is on its way to the resolver or has arrived, and nothing
else is under way under its id after it. -/
def OnTheWay (ring : List Note) (r : CgroupResolver) (x : Cgroup) : Prop :=
  (∃ earlier later, ring = earlier ++ .created x :: later ∧ ∀ n ∈ later, n.about.id ≠ x.id) ∨
    (∀ n ∈ ring, n.about.id ≠ x.id) ∧ Known r x 0

variable {ring : List Note}

private theorem on_the_way_append (way : OnTheWay ring r x) (other : note.about.id ≠ x.id) :
    OnTheWay (ring ++ [note]) r x := by
  rcases way with ⟨earlier, later, rfl, quiet⟩ | ⟨quiet, known⟩
  · refine .inl ⟨earlier, later ++ [note], by simp, ?_⟩
    simpa [or_imp, forall_and] using ⟨quiet, other⟩
  · refine .inr ⟨?_, known⟩
    simpa [or_imp, forall_and] using ⟨quiet, other⟩

private theorem on_the_way_dispatch (way : OnTheWay (note :: ring) r x)
    (job : (parseCgroupPath x.path).isSome = true)
    (intact : note = .created x → parseCgroupPath (delivered x.path) = parseCgroupPath x.path) :
    OnTheWay ring (onEvent r note.event) x := by
  rcases way with ⟨earlier, later, shape, quiet⟩ | ⟨quiet, known⟩
  · cases earlier with
    | nil =>
      rw [List.nil_append] at shape
      cases shape
      exact .inr ⟨quiet, known_created job (intact rfl)⟩
    | cons first earlier =>
      rw [List.cons_append] at shape
      cases shape
      exact .inl ⟨earlier, later, rfl, quiet⟩
  · exact .inr ⟨fun n member => quiet n (List.mem_cons_of_mem _ member),
      known_other known (quiet note List.mem_cons_self)⟩

private theorem on_the_way_tick {now : UInt64} (way : OnTheWay ring r x) : OnTheWay ring (r.tick now) x := by
  refine way.imp_right fun ⟨quiet, known⟩ => ⟨quiet, known_tick known ?_⟩
  intro e held
  obtain ⟨attr, _, held'⟩ := known
  rw [held] at held'
  cases held'
  rfl

/-! ### What a probe's event asks for -/

private theorem translate_header {e : ProbeEvent} {rec : Record} (translated : e.translate = some rec) :
    rec.cgroupId = e.hdr.cgroupId ∧ rec.tsNs = e.hdr.tsNs := by
  cases e with
  | procLifecycle e =>
    simp only [ProbeEvent.translate, ProcLifecycle.translate] at translated
    split at translated
    · cases translated
      exact ⟨rfl, rfl⟩
    · split at translated
      · cases translated
        exact ⟨rfl, rfl⟩
      · cases translated
  | oom e =>
    simp only [ProbeEvent.translate, Oom.translate] at translated
    split at translated
    · cases translated
      exact ⟨rfl, rfl⟩
    · cases translated

private theorem stamp_header (out : Emitter) (rec : Record) :
    (out.stamp rec).cgroupId = rec.cgroupId ∧ (out.stamp rec).tsNs = rec.tsNs := by
  cases out <;> exact ⟨rfl, rfl⟩

private theorem enrich_user_header (p : Pipeline) (passwd : PasswdReply) (rec : Record) :
    (p.enrichUser passwd rec).1.cgroupId = rec.cgroupId := by
  unfold Pipeline.enrichUser
  split
  · rfl
  · split <;> rfl

/-- `emit` leaves the resolver as the one lookup it makes leaves it. -/
theorem emit_resolves (p : Pipeline) (s : Surroundings) (rec : Record) :
    (p.emit s rec).2.2 = (s.resolver.resolve rec.cgroupId rec.tsNs).2 := by
  have enriched : (p.enrich s rec).2.2 = (s.resolver.resolve rec.cgroupId rec.tsNs).2 := by
    simp only [Pipeline.enrich, enrich_user_header]
    split <;> (rename_i resolves; rw [resolves])
  simp only [Pipeline.emit]
  split <;> exact enriched

/-- A probe's event is resolved by its header or not at all. -/
private theorem on_probe_event_effect (w : Rings) (out : Emitter) (bootOffsetNs : UInt64)
    (passwd : PasswdReply) (s : ProbeSample) :
    ∃ pipeline resolver resolved, w.onProbeEvent out bootOffsetNs passwd s =
        { w with pipeline, resolver, resolutions := w.resolutions ++ resolved } ∧
      resolver.entries = w.resolver.entries ∧
      ∀ res ∈ resolved, res.sample = s ∧
        res.answer = (w.resolver.resolve s.event.hdr.cgroupId s.event.hdr.tsNs).1 ∧
        res.missed =
          ((w.resolver.resolve s.event.hdr.cgroupId s.event.hdr.tsNs).2.stats.misses != w.resolver.stats.misses) := by
  unfold Rings.onProbeEvent
  cases translated : s.event.translate with
  | none => exact ⟨w.pipeline, w.resolver, [], by simp, rfl, by simp⟩
  | some rec =>
    obtain ⟨sameId, sameTs⟩ := translate_header translated
    obtain ⟨stampedId, stampedTs⟩ := stamp_header out rec
    have resolves := emit_resolves w.pipeline ⟨w.resolver, bootOffsetNs, passwd⟩ (out.stamp rec)
    rw [stampedId, stampedTs, sameId, sameTs] at resolves
    simp only [stampedId, stampedTs, sameId, sameTs]
    refine ⟨_, _, [_], rfl, by rw [resolves, resolve_entries], ?_⟩
    intro res member
    rw [List.mem_singleton] at member
    subst member
    exact ⟨rfl, rfl, by rw [resolves]⟩

/-! ### The invariant -/

/-- Every live counting cgroup is known or on its way, and every one whose
events wait in a probe's ring is still to come or known by its own entry. -/
structure Orderly (w : Rings) : Prop where
  ids : (w.live.map Cgroup.id).Nodup
  clock : ∀ x ∈ w.live, x.createdNs ≤ w.now
  intact : ∀ x, Unlearned w x → (parseCgroupPath x.path).isSome = true →
    parseCgroupPath (delivered x.path) = parseCgroupPath x.path
  stamped : ∀ ref, ∀ s ∈ w.probeRings ref, ∀ x, s.owner = some x →
    s.event.hdr.cgroupId = x.id ∧ x.createdNs ≤ s.event.hdr.tsNs
  underWay : ∀ x ∈ w.live, Counts x → OnTheWay w.watcherRing w.resolver x
  served : ∀ x, Awaited w x → Counts x → Unlearned w x ∨ ∃ ns, Known w.resolver x ns
  attributed : ∀ res ∈ w.resolutions, Attributed res

variable {w w' : Rings}

private theorem owner_some {id : UInt64} (named : w.owner id = some x) : x ∈ w.live ∧ x.id = id :=
  ⟨List.mem_of_find?_eq_some named, by simpa using List.find?_some named⟩

private theorem owner_none {id : UInt64} (free : w.owner id = none) : ∀ x ∈ w.live, x.id ≠ id := by
  simpa [Rings.owner] using free

private theorem orderly_attached (attached : Attached w) : Orderly w where
  ids := attached.ids
  clock x member := (attached.before x member).2
  intact x unlearned := by simp [Unlearned, attached.watcher] at unlearned
  stamped ref s member := by simp [attached.probes] at member
  underWay x member counts := by simp [Counts, (attached.before x member).1] at counts
  served x awaited := by simp [Awaited, attached.probes] at awaited
  attributed res member := by simp [attached.resolutions] at member

private theorem orderly_advance {later : UInt64} (inv : Orderly w) (forward : w.now ≤ later) :
    Orderly { w with now := later } :=
  { inv with clock := fun x member => UInt64.le_trans (inv.clock x member) forward }

private theorem orderly_mkdir {id : UInt64} {path : Bytes} {lost : Bool} (inv : Orderly w)
    (meets : InTime w (.mkdir id path lost)) (ran : w.step (.mkdir id path lost) = some w') : Orderly w' := by
  simp only [Rings.step] at ran
  split at ran
  · cases ran
  · rename_i free
    cases ran
    have fresh := owner_none (Option.not_isSome_iff_eq_none.mp free)
    constructor
    · simpa [List.nodup_append, inv.ids] using fresh
    · intro x member
      rcases List.mem_append.mp member with member | member
      · exact inv.clock x member
      · rw [List.mem_singleton] at member
        subst member
        exact UInt64.le_refl _
    · intro x unlearned job
      cases lost with
      | true => exact inv.intact x unlearned job
      | false =>
        rcases List.mem_append.mp unlearned with unlearned | unlearned
        · exact inv.intact x unlearned job
        · rw [List.mem_singleton] at unlearned
          cases unlearned
          exact meets rfl job
    · exact inv.stamped
    · intro x member counts
      rcases List.mem_append.mp member with old | new
      · cases lost with
        | true => exact inv.underWay x old counts
        | false => exact on_the_way_append (inv.underWay x old counts) (Ne.symm (fresh x old))
      · rw [List.mem_singleton] at new
        subst new
        cases lost with
        | true => simp [Counts] at counts
        | false => exact .inl ⟨w.watcherRing, [], rfl, by simp⟩
    · intro x awaited counts
      apply (inv.served x awaited counts).imp_left
      intro unlearned
      cases lost with
      | true => exact unlearned
      | false => exact List.mem_append_left _ unlearned
    · exact inv.attributed

private theorem orderly_rmdir {id : UInt64} {lost : Bool} (inv : Orderly w)
    (ran : w.step (.rmdir id lost) = some w') : Orderly w' := by
  simp only [Rings.step] at ran
  cases named : w.owner id with
  | none => simp [named] at ran
  | some gone =>
    simp only [named, Option.some.injEq] at ran
    subst ran
    obtain ⟨_, goneId⟩ := owner_some named
    constructor
    · exact inv.ids.sublist ((List.filter_sublist).map Cgroup.id)
    · exact fun x member => inv.clock x (List.mem_of_mem_filter member)
    · intro x unlearned job
      cases lost with
      | true => exact inv.intact x unlearned job
      | false =>
        rcases List.mem_append.mp unlearned with unlearned | unlearned
        · exact inv.intact x unlearned job
        · simp at unlearned
    · exact inv.stamped
    · intro x member counts
      obtain ⟨stays, apart⟩ := List.mem_filter.mp member
      cases lost with
      | true => exact inv.underWay x stays counts
      | false =>
        apply on_the_way_append (inv.underWay x stays counts)
        intro same
        have : x.id = id := same.symm.trans goneId
        simp [this] at apart
    · intro x awaited counts
      apply (inv.served x awaited counts).imp_left
      intro unlearned
      cases lost with
      | true => exact unlearned
      | false => exact List.mem_append_left _ unlearned
    · exact inv.attributed

private theorem orderly_submit {ref : Nat} {event : ProbeEvent} (inv : Orderly w)
    (ran : w.step (.submit ref event) = some w') : Orderly w' := by
  simp only [Rings.step] at ran
  split at ran
  · rename_i stamped
    cases ran
    have fromOwner : ∀ x, w.owner event.hdr.cgroupId = some x →
        event.hdr.cgroupId = x.id ∧ x.createdNs ≤ event.hdr.tsNs := by
      intro x named
      obtain ⟨member, sameId⟩ := owner_some named
      exact ⟨sameId.symm, stamped ▸ inv.clock x member⟩
    refine { inv with stamped := ?_, served := ?_ }
    · intro other s member x owned
      simp only [Rings.setProbeRing] at member
      split at member
      · rcases List.mem_append.mp member with member | member
        · exact inv.stamped ref s member x owned
        · rw [List.mem_singleton] at member
          subst member
          exact fromOwner x owned
      · exact inv.stamped other s member x owned
    · rintro x ⟨other, s, member, owned⟩ counts
      simp only [Rings.setProbeRing] at member
      split at member
      · rcases List.mem_append.mp member with member | member
        · exact inv.served x ⟨ref, s, member, owned⟩ counts
        · rw [List.mem_singleton] at member
          subst member
          rcases inv.underWay x (owner_some owned).1 counts with ⟨earlier, later, shape, _⟩ | ⟨_, known⟩
          · refine .inl ?_
            change Note.created x ∈ w.watcherRing
            simp [shape]
          · exact .inr ⟨0, known⟩
      · exact inv.served x ⟨other, s, member, owned⟩ counts
  · cases ran

/-- Dispatching the head of the watcher's ring. -/
private theorem orderly_note (inv : Orderly w) (head : w.watcherRing = note :: ring)
    (meets : ∀ y, note = .created y → (parseCgroupPath (delivered y.path)).isSome = true →
      ∀ x, Awaited w x → Counts x → x.id = y.id → x ≠ y → Unlearned w x) :
    Orderly { w with watcherRing := ring, resolver := onEvent w.resolver note.event } := by
  have intactHead : ∀ x, note = .created x → (parseCgroupPath x.path).isSome = true →
      parseCgroupPath (delivered x.path) = parseCgroupPath x.path := by
    intro x isHead job
    exact inv.intact x (by simp [Unlearned, head, isHead]) job
  refine { inv with intact := ?_, underWay := ?_, served := ?_ }
  · intro x unlearned job
    refine inv.intact x ?_ job
    simp only [Unlearned, head]
    exact List.mem_cons_of_mem _ unlearned
  · intro x member counts
    exact on_the_way_dispatch (head ▸ inv.underWay x member counts) counts.2 fun isHead =>
      intactHead x isHead counts.2
  · intro x awaited counts
    have before := inv.served x awaited counts
    simp only [Unlearned, head, List.mem_cons] at before meets
    change Note.created x ∈ ring ∨ ∃ ns, Known (onEvent w.resolver note.event) x ns
    rcases before with (isHead | later) | ⟨ns, known⟩
    · subst isHead
      exact .inr ⟨0, known_created counts.2 (intactHead x rfl counts.2)⟩
    · exact .inl later
    · cases note with
      | removed y removedNs => exact .inr (known_removed known removedNs)
      | created y =>
        by_cases same : x.id = y.id
        · by_cases itself : x = y
          · subst itself
            exact .inr ⟨0, known_created counts.2 (intactHead x rfl counts.2)⟩
          · cases adopted : parseCgroupPath (delivered y.path) with
            | none => exact .inr ⟨ns, known_ignored known adopted⟩
            | some attr =>
              rcases meets y rfl (by simp [adopted]) x awaited counts same itself with isHead | later
              · cases isHead
                exact absurd rfl itself
              · exact .inl later
        · exact .inr ⟨ns, known_other known (Ne.symm same)⟩

/-- The lookup made for an event of a known cgroup finds the cgroup's entry,
which is not newer than the event. -/
private theorem known_resolves {id ts : UInt64} {attr : Attribution} (known : Known r x ns) (named : id = x.id)
    (notOlder : x.createdNs ≤ ts) (parsed : parseCgroupPath x.path = some attr) :
    (r.resolve id ts).1 = some attr ∧ (r.resolve id ts).2.stats.misses = r.stats.misses := by
  obtain ⟨attr', parsed', held⟩ := known
  rw [parsed] at parsed'
  cases parsed'
  subst named
  exact ⟨resolve_some.mpr ⟨_, held, rfl, .inr notOlder⟩, resolve_misses held⟩

/-- Dispatching the head of a probe's ring. -/
private theorem orderly_sample {ref : Nat} {s : ProbeSample} {rest : List ProbeSample} {out : Emitter}
    {bootOffsetNs : UInt64} {passwd : PasswdReply} (inv : Orderly w) (head : w.probeRings ref = s :: rest)
    (meets : ∀ x, s.owner = some x → Counts x → ¬ Unlearned w x) :
    Orderly ((w.setProbeRing ref rest).onProbeEvent out bootOffsetNs passwd s) := by
  obtain ⟨pipeline, resolver, resolved, effect, sameEntries, asked⟩ :=
    on_probe_event_effect (w.setProbeRing ref rest) out bootOffsetNs passwd s
  have sameKnown : ∀ x ns, Known resolver x ns ↔ Known w.resolver x ns := by
    intro x ns
    simp only [Known, sameEntries, Rings.setProbeRing]
  have earlier : ∀ other, ∀ s' ∈ (w.setProbeRing ref rest).probeRings other, s' ∈ w.probeRings other := by
    intro other s' member
    simp only [Rings.setProbeRing] at member
    split at member
    · rename_i same
      rw [same, head]
      exact List.mem_cons_of_mem _ member
    · exact member
  have here : s ∈ w.probeRings ref := by simp [head]
  rw [effect]
  refine { inv with stamped := ?_, underWay := ?_, served := ?_, attributed := ?_ }
  · exact fun other s' member => inv.stamped other s' (earlier other s' member)
  · intro x member counts
    refine (inv.underWay x member counts).imp_right fun ⟨quiet, known⟩ => ⟨quiet, (sameKnown x 0).mpr known⟩
  · rintro x ⟨other, s', member, owned⟩ counts
    apply (inv.served x ⟨other, s', earlier other s' member, owned⟩ counts).imp_right
    exact fun ⟨ns, known⟩ => ⟨ns, (sameKnown x ns).mpr known⟩
  · intro res member
    rcases List.mem_append.mp member with member | member
    · exact inv.attributed res member
    · obtain ⟨isIts, answered, missed⟩ := asked res member
      rw [Attributed, isIts, answered, missed]
      intro x attr owned announced parsed
      have counts : Counts x := ⟨announced, by simp [parsed]⟩
      obtain ⟨ns, known⟩ := (inv.served x ⟨ref, s, here, owned⟩ counts).resolve_left (meets x owned counts)
      obtain ⟨named, notOlder⟩ := inv.stamped ref s here x owned
      obtain ⟨answer, count⟩ := known_resolves known named notOlder parsed
      exact ⟨answer, by simpa [Rings.setProbeRing] using count⟩

private theorem orderly_tick {steadyNow : Int64} (inv : Orderly w) (meets : InTime w (.tick steadyNow))
    (ran : w.step (.tick steadyNow) = some w') : Orderly w' := by
  simp only [Rings.step] at ran
  split at ran
  · cases ran
    refine { inv with underWay := ?_, served := ?_ }
    · exact fun x member counts => on_the_way_tick (inv.underWay x member counts)
    · intro x awaited counts
      by_cases unlearned : Unlearned w x
      · exact .inl unlearned
      · obtain ⟨ns, known⟩ := (inv.served x awaited counts).resolve_left unlearned
        exact .inr ⟨ns, known_tick known fun e held => meets x e awaited counts unlearned held⟩
  · cases ran

theorem orderly_step {a : RingStep} (inv : Orderly w) (meets : InTime w a) (ran : w.step a = some w') :
    Orderly w' := by
  cases a with
  | advance later =>
    simp only [Rings.step] at ran
    split at ran
    · cases ran
      exact orderly_advance inv ‹_›
    · cases ran
  | mkdir id path lost => exact orderly_mkdir inv meets ran
  | rmdir id lost => exact orderly_rmdir inv ran
  | submit ref event => exact orderly_submit inv ran
  | wake ready =>
    simp only [Rings.step] at ran
    split at ran
    · cases ran
      exact { inv with }
    · cases ran
  | dispatch out bootOffsetNs passwd =>
    simp only [Rings.step] at ran
    simp only [InTime] at meets
    split at ran <;> rename_i draining <;> simp only [draining] at meets
    · cases ran
    · split at ran
      · cases ran
      · rename_i head
        cases ran
        exact orderly_note inv head fun y isHead => meets y (by simp [head, isHead])
    · split at ran
      · cases ran
      · rename_i head
        cases ran
        exact orderly_sample inv head (meets _ (by simp [head]))
  | leave =>
    simp only [Rings.step] at ran
    split at ran
    · cases ran
    · split at ran
      · cases ran
        exact { inv with }
      · cases ran
  | tick steadyNow => exact orderly_tick inv meets ran

/-- In a run whose steps are in time, every event of a job cgroup announced to
the watcher is attributed to it, without a miss. -/
theorem attributed_in_time (reached : Runs Attached Rings.step InTime w) :
    ∀ res ∈ w.resolutions, Attributed res := by
  have inv : Orderly w := reached.invariant (fun _ => orderly_attached)
    fun _ _ _ held meets ran => orderly_step held meets ran
  exact inv.attributed

/-! ### Two interleavings -/

/-- An empty node five nanoseconds after boot. -/
def justAttached : Rings := { now := 5, resolver := {}, pipeline := .new {} [] 0 }

private theorem just_attached : Attached justAttached :=
  ⟨List.nodup_nil, by simp [justAttached], rfl, fun _ => rfl, rfl⟩

/-- An exec in a cgroup. -/
def execIn (cgroupId tsNs : UInt64) : ProbeEvent :=
  .procLifecycle ⟨{ tsNs, cgroupId, type := 1, pid := 10, tid := 10, uid := 0 }, 0, ascii "bash"⟩

def jobOne : Cgroup := { serial := 0, id := 7, path := ascii "/slurm/job_1", createdNs := 5, announced := true }

/-- The watcher's ring is drained before the job's first exec is submitted. -/
def watcherFirst : List RingStep :=
  [.mkdir 7 (ascii "/slurm/job_1") false, .wake [.watcher], .dispatch .pipeline 0 .notFound, .leave,
    .submit 0 (execIn 7 5), .wake [.probe 0], .dispatch (.instance (ascii "proc")) 0 .notFound]

/-- The rings after some of these steps. -/
def after (steps : List RingStep) : Rings := (steps.foldlM Rings.step justAttached).getD justAttached

theorem attributed_in_time_watcher_first :
    (after watcherFirst).resolutions.map (·.sample.owner) = [some jobOne] ∧
      (after watcherFirst).resolutions.Forall Attributed := by
  refine ⟨by decide, List.forall_iff_forall_mem.mpr ?_⟩
  have created : Runs Attached Rings.step InTime (after (watcherFirst.take 1)) :=
    .next (.start just_attached) (a := .mkdir 7 (ascii "/slurm/job_1") false) (fun _ _ => by decide) rfl
  have woken : Runs Attached Rings.step InTime (after (watcherFirst.take 2)) :=
    .next created (a := .wake [.watcher]) trivial rfl
  have learned : Runs Attached Rings.step InTime (after (watcherFirst.take 3)) := by
    refine .next woken (a := .dispatch .pipeline 0 .notFound) ?_ rfl
    rintro y _ _ x ⟨ref, s, waiting, _⟩
    cases waiting
  have submitted : Runs Attached Rings.step InTime (after (watcherFirst.take 5)) :=
    .next (.next learned (a := .leave) trivial rfl) (a := .submit 0 (execIn 7 5)) trivial rfl
  have woken' : Runs Attached Rings.step InTime (after (watcherFirst.take 6)) :=
    .next submitted (a := .wake [.probe 0]) trivial rfl
  refine attributed_in_time (.next woken' (a := .dispatch (.instance (ascii "proc")) 0 .notFound) ?_ rfl)
  intro s _ x _ _ unlearned
  cases unlearned

/-- A poll drains the probe's ring for some other event; the job's cgroup is
created and its first exec submitted before the ring has run empty. -/
def execOvertakes : List RingStep :=
  [.submit 0 (execIn 99 5), .wake [.probe 0], .mkdir 7 (ascii "/slurm/job_1") false, .submit 0 (execIn 7 5),
    .dispatch (.instance (ascii "proc")) 0 .notFound, .dispatch (.instance (ascii "proc")) 0 .notFound]

/-- The exec is resolved while the CREATE sits in the watcher's ring. -/
theorem exec_overtakes_create :
    ¬ ∀ w, Runs Attached Rings.step Anything w → ∀ res ∈ w.resolutions, Attributed res := by
  intro always
  have shape : (execOvertakes.foldlM Rings.step justAttached).map
      (fun w => w.resolutions.map fun res => (res.sample.owner, res.missed)) =
      some [(none, true), (some jobOne, true)] := by decide
  obtain ⟨w, ran, resolutions⟩ := Option.map_eq_some_iff.mp shape
  have listed : (some jobOne, true) ∈ w.resolutions.map fun res => (res.sample.owner, res.missed) := by
    simp [resolutions]
  obtain ⟨res, member, same⟩ := List.mem_map.mp listed
  obtain ⟨owned, missed⟩ := Prod.mk.inj same
  have attributed := always w (Runs.steps (.start just_attached) execOvertakes ran) res member
  have hit := (attributed jobOne { jobId := 1 } owned rfl (by decide)).2
  rw [missed] at hit
  cases hit

end SlurmTracer.CreationRace
