/-! Runs of a transition system whose steps all meet a condition. -/
namespace SlurmTracer.Lib.Transition

universe u v w

variable {σ : Type u} {α : Type v} {init : σ → Prop} {step : σ → α → Option σ} {ok ok' : σ → α → Prop}

/-- The states reached by runs in which every step meets `ok` in the state it
starts from. -/
inductive Runs (init : σ → Prop) (step : σ → α → Option σ) (ok : σ → α → Prop) : σ → Prop where
  | start {s : σ} (began : init s) : Runs init step ok s
  | next {s s' : σ} {a : α} (before : Runs init step ok s) (meets : ok s a) (ran : step s a = some s') :
      Runs init step ok s'

/-- The condition every step meets. -/
def Anything : σ → α → Prop := fun _ _ => True

/-- What holds at the start and survives every step that meets the condition
holds all along. -/
theorem Runs.invariant {Inv : σ → Prop} (base : ∀ s, init s → Inv s)
    (preserved : ∀ s a s', Inv s → ok s a → step s a = some s' → Inv s') {s : σ}
    (reached : Runs init step ok s) : Inv s := by
  induction reached with
  | start began => exact base _ began
  | next _ meets ran held => exact preserved _ _ _ held meets ran

/-- A stricter condition leaves fewer runs. -/
theorem Runs.mono (weaker : ∀ s a, ok s a → ok' s a) {s : σ} (reached : Runs init step ok s) :
    Runs init step ok' s := by
  induction reached with
  | start began => exact .start began
  | next _ meets ran before => exact .next before (weaker _ _ meets) ran

/-- Steps taken one after another that meet the condition in any state. -/
theorem Runs.along {s s' : σ} (reached : Runs init step ok s) (actions : List α)
    (meets : ∀ a ∈ actions, ∀ s, ok s a) (ran : actions.foldlM step s = some s') : Runs init step ok s' := by
  induction actions generalizing s with
  | nil =>
    cases ran
    exact reached
  | cons a actions ih =>
    rw [List.foldlM_cons, Option.bind_eq_bind, Option.bind_eq_some_iff] at ran
    obtain ⟨mid, first, rest⟩ := ran
    refine ih (reached.next (meets a List.mem_cons_self s) first) ?_ rest
    exact fun later member => meets later (List.mem_cons_of_mem _ member)

theorem Runs.steps {s s' : σ} (reached : Runs init step Anything s) (actions : List α)
    (ran : actions.foldlM step s = some s') : Runs init step Anything s' :=
  reached.along actions (fun _ _ _ => trivial) ran

/-- What the steps of a run say, one after another. -/
def gathered {β : Type w} (step : σ → α → Option σ) (tells : σ → α → List β) : σ → List α → List β
  | _, [] => []
  | s, a :: actions => tells s a ++ match step s a with
    | none => []
    | some s' => gathered step tells s' actions

/-- What each step keeps in agreement with what it says, a run keeps in
agreement with all that was said. -/
theorem gathered_agrees {β : Type w} {tells : σ → α → List β} {R : List β → σ → Prop}
    (each : ∀ {said s a s'}, R said s → step s a = some s' → R (said ++ tells s a) s') (actions : List α)
    {said : List β} {s s' : σ} (held : R said s) (ran : actions.foldlM step s = some s') :
    R (said ++ gathered step tells s actions) s' := by
  induction actions generalizing s said with
  | nil =>
    cases ran
    rwa [gathered, List.append_nil]
  | cons a actions ih =>
    rw [List.foldlM_cons, Option.bind_eq_bind, Option.bind_eq_some_iff] at ran
    obtain ⟨mid, first, rest⟩ := ran
    have later := ih (each held first) rest
    rw [List.append_assoc] at later
    simpa only [gathered, first] using later

/-- What each step relates, steps taken one after another relate. -/
theorem steps_related {R : σ → σ → Prop} (refl : ∀ s, R s s) (trans : ∀ {a b c}, R a b → R b c → R a c)
    (actions : List α) (each : ∀ a ∈ actions, ∀ {s s'}, step s a = some s' → R s s') {s s' : σ}
    (ran : actions.foldlM step s = some s') : R s s' := by
  induction actions generalizing s with
  | nil =>
    cases ran
    exact refl _
  | cons a actions ih =>
    obtain ⟨first, later⟩ := List.forall_mem_cons.mp each
    rw [List.foldlM_cons, Option.bind_eq_bind, Option.bind_eq_some_iff] at ran
    obtain ⟨mid, stepped, rest⟩ := ran
    exact trans (first stepped) (ih later rest)

/-- A machine whose every step is some steps of another, with the same to be
seen of them, does over a run what the other can do. -/
theorem steps_simulated {τ : Type u} {β γ : Type v} {step' : τ → β → Option τ} {R : σ → τ → Prop}
    (seen : α → Option γ) (seen' : β → Option γ)
    (each : ∀ {s t a s'}, R s t → step s a = some s' →
      ∃ (others : List β) (t' : τ),
        others.foldlM step' t = some t' ∧ R s' t' ∧ others.filterMap seen' = (seen a).toList)
    (actions : List α) {s s' : σ} {t : τ} (related : R s t) (ran : actions.foldlM step s = some s') :
    ∃ (others : List β) (t' : τ),
      others.foldlM step' t = some t' ∧ R s' t' ∧ others.filterMap seen' = actions.filterMap seen := by
  induction actions generalizing s t with
  | nil =>
    cases ran
    exact ⟨[], t, rfl, related, rfl⟩
  | cons a actions ih =>
    rw [List.foldlM_cons, Option.bind_eq_bind, Option.bind_eq_some_iff] at ran
    obtain ⟨mid, first, rest⟩ := ran
    obtain ⟨before, t', ranBefore, related, seenBefore⟩ := each related first
    obtain ⟨after, t'', ranAfter, related, seenAfter⟩ := ih related rest
    refine ⟨before ++ after, t'', ?_, related, ?_⟩
    · rw [List.foldlM_append, ranBefore]
      exact ranAfter
    · rw [List.filterMap_append, seenBefore, seenAfter, ← List.singleton_append, List.filterMap_append]
      cases shown : seen a <;> simp [shown]

end SlurmTracer.Lib.Transition
