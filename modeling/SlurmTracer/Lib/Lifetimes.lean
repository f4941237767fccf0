import Mathlib.Data.List.Nodup
import Mathlib.Data.List.Perm.Basic

/-! Handles, and things made from them. A handle is opened once, used while it
is open, and closed once, when nothing made from it is left. -/
namespace SlurmTracer.Lib.Lifetimes

variable {H U : Type}

/-- One event in the life of a handle. -/
inductive LifeEvent (H U : Type) where
  | opened (h : H)
  | closed (h : H)
  /-- Something of kind `u` comes to be that runs code behind the handle. -/
  | made (u : U) (h : H)
  | gone (u : U) (h : H)

/-- The handles that are open, and what lives of them. -/
structure World (H U : Type) where
  opened : List H := []
  alive : List (U × H) := []

/-- These handles are open, no others, and each has one thing of kind `u`. -/
structure Holds (u : U) (w : World H U) (hs : List H) : Prop where
  opened : w.opened.Perm hs
  alive : w.alive.Perm (hs.map (u, ·))
  distinct : hs.Nodup

variable {u r : U} {w : World H U} {hs hs' : List H} {h : H}

theorem holds_empty : Holds u ({} : World H U) [] := ⟨.nil, .nil, List.nodup_nil⟩

theorem Holds.perm (holds : Holds u w hs) (same : hs.Perm hs') : Holds u w hs' :=
  ⟨holds.opened.trans same, holds.alive.trans (same.map _), same.nodup_iff.mp holds.distinct⟩

private theorem Holds.unopened (holds : Holds u w hs) (fresh : h ∉ hs) : h ∉ w.opened :=
  fun member => fresh (holds.opened.subset member)

private theorem Holds.unused (holds : Holds u w hs) (fresh : h ∉ hs) : h ∉ w.alive.map Prod.snd := by
  intro member
  have used := (holds.alive.map Prod.snd).subset member
  rw [List.map_map] at used
  exact fresh (by simpa using used)

variable [DecidableEq H] [DecidableEq U]

/-- `none` is a use of a handle outside its life. -/
def World.step (w : World H U) : LifeEvent H U → Option (World H U)
  | .opened h => if h ∈ w.opened then none else some { w with opened := h :: w.opened }
  | .closed h =>
    if h ∈ w.opened ∧ h ∉ w.alive.map Prod.snd then some { w with opened := w.opened.erase h } else none
  | .made u h => if h ∈ w.opened then some { w with alive := (u, h) :: w.alive } else none
  | .gone u h =>
    if h ∈ w.opened ∧ (u, h) ∈ w.alive then some { w with alive := w.alive.erase (u, h) } else none

def replay (w : World H U) (events : List (LifeEvent H U)) : Option (World H U) := events.foldlM World.step w

theorem replay_append {mid : World H U} {events events' : List (LifeEvent H U)}
    (first : replay w events = some mid) : replay w (events ++ events') = replay mid events' := by
  rw [replay, List.foldlM_append, ← replay, first]
  rfl

/-- A fresh handle is opened and something made from it, by way of something
of kind `r`. -/
theorem Holds.comes (holds : Holds u w hs) (fresh : h ∉ hs) (r : U) :
    ∃ w', replay w [.opened h, .made r h, .made u h, .gone r h] = some w' ∧ Holds u w' (h :: hs) := by
  have passing : ((u, h) :: (r, h) :: w.alive).erase (r, h) = (u, h) :: w.alive := by
    by_cases same : u = r
    · rw [same, List.erase_cons_head]
    · rw [List.erase_cons_tail (by simpa using same), List.erase_cons_head]
  refine ⟨{ opened := h :: w.opened, alive := (u, h) :: w.alive }, ?_, ?_⟩
  · simp [replay, World.step, holds.unopened fresh, passing]
  · exact ⟨holds.opened.cons h, holds.alive.cons (u, h), List.nodup_cons.mpr ⟨fresh, holds.distinct⟩⟩

/-- A fresh handle is opened and found useless at once. -/
theorem Holds.useless (holds : Holds u w hs) (fresh : h ∉ hs) :
    ∃ w', replay w [.opened h, .closed h] = some w' ∧ Holds u w' hs := by
  refine ⟨w, ?_, holds⟩
  simp [replay, World.step, holds.unopened fresh, holds.unused fresh]

/-- A fresh handle is opened, and what was made from it comes to nothing. -/
theorem Holds.fruitless (holds : Holds u w hs) (fresh : h ∉ hs) (r : U) :
    ∃ w', replay w [.opened h, .made r h, .gone r h, .closed h] = some w' ∧ Holds u w' hs := by
  refine ⟨w, ?_, holds⟩
  simp [replay, World.step, holds.unopened fresh, holds.unused fresh]

/-- What lives of a handle goes, and the handle after it. -/
theorem Holds.leaves (holds : Holds u w hs) (member : h ∈ hs) :
    ∃ w', replay w [.gone u h, .closed h] = some w' ∧ Holds u w' (hs.erase h) := by
  have isOpen : h ∈ w.opened := holds.opened.symm.subset member
  have isAlive : (u, h) ∈ w.alive := holds.alive.symm.subset (List.mem_map_of_mem member)
  have rest : (hs.map (u, ·)).erase (u, h) = (hs.erase h).map (u, ·) :=
    (List.map_erase (fun _ _ same => (Prod.mk.inj same).2) hs).symm
  have left : (w.alive.erase (u, h)).Perm ((hs.erase h).map (u, ·)) := rest ▸ holds.alive.erase (u, h)
  have noMore : h ∉ (w.alive.erase (u, h)).map Prod.snd := by
    intro still
    have used := (left.map Prod.snd).subset still
    rw [List.map_map] at used
    exact holds.distinct.not_mem_erase (by simpa using used)
  refine ⟨{ opened := w.opened.erase h, alive := w.alive.erase (u, h) }, ?_, ?_⟩
  · simp only [replay, List.foldlM_cons, World.step, isOpen, isAlive, and_self, if_true, Option.bind_eq_bind,
      Option.bind_some, noMore, not_false_eq_true, List.foldlM_nil]
    rfl
  · exact ⟨holds.opened.erase h, left, holds.distinct.erase h⟩

end SlurmTracer.Lib.Lifetimes
