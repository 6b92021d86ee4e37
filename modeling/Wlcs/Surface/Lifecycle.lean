import Wlcs.Lib.Monitor
import Wlcs.Surface.FrameCallbacks

/-!
# The life of a frame callback

`lifecycle` is what may happen to a frame callback and its function, together with the surface they belong to. It says
nothing of lists and addresses; `Ownership` shows that every run keeps to it. What a callback has been through is then
known from its stage (`count_trace`, `alive_of_invoked`).
-/

namespace Wlcs.Frames

inductive Kind
  | created
  | delivered
  | invoked
  | destroyed
  | freed
  | surfaceDestroyed
deriving DecidableEq, Repr

/-- The stages of a callback; an orphan has lost its surface. -/
inductive Life
  | unborn
  | pending
  /-- the surface goes, and the callback with it -/
  | doomed
  | doomedFreed
  | dropped
  | delivered
  | running (orphan : Bool)
  | closing (orphan : Bool)
  | finished (orphan : Bool)
deriving DecidableEq, Repr

namespace Life

def next : Life → Kind → Option Life
  | .unborn, .created => some .pending
  | .pending, .surfaceDestroyed => some .doomed
  | .doomed, .freed => some .doomedFreed
  | .doomedFreed, .destroyed => some .dropped
  | .pending, .delivered => some .delivered
  | .delivered, .invoked => some (.running false)
  | .running false, .surfaceDestroyed => some (.running true)
  | .running orphan, .destroyed => some (.closing orphan)
  | .closing orphan, .freed => some (.finished orphan)
  | .finished false, .surfaceDestroyed => some (.finished true)
  | _, _ => none

def ended : Life → Bool
  | .dropped | .finished _ => true
  | _ => false

/-- What has happened up to a stage, in some order. -/
def past : Life → List Kind
  | .unborn => []
  | .pending => [.created]
  | .doomed => [.created, .surfaceDestroyed]
  | .doomedFreed => [.created, .surfaceDestroyed, .freed]
  | .dropped => [.created, .surfaceDestroyed, .freed, .destroyed]
  | .delivered => [.created, .delivered]
  | .running orphan => [.created, .delivered, .invoked] ++ if orphan then [.surfaceDestroyed] else []
  | .closing orphan => [.created, .delivered, .invoked, .destroyed] ++ if orphan then [.surfaceDestroyed] else []
  | .finished orphan => [.created, .delivered, .invoked, .destroyed, .freed] ++ if orphan then [.surfaceDestroyed] else []

/-- A stage that a callback can be at when no code of the surface is running. -/
def lasting : Life → Bool
  | .pending | .running _ | .dropped | .finished _ => true
  | _ => false

/-- At a lasting stage the callback and its function have been released together, once if at all, and they have been
unless they are waiting for something. -/
theorem released_once {l : Life} (h : l.lasting = true) :
    l.past.count .destroyed ≤ 1 ∧ l.past.count .freed = l.past.count .destroyed ∧ l.past.count .invoked ≤ 1 ∧
      (l.past.count .destroyed = 1 ↔ (.delivered ∈ l.past ∨ .surfaceDestroyed ∈ l.past) ∧ ∀ orphan, l ≠ .running orphan) := by
  cases l with
  | pending | dropped => simp [past]
  | running orphan | finished orphan => cases orphan <;> simp [past]
  | _ => cases h

theorem past_next {a b : Life} {k : Kind} (h : a.next k = some b) (j : Kind) :
    b.past.count j = a.past.count j + if j = k then 1 else 0 := by
  cases a with
  | unborn | pending | doomed | doomedFreed | dropped | delivered => cases k <;> cases h <;> cases j <;> rfl
  | running orphan | closing orphan | finished orphan =>
      cases orphan <;> cases k <;> cases h <;> cases j <;> rfl

end Life

/-- The protocol that a callback and its function keep to. -/
def lifecycle : Monitor Life Kind := ⟨.unborn, Life.next⟩

/-- The part that an event has in the life of callback `id` of `surface`. -/
def observe (id surface : Nat) : Event → Option Kind
  | .created i x => if i = id ∧ x = surface then some .created else none
  | .delivered i => if i = id then some .delivered else none
  | .invoked i => if i = id then some .invoked else none
  | .destroyed i => if i = id then some .destroyed else none
  | .freed i => if i = id then some .freed else none
  | .surfaceDestroyed x => if x = surface then some .surfaceDestroyed else none
  | .fault _ => none

def Kind.event (id surface : Nat) : Kind → Event
  | .created => .created id surface
  | .delivered => .delivered id
  | .invoked => .invoked id
  | .destroyed => .destroyed id
  | .freed => .freed id
  | .surfaceDestroyed => .surfaceDestroyed surface

variable {id surface : Nat}

theorem observe_eq_some {e : Event} {k : Kind} : observe id surface e = some k ↔ e = k.event id surface := by
  cases e with
  | _ => cases k <;> simp [observe, Kind.event]

/-- The stage of callback `id` of `surface` after a trace. -/
def life (trace : List Event) (id surface : Nat) : Option Life := lifecycle.watch (observe id surface) trace

theorem life_nil : life [] id surface = some .unborn := rfl

variable {trace : List Event} {l : Life}

theorem count_trace (h : life trace id surface = some l) (k : Kind) :
    trace.count (k.event id surface) = l.past.count k := by
  rw [← Monitor.watch_count (fun l k => l.past.count k) (fun k => rfl) (fun a k b => Life.past_next) h k]
  apply List.countP_congr
  intro e _
  simp [observe_eq_some]

theorem mem_trace (h : life trace id surface = some l) (k : Kind) : k.event id surface ∈ trace ↔ k ∈ l.past := by
  rw [← List.count_pos_iff, ← List.count_pos_iff, count_trace h]

/-- The function of a callback is called while its surface is there. -/
theorem alive_of_invoked {pre post : List Event} (h : life (pre ++ .invoked id :: post) id surface = some l) :
    .surfaceDestroyed surface ∉ pre := by
  obtain ⟨a, b, ha, hb⟩ := Monitor.watch_at h (observe_eq_some.mpr (rfl : _ = Kind.invoked.event id surface))
  have hmem := mem_trace ha .surfaceDestroyed
  rw [show Event.surfaceDestroyed surface = Kind.surfaceDestroyed.event id surface from rfl, hmem]
  cases a with
  | delivered => decide
  | running orphan | closing orphan | finished orphan => cases orphan <;> cases hb
  | _ => cases hb

theorem life_concat {k : Kind} {m : Life} (h : life trace id surface = some l) (hnext : l.next k = some m) :
    life (trace ++ [k.event id surface]) id surface = some m := by
  rw [life, Monitor.watch_concat_observed h (observe_eq_some.mpr rfl)]
  exact hnext

theorem life_append_two {k j : Kind} {m n : Life} (h : life trace id surface = some l) (hk : l.next k = some m)
    (hj : m.next j = some n) : life (trace ++ [k.event id surface, j.event id surface]) id surface = some n := by
  rw [List.append_cons]
  exact life_concat (life_concat h hk) hj

theorem life_append_other {events : List Event} (h : ∀ e ∈ events, observe id surface e = none) :
    life (trace ++ events) id surface = life trace id surface := by
  induction events using List.reverseRecOn with
  | nil => rw [List.append_nil]
  | append_singleton events e ih =>
      rw [← List.append_assoc, life, Monitor.watch_concat_other (h e (by simp))]
      exact ih fun x hx => h x (by simp [hx])

/-- The event is one of callback `id` alone. -/
def Event.Concerns (id : Nat) : Event → Prop
  | .delivered i | .invoked i | .destroyed i | .freed i => i = id
  | _ => False

theorem observe_of_concerns {e : Event} {i : Nat} (h : e.Concerns i) (hne : id ≠ i) : observe id surface e = none := by
  cases e with
  | delivered j | invoked j | destroyed j | freed j =>
      obtain rfl : j = i := h
      exact if_neg (Ne.symm hne)
  | _ => cases h

end Wlcs.Frames
