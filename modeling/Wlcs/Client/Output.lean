import Mathlib.Data.List.Induction

/-!
# `wl_output`

`Client::Impl::Output` collects what a `wl_output` says about itself and makes it current at each `done`.
-/

namespace Wlcs

/-- A proxy that libwayland has made. -/
abbrev ProxyPtr := Nat

structure OutputState where
  output : ProxyPtr
  geometryPosition : Option (Int × Int) := none
  modeSize : Option (Int × Int) := none
  scale : Option Int := none
deriving DecidableEq, Repr

/-- The notifiers, which do nothing but take note, are known by their numbers. -/
structure Output where
  current : OutputState
  pending : OutputState
  doneNotifiers : List Nat := []
deriving DecidableEq, Repr

inductive OutputEvent
  | geometry (x y : Int)
  | mode (flags : Nat) (width height : Int)
  | done
  | scale (factor : Int)
  | name (name : String)
  | description (description : String)
deriving DecidableEq, Repr

namespace Output

/-- The constructor. -/
def new (output : ProxyPtr) : Output where
  current := { output := output }
  pending := { output := output }

def geometryThunk (me : Output) (x y : Int) : Output :=
  { me with pending := { me.pending with geometryPosition := some (x, y) } }

def modeThunk (me : Output) (_flags : Nat) (width height : Int) : Output :=
  { me with pending := { me.pending with modeSize := some (width, height) } }

def scaleThunk (me : Output) (factor : Int) : Output :=
  { me with pending := { me.pending with scale := some factor } }

def doneThunk (me : Output) : Output :=
  { me with
    current := { me.current with
      geometryPosition := me.pending.geometryPosition.or me.current.geometryPosition
      modeSize := me.pending.modeSize.or me.current.modeSize
      scale := me.pending.scale.or me.current.scale }
    pending := { output := me.current.output } }

/-- `Output::listener` -/
def handle (me : Output) : OutputEvent → Output
  | .geometry x y => me.geometryThunk x y
  | .mode flags width height => me.modeThunk flags width height
  | .done => me.doneThunk
  | .scale factor => me.scaleThunk factor
  | .name _ | .description _ => me

/-- The notifiers that an event calls, in order. -/
def notified (me : Output) : OutputEvent → List Nat
  | .done => me.doneNotifiers
  | _ => []

@[simp] theorem handle_output (me : Output) (e : OutputEvent) : (me.handle e).current.output = me.current.output := by
  cases e with
  | _ => rfl

@[simp] theorem handle_doneNotifiers (me : Output) (e : OutputEvent) :
    (me.handle e).doneNotifiers = me.doneNotifiers := by
  cases e with
  | _ => rfl

theorem mem_notified {me : Output} {e : OutputEvent} {notifier : Nat} :
    notifier ∈ me.notified e ↔ e = .done ∧ notifier ∈ me.doneNotifiers := by
  cases e <;> simp [notified]

/-- The state that the events of an output lead to. -/
def received (output : ProxyPtr) (events : List OutputEvent) : Output := events.foldl handle (new output)

theorem received_concat (output : ProxyPtr) (events : List OutputEvent) (e : OutputEvent) :
    received output (events ++ [e]) = (received output events).handle e := by
  rw [received, List.foldl_append]
  rfl

theorem received_output (output : ProxyPtr) (events : List OutputEvent) :
    (received output events).current.output = output := by
  induction events using List.reverseRecOn with
  | nil => rfl
  | append_singleton events e ih => rw [received_concat, handle_output, ih]

end Output

end Wlcs
