import Wlcs.Client.State

/-!
# The `wl_pointer` listener

`pointer_enter`, `pointer_leave`, `pointer_motion`, `pointer_button` and `pointer_frame` of `Client::Impl`, with the
`notify_of_pointer_*` functions that `pointer_frame` calls.
-/

namespace Wlcs.Impl

/-! ## Notifications

Each keeps the notifiers that answer `true` (`remove_if` on the negated answer, then `erase`). -/

def notifyOfPointerEnter (me : Impl) (surface : SurfacePtr) (position : WlFixed × WlFixed) :
    Impl × List Notification :=
  ({ me with enterNotifiers := me.enterNotifiers.filter fun notifier => notifier surface position.1 position.2 },
    [.enter surface position])

def notifyOfPointerLeave (me : Impl) (surface : SurfacePtr) : Impl × List Notification :=
  ({ me with leaveNotifiers := me.leaveNotifiers.filter fun notifier => notifier surface }, [.leave surface])

def notifyOfPointerMotion (me : Impl) (position : WlFixed × WlFixed) : Impl × List Notification :=
  ({ me with motionNotifiers := me.motionNotifiers.filter fun notifier => notifier position.1 position.2 },
    [.motion position])

def notifyOfPointerButtons (me : Impl) (buttons : Std.TreeMap Nat (Nat × Bool)) : Impl × List Notification :=
  ({ me with
      buttonNotifiers := buttons.foldl
        (fun notifiers button state => notifiers.filter fun notifier => notifier state.1 button state.2)
        me.buttonNotifiers },
    buttons.toList.map fun button => .button button.2.1 button.1 button.2.2)

/-! ## Handlers -/

def pointerEnter (me : Impl) (serial : Nat) (surface : SurfacePtr) (x y : WlFixed) : Impl × Report :=
  let me := { me with latestSerial := some serial }
  match me.currentPointerLocation, me.pendingPointerLeave with
  | some current, false => (me, .fail (.enterWithoutLeave surface current.surface))
  | _, _ => ({ me with pendingPointerLocation := some ⟨surface, (x, y)⟩ }, {})

def pointerLeave (me : Impl) (serial : Nat) (surface : SurfacePtr) : Impl × Report :=
  let me := { me with latestSerial := some serial }
  match me.currentPointerLocation with
  | none => (me, .fail .leaveOutside)
  | some current =>
    -- the surface may come out as null if the client has destroyed it
    if surface ≠ none ∧ surface ≠ current.surface then
      (me, .fail (.leaveOther surface current.surface))
    else
      ({ me with pendingPointerLocation := none, pendingPointerLeave := true }, {})

def pointerMotion (me : Impl) (_time : Nat) (x y : WlFixed) : Impl × Report :=
  if me.currentPointerLocation.isNone && me.pendingPointerLocation.isNone then
    (me, .fail .motionOutside)
  else
    let pending := if me.pendingPointerLocation.isNone then me.currentPointerLocation else me.pendingPointerLocation
    ({ me with pendingPointerLocation := pending.map fun location => { location with coordinates := (x, y) } }, {})

/-- `WL_POINTER_BUTTON_STATE_PRESSED` -/
def pointerButtonStatePressed : Nat := 1

def pointerButton (me : Impl) (serial _time button state : Nat) : Impl × Report :=
  ({ me with
      latestSerial := some serial
      pendingButtons := me.pendingButtons.insert button (serial, state == pointerButtonStatePressed) }, {})

/-- The first block of `pointer_frame`: the pending leave. -/
def frameLeave (me : Impl) : Except Failure (Impl × List Notification) :=
  if me.pendingPointerLeave then
    match me.currentPointerLocation with
    | none => .error .frameLeaveOutside
    | some current =>
      .ok (notifyOfPointerLeave { me with currentPointerLocation := none, pendingPointerLeave := false } current.surface)
  else
    .ok (me, [])

/-- The second block of `pointer_frame`: the pending location. -/
def frameLocation (me : Impl) : Impl × List Notification :=
  match me.pendingPointerLocation with
  | none => (me, [])
  | some location =>
    let committed := { me with currentPointerLocation := some location, pendingPointerLocation := none }
    match me.currentPointerLocation with
    | none => notifyOfPointerEnter committed location.surface location.coordinates
    | some _ => notifyOfPointerMotion committed location.coordinates

/-- The third block of `pointer_frame`: the pending buttons. -/
def frameButtons (me : Impl) : Impl × List Notification :=
  if me.pendingButtons.isEmpty then
    (me, [])
  else
    let (me, notified) := notifyOfPointerButtons me me.pendingButtons
    ({ me with pendingButtons := {} }, notified)

def pointerFrame (me : Impl) : Impl × Report :=
  match frameLeave me with
  | .error f => (me, .fail f)
  | .ok (me, left) =>
    let (me, moved) := frameLocation me
    let (me, clicked) := frameButtons me
    (me, { notified := left ++ moved ++ clicked })

/-! ## Queries -/

def windowUnderCursor (me : Impl) : SurfacePtr :=
  match me.currentPointerLocation with
  | some location => location.surface
  | none => none

/-- `current_pointer_location.value()` throws when there is no location. -/
def pointerPosition (me : Impl) : Option (WlFixed × WlFixed) := me.currentPointerLocation.map (·.coordinates)

end Wlcs.Impl
