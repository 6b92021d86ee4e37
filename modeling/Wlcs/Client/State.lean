import Mathlib.Data.List.Induction

/-!
# The input state of `Client::Impl`

The members of `Client::Impl` that the `wl_pointer` and `wl_touch` listeners read and write, the reasons for which
they `FAIL()`, and the notifications they hand to the registered notifiers.
-/

namespace Wlcs
open Std

/-- A `wl_surface*`; `none` is the null pointer. -/
abbrev SurfacePtr := Option Nat

/-- A `wl_fixed_t`. -/
abbrev WlFixed := Int

structure SurfaceLocation where
  surface : SurfacePtr
  coordinates : WlFixed × WlFixed
deriving DecidableEq, Repr

abbrev PointerEnterNotifier := SurfacePtr → WlFixed → WlFixed → Bool
abbrev PointerLeaveNotifier := SurfacePtr → Bool
abbrev PointerMotionNotifier := WlFixed → WlFixed → Bool
abbrev PointerButtonNotifier := Nat → Nat → Bool → Bool

/-- The four notifier vectors of `Client::Impl`. -/
structure Notifiers where
  enterNotifiers : List PointerEnterNotifier := []
  leaveNotifiers : List PointerLeaveNotifier := []
  motionNotifiers : List PointerMotionNotifier := []
  buttonNotifiers : List PointerButtonNotifier := []

structure PointerTracking where
  currentPointerLocation : Option SurfaceLocation := none
  pendingPointerLocation : Option SurfaceLocation := none
  pendingPointerLeave : Bool := false
  /-- Maps a button to the serial and whether it is down. -/
  pendingButtons : TreeMap Nat (Nat × Bool) := {}

structure TouchTracking where
  /-- Touches that have gotten a frame event. -/
  currentTouches : TreeMap Int SurfaceLocation := {}
  /-- Touches that have gotten down or motion events without a frame. -/
  pendingTouches : TreeMap Int SurfaceLocation := {}
  /-- Touches that have gotten up events without a frame. -/
  pendingUpTouches : TreeSet Int := {}

structure Impl extends PointerTracking, TouchTracking, Notifiers where
  latestSerial : Option Nat := none

/-- A client that has received no input yet. -/
def Impl.fresh (n : Notifiers) : Impl := { toNotifiers := n }

/-- The `FAIL()` statements of the listeners. -/
inductive Failure
  | enterWithoutLeave (surface current : SurfacePtr)
  | leaveOutside
  | leaveOther (surface current : SurfacePtr)
  | motionOutside
  | frameLeaveOutside
  | downTwice (id : Int)
  | upUnknown (id : Int)
  | motionUnknown (id : Int)
deriving DecidableEq, Repr

/-- How a stream prints a pointer. -/
def showPtr : SurfacePtr → String
  | none => "0"
  | some address => "0x" ++ String.ofList (Nat.toDigits 16 address)

def Failure.message : Failure → String
  | .enterWithoutLeave surface current =>
    "Pointer tried to enter surface " ++ showPtr surface ++ " without first leaving surface " ++ showPtr current
  | .leaveOutside => "Got wl_pointer.leave when the pointer was not on a surface"
  | .leaveOther surface current =>
    "Got wl_pointer.leave with surface " ++ showPtr surface ++ " instead of " ++ showPtr current
  | .motionOutside => "Got wl_pointer.motion when the pointer was not on a surface"
  | .frameLeaveOutside => "Pointer tried to leave when it was not on a surface"
  | .downTwice id => "Got wl_touch.down with ID " ++ toString id ++ " which is already down"
  | .upUnknown id => "Got wl_touch.up with unknown ID " ++ toString id
  -- the source gives a motion the text of an up
  | .motionUnknown id => "Got wl_touch.up with unknown ID " ++ toString id

/-- One call of `notify_of_pointer_*`, which invokes every notifier registered for it. -/
inductive Notification
  | enter (surface : SurfacePtr) (position : WlFixed × WlFixed)
  | leave (surface : SurfacePtr)
  | motion (position : WlFixed × WlFixed)
  | button (serial button : Nat) (pressed : Bool)
deriving DecidableEq, Repr

/-- What a listener does besides changing the state: the `FAIL()` it returns with, and its notifications. -/
structure Report where
  failure : Option Failure := none
  notified : List Notification := []
deriving DecidableEq, Repr

/-- `FAIL()` returns from the listener. -/
def Report.fail (f : Failure) : Report := { failure := some f }

end Wlcs
