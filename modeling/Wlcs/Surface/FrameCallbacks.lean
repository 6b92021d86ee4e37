import Mathlib.Logic.Function.Basic
import Wlcs.Lib.Machine
import Wlcs.Lib.Sweep

/-!
# Frame callbacks

`Surface::Impl` keeps the frame callbacks of all surfaces in one static list of raw pointers. Each entry owns a
`wl_callback` and, through its user data, a function on the heap; both are released after the callback has been
delivered or when its surface is destroyed, whichever comes first.

* `State` : the list, and what is alive at which address. Addresses are free to be used again once their object is gone,
  so objects also carry the number under which they were created, which the code does not see;
* `Event` : what a run is judged by, with the faults that the code does not check for;
* `frames` : the machine. A callback function may do anything before it returns, also have other callbacks delivered.
-/

namespace Wlcs.Frames
open EventMachine

abbrev Address := Nat

/-- A live `wl_callback`. -/
structure Proxy where
  id : Nat
  /-- the number of the surface that it was made for -/
  surface : Nat
  userData : Address
  delivered : Bool := false
deriving DecidableEq, Repr

/-- The arguments of a call of `frame_callback` that has not returned. -/
structure Activation where
  callback : Address
  ctx : Address
deriving DecidableEq, Repr

inductive Fault
  /-- `pending_callbacks.erase(pending_callbacks.end())` -/
  | erasedEnd
  | calledFreed
  | freedTwice
  | readDestroyed
  | destroyedTwice
deriving DecidableEq, Repr

inductive Event
  | created (id surface : Nat)
  | delivered (id : Nat)
  | invoked (id : Nat)
  | destroyed (id : Nat)
  | freed (id : Nat)
  | surfaceDestroyed (surface : Nat)
  | fault (f : Fault)
deriving DecidableEq, Repr

structure State where
  /-- the live `Impl` objects -/
  surfaces : Address → Option Nat := fun _ => none
  pendingCallbacks : List (Address × Address) := []
  proxies : Address → Option Proxy := fun _ => none
  /-- the live functions, with the callback that each was made for -/
  functions : Address → Option Nat := fun _ => none
  /-- the calls in progress, the innermost first -/
  executing : List Activation := []
  surfacesCreated : Nat := 0
  callbacksCreated : Nat := 0
  trace : List Event := []

namespace State

def emit (s : State) (e : Event) : State := { s with trace := s.trace ++ [e] }

/-- `delete` -/
def deleteFunction (s : State) (function : Address) : State :=
  match s.functions function with
  | some id => { s with functions := Function.update s.functions function none }.emit (.freed id)
  | none => s.emit (.fault .freedTwice)

def wlCallbackDestroy (s : State) (callback : Address) : State :=
  match s.proxies callback with
  | some proxy => { s with proxies := Function.update s.proxies callback none }.emit (.destroyed proxy.id)
  | none => s.emit (.fault .destroyedTwice)

/-- The constructor of `Impl`, at the address where it is allocated. -/
def createSurface (s : State) (impl : Address) : Option State :=
  match s.surfaces impl with
  | some _ => none
  | none => some { s with
      surfaces := Function.update s.surfaces impl (some s.surfacesCreated)
      surfacesCreated := s.surfacesCreated + 1 }

/-- `add_frame_callback`; `function` and `callback` are what `new` and `wl_surface_frame` return. -/
def addFrameCallback (s : State) (impl function callback : Address) : Option State :=
  match s.surfaces impl with
  | none => none
  | some surface =>
    if s.functions function = none ∧ s.proxies callback = none then
      some <| { s with
        functions := Function.update s.functions function (some s.callbacksCreated)
        pendingCallbacks := s.pendingCallbacks ++ [(impl, callback)]
        proxies := Function.update s.proxies callback (some ⟨s.callbacksCreated, surface, function, false⟩)
        callbacksCreated := s.callbacksCreated + 1 }.emit (.created s.callbacksCreated surface)
    else none

/-- `frame_callback`, up to the call of the function. -/
def frameCallback (s : State) (ctx callback : Address) : State :=
  let s :=
    match s.pendingCallbacks.findIdx? (fun elem => elem.2 = callback) with
    | some us => { s with pendingCallbacks := s.pendingCallbacks.eraseIdx us }
    | none => s.emit (.fault .erasedEnd)
  let s :=
    match s.functions ctx with
    | some id => s.emit (.invoked id)
    | none => s.emit (.fault .calledFreed)
  { s with executing := ⟨callback, ctx⟩ :: s.executing }

/-- libwayland delivers `done` at most once to a callback, and never after its destruction. -/
def done (s : State) (callback : Address) : Option State :=
  match s.proxies callback with
  | none => none
  | some proxy =>
    if proxy.delivered then none
    else
      let s := { s with proxies := Function.update s.proxies callback (some { proxy with delivered := true }) }
      some ((s.emit (.delivered proxy.id)).frameCallback proxy.userData callback)

/-- The function called last returns, and with it `frame_callback`. -/
def functionReturned (s : State) : Option State :=
  match s.executing with
  | [] => none
  | activation :: executing =>
    some (({ s with executing := executing }.wlCallbackDestroy activation.callback).deleteFunction activation.ctx)

/-- What the destructor of `Impl` does with an entry of its own. -/
def release (s : State) (entry : Address × Address) : State :=
  let s :=
    match s.proxies entry.2 with
    | some proxy => s.deleteFunction proxy.userData
    | none => s.emit (.fault .readDestroyed)
  s.wlCallbackDestroy entry.2

/-- The destructor of `Impl`; the destruction callbacks do not touch frame callbacks. -/
def destroySurface (s : State) (impl : Address) : Option State :=
  match s.surfaces impl with
  | none => none
  | some surface =>
    let s := { s with surfaces := Function.update s.surfaces impl none }.emit (.surfaceDestroyed surface)
    let swept := Sweep.sweep (fun entry => entry.1 = impl) release s.pendingCallbacks.length 0 s.pendingCallbacks s
    some { swept.2 with pendingCallbacks := swept.1 }

end State

inductive Action
  | createSurface (impl : Address)
  | addFrameCallback (impl function callback : Address)
  | done (callback : Address)
  | functionReturned
  | destroySurface (impl : Address)
deriving DecidableEq, Repr

def frames : Guarded State Action where
  step s
    | .createSurface impl => s.createSurface impl
    | .addFrameCallback impl function callback => s.addFrameCallback impl function callback
    | .done callback => s.done callback
    | .functionReturned => s.functionReturned
    | .destroySurface impl => s.destroySurface impl

end Wlcs.Frames
