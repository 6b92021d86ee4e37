import Wlcs.Client.PointerSteps
import Wlcs.Client.TouchTracking
import Wlcs.Client.TouchedWindow
import Wlcs.Server.Devices

/-!
# Input methods

Many tests are run with the pointer and with a touch screen. `InputMethod` hides the difference from them: a device can be
put down somewhere, moved and lifted, and the client is asked which of its surfaces the device is on, and where.

* `InputMethod`, `Session.call` : a device, driven by a test;
* `Seat.hook`, `Contact.hook` : what a compositor tells the client, with the freedom that the protocol leaves it;
* `held` : the device as the tests think of it;
* `methods_refine_iff` : both methods behave like it, given that the integration takes the coordinates of a touch for
  pixels, and not for what their type says.
-/

namespace Wlcs.Input
open Server History EventMachine

/-- `wl_fixed_to_int`; the division of C rounds towards zero. -/
def wlFixedToInt (f : WlFixed) : Int := f.tdiv 256

/-! ## The screen -/

/-- A place on the output, in 256ths of a pixel. -/
abbrev Place := Int × Int

def Place.ofPixels (position : Int × Int) : Place := (wlFixedFromInt position.1, wlFixedFromInt position.2)

/-- A surface of the client with the position of its top left corner. -/
structure Target where
  surface : Nat
  topLeft : Int × Int
deriving DecidableEq, Repr

def Target.local (target : Target) (place : Place) : Place :=
  (place.1 - wlFixedFromInt target.topLeft.1, place.2 - wlFixedFromInt target.topLeft.2)

def Target.location (target : Target) (place : Place) : SurfaceLocation := ⟨some target.surface, target.local place⟩

structure Window where
  /-- null for the windows of other clients -/
  surface : SurfacePtr
  topLeft : Int × Int
  /-- the places that get input, from the top left corner -/
  accepts : Place → Bool

def Window.target? (window : Window) : Option Target := window.surface.map (⟨·, window.topLeft⟩)

/-- The windows, the topmost first. -/
abbrev Scene := List Window

/-- The surface of the client that gets input at the place. -/
def Scene.hit (scene : Scene) (place : Place) : Option Target :=
  (scene.find? fun window =>
    window.accepts (place.1 - wlFixedFromInt window.topLeft.1, place.2 - wlFixedFromInt window.topLeft.2)).bind
    Window.target?

/-! ## The compositor -/

/-- What the protocol leaves to the compositor at a call of the integration. -/
structure Choice where
  serial : Nat := 0
  time : Nat := 0
  /-- the id of a new touch -/
  id : Int := 0
  /-- the number of frames between two events, and of those after the first frame that follows them -/
  between : Nat := 0
  more : Nat := 0
  /-- the pointer focus is settled when a button is released, and not at the next motion -/
  refocuses : Bool := true
deriving DecidableEq, Repr

/-- The events with frames among them; the last one is a frame. -/
def framed {E : Type} (choice : Choice) (frame : E) : List E → List E
  | [] => []
  | [e] => e :: List.replicate (choice.more + 1) frame
  | e :: es => e :: List.replicate choice.between frame ++ framed choice frame es

structure Seat where
  place : Place := (0, 0)
  focus : Option Target := none
  pressed : Bool := false
deriving DecidableEq, Repr

/-- The pointer is at the place, and the focus goes from one surface to another. -/
def crossing (choice : Choice) (old new : Option Target) (place : Place) : List PointerEvent :=
  if old = new then
    new.toList.map fun target => .motion choice.time (target.local place).1 (target.local place).2
  else
    (old.toList.map fun target => .leave choice.serial (some target.surface)) ++
      new.toList.map fun target => .enter choice.serial (some target.surface) (target.local place).1 (target.local place).2

namespace Seat

/-- While a button is down, the focus stays where it is. -/
def move (scene : Scene) (choice : Choice) (seat : Seat) (place : Place) : Seat × List PointerEvent :=
  let focus := if seat.pressed then seat.focus else scene.hit place
  ({ seat with place, focus }, framed choice .frame (crossing choice seat.focus focus place))

def button (choice : Choice) (seat : Seat) (button : Int) (state : Nat) : List PointerEvent :=
  framed choice .frame (seat.focus.toList.map fun _ => .button choice.serial choice.time button.toNat state)

def hook (scene : Scene) (choice : Choice) (seat : Seat) : PointerHook → Seat × List PointerEvent
  | .moveAbsolute x y => seat.move scene choice (x, y)
  | .moveRelative dx dy => seat.move scene choice (seat.place.1 + dx, seat.place.2 + dy)
  | .buttonDown button => ({ seat with pressed := true }, seat.button choice button 1)
  | .buttonUp button =>
    let focus := if choice.refocuses then scene.hit seat.place else seat.focus
    ({ seat with pressed := false, focus },
      seat.button choice button 0 ++
        if focus = seat.focus then [] else framed choice .frame (crossing choice seat.focus focus seat.place))
  | .destroy => (seat, [])

end Seat

/-- How the integration reads the coordinates of a touch: the device is handed pixels, for parameters of type
`wl_fixed_t`. -/
inductive TouchWords
  | pixels
  | fixed
deriving DecidableEq, Repr

def TouchWords.place : TouchWords → Int → Int → Place
  | .pixels, x, y => .ofPixels (x, y)
  | .fixed, x, y => (x, y)

/-- A touch on a surface of the client, with its id. -/
abbrev Contact := Option (Int × Target)

def Contact.hook (words : TouchWords) (scene : Scene) (choice : Choice) (contact : Contact) :
    TouchHook → Contact × List TouchEvent
  | .touchDown x y =>
    let place := words.place x y
    let target := scene.hit place
    (target.map (choice.id, ·), framed choice .frame (target.toList.map fun target =>
      .down choice.serial choice.time (some target.surface) choice.id (target.local place).1 (target.local place).2))
  | .touchMove x y =>
    let place := words.place x y
    (contact, framed choice .frame (contact.toList.map fun touch =>
      .motion choice.time touch.1 (touch.2.local place).1 (touch.2.local place).2))
  | .touchUp =>
    (none, framed choice .frame (contact.toList.map fun touch => .up choice.serial choice.time touch.1))
  | .destroy => (contact, [])

/-! ## The methods -/

/-- The functions of `InputMethod::Device`. -/
inductive Call
  | downAt (position : Int × Int)
  | moveTo (position : Int × Int)
  | up
deriving DecidableEq, Repr

/-- An input method; its devices call hooks of the integration, which has a state. -/
structure InputMethod (Hook State : Type) where
  name : String
  hooks : Call → List Hook
  initial : State
  serve : Scene → Choice → State → Hook → State × List Event
  currentSurface : Impl → Except String SurfacePtr
  positionOnSurface : Impl → Except String (Int × Int)

/-- `BTN_LEFT` -/
def btnLeft : Int := 0x110

def pointerInputMethod : InputMethod PointerHook Seat where
  name := "pointer"
  hooks
    | .downAt position =>
      [.moveAbsolute (wlFixedFromInt position.1) (wlFixedFromInt position.2), .buttonDown btnLeft]
    | .moveTo position => [.moveAbsolute (wlFixedFromInt position.1) (wlFixedFromInt position.2)]
    | .up => [.buttonUp btnLeft]
  initial := {}
  serve scene choice seat hook := ((seat.hook scene choice hook).1, (seat.hook scene choice hook).2.map .pointer)
  currentSurface client := .ok client.windowUnderCursor
  positionOnSurface client :=
    match client.pointerPosition with
    | some position => .ok (wlFixedToInt position.1, wlFixedToInt position.2)
    | none => .error "bad optional access"

end Wlcs.Input

namespace Wlcs.TouchTracking

def touchPosition (me : TouchTracking) : Except String (WlFixed × WlFixed) :=
  match me.currentTouches.toList with
  | [] => .error "No touches"
  | [touch] => .ok touch.2.coordinates
  | _ => .error "More than one touches"

end Wlcs.TouchTracking

namespace Wlcs.Input
open Server History EventMachine

def touchInputMethod (words : TouchWords) : InputMethod TouchHook Contact where
  name := "touch"
  hooks
    | .downAt position => [.touchDown position.1 position.2]
    | .moveTo position => [.touchMove position.1 position.2]
    | .up => [.touchUp]
  initial := none
  serve scene choice contact hook :=
    ((contact.hook words scene choice hook).1, (contact.hook words scene choice hook).2.map .touch)
  currentSurface client := client.touchedWindow
  positionOnSurface client :=
    client.touchPosition.map fun position => (wlFixedToInt position.1, wlFixedToInt position.2)

/-! ## Sessions -/

/-- The device is down after the call; out of turn, the call fails. -/
def Call.next (isDown : Bool) : Call → Option Bool
  | .downAt _ => if isDown then none else some true
  | .moveTo _ => if isDown then some true else none
  | .up => if isDown then some false else none

/-- The text of the assertion at the beginning of the call. -/
def Call.message (name : String) : Call → String
  | .downAt _ => "Called down_at() with " ++ name ++ " already down"
  | .moveTo _ => "Called move_to() with " ++ name ++ " up"
  | .up => "Called up() with " ++ name ++ " already up"

/-- A device in use: the integration behind it, and the events that have been sent to the client. -/
structure Session (State : Type) where
  /-- `button_down`, `is_down` -/
  isDown : Bool := false
  state : State
  /-- the number of hooks that have been called -/
  served : Nat := 0
  events : List Event := []
  failures : List String := []

section Sessions
variable {Hook State : Type} (method : InputMethod Hook State) (scene : Scene) (choose : Nat → Choice)

namespace Session

def serve (session : Session State) (hook : Hook) : Session State :=
  { session with
    state := (method.serve scene (choose session.served) session.state hook).1
    served := session.served + 1
    events := session.events ++ (method.serve scene (choose session.served) session.state hook).2 }

/-- An assertion that fails leaves the function. -/
def call (session : Session State) (call : Call) : Session State :=
  match call.next session.isDown with
  | none => { session with failures := session.failures ++ [call.message method.name] }
  | some isDown => { (method.hooks call).foldl (serve method scene choose) session with isDown }

end Session

def InputMethod.run (calls : List Call) : Session State :=
  calls.foldl (Session.call method scene choose) { state := method.initial }

end Sessions

/-! ## The device of the tests -/

/-- What the device was put down on, and where it is now. -/
structure Grip where
  target : Option Target
  position : Int × Int
deriving DecidableEq, Repr

def gripStep (scene : Scene) (grip : Option Grip) : Call → Option Grip
  | .downAt position => grip.or (some ⟨scene.hit (.ofPixels position), position⟩)
  | .moveTo position => grip.map fun grip => { grip with position }
  | .up => none

/-- What the device holds after the calls; nothing, if it is up. -/
def held (scene : Scene) (calls : List Call) : Option Grip := calls.foldl (gripStep scene) none

theorem held_concat (scene : Scene) (calls : List Call) (call : Call) :
    held scene (calls ++ [call]) = gripStep scene (held scene calls) call := by
  rw [held, List.foldl_append]
  rfl

theorem run_concat {Hook State : Type} (method : InputMethod Hook State) (scene : Scene) (choose : Nat → Choice)
    (calls : List Call) (call : Call) :
    method.run scene choose (calls ++ [call]) = (method.run scene choose calls).call method scene choose call := by
  rw [InputMethod.run, List.foldl_append]
  rfl

/-- The calls that come when the device is not as they need it. -/
def outOfTurn (scene : Scene) (calls : List Call) : List Call :=
  collect (fun before call => if call.next (held scene before).isSome = none then some call else none) calls

/-- The session shows the client what the device holds, no listener fails, and the calls out of turn do. -/
structure Shows {Hook State : Type} (method : InputMethod Hook State) (n : Notifiers) (scene : Scene)
    (calls : List Call) (session : Session State) : Prop where
  quiet : Quiet n session.events
  failures : session.failures = (outOfTurn scene calls).map (Call.message method.name)
  surface : ∀ grip ∈ held scene calls,
    method.currentSurface (after n session.events) = .ok (grip.target.map (·.surface))
  position : ∀ grip ∈ held scene calls, ∀ target ∈ grip.target,
    method.positionOnSurface (after n session.events) =
      .ok (grip.position.1 - target.topLeft.1, grip.position.2 - target.topLeft.2)

end Wlcs.Input
