import Wlcs.ThreadProxy.System

/-!
# A server on a thread of its own

`Server`, `Pointer`, `Touch` and `Keyboard` stand between the tests and the function pointers of the integration. When
the integration runs its own main loop they register an operation with the `ThreadProxy` for each of these hooks, and a
method calls the thunk of its operation; the handlers run where the loop dispatches them.

`World` is the server with its devices, the proxy and any number of client threads. Each hook that a step makes the
integration run is logged with the thread that takes the step.
-/

namespace Wlcs.Server
open ThreadProxy EventMachine Memory

/-! ## Hooks -/

inductive PointerHook
  | moveAbsolute (x y : Int)
  | moveRelative (dx dy : Int)
  | buttonDown (button : Int)
  | buttonUp (button : Int)
  | destroy
deriving DecidableEq, Repr

inductive TouchHook
  | touchDown (x y : Int)
  | touchMove (x y : Int)
  | touchUp
  | destroy
deriving DecidableEq, Repr

inductive KeyboardHook
  | keyDown (scancode : Int)
  | keyUp (scancode : Int)
  | destroy
deriving DecidableEq, Repr

/-- A call of a function pointer of `WlcsDisplayServer`, or of a device at an address. -/
inductive Hook
  | stop
  | createClientSocket
  | createPointer
  | createTouch
  | createKeyboard
  | positionWindowAbsolute (client surface : Nat) (x y : Int)
  | pointer (device : Nat) (hook : PointerHook)
  | touch (device : Nat) (hook : TouchHook)
  | keyboard (device : Nat) (hook : KeyboardHook)
deriving DecidableEq, Repr

/-- The integration. What a hook returns is a descriptor, an address or nothing, in the bits of a number. -/
structure Integration (σ : Type) where
  version : Nat
  providesCreateKeyboard : Bool
  call : Hook → σ → Nat × σ
  touchVersion : Nat → σ → Nat
  keyboardVersion : Nat → σ → Nat

/-- The state of the integration and the hooks that it has run. -/
structure Recorded (σ : Type) where
  state : σ
  calls : List Hook := []

/-! ## Values in messages -/

def intBytes (x : Int) : Bytes := toBytes 4 (BitVec.ofInt 32 x).toNat

def ptrBytes (address : Nat) : Bytes := toBytes 8 address

def intArg (args : List Bytes) (i : Nat) : Int := (BitVec.ofNat 32 (ofBytes (args.getD i []))).toInt

def ptrArg (args : List Bytes) (i : Nat) : Nat := ofBytes (args.getD i [])

/-- `wl_fixed_from_int` -/
def wlFixedFromInt (x : Int) : Int := x * 256

/-! ## Operations -/

section Operations
variable {σ : Type} (I : Integration σ)

def Integration.invoke (hook : Hook) (s : Recorded σ) : Nat × Recorded σ :=
  let (value, state) := I.call hook s.state
  (value, ⟨state, s.calls ++ [hook]⟩)

/-- The handler of a hook that returns nothing. -/
def voidOp (args : List Nat) (hook : List Bytes → Hook) (h : args.sum < maxArgumentsSize := by decide) :
    Callable (Recorded σ) where
  args := args
  returns := none
  run vs s := ([], (I.invoke (hook vs) s).2)
  args_fit := h
  returns_fit := void_fit
  run_size _ _ := rfl

/-- The handler of a hook that takes nothing and returns a value of some size. -/
def valueOp (size : Nat) (hook : Hook) (h : size < maxMessageSize := by decide) : Callable (Recorded σ) where
  args := []
  returns := some size
  run _ s :=
    let (value, s) := I.invoke hook s
    (toBytes size value, s)
  args_fit := noArguments_fit
  returns_fit n hsize := by
    obtain rfl := Option.some.inj hsize
    exact h
  run_size _ _ := length_toBytes _ _

def stopOp : Callable (Recorded σ) := voidOp I [] fun _ => .stop

def createClientSocketOp : Callable (Recorded σ) := valueOp I 4 .createClientSocket

def createPointerOp : Callable (Recorded σ) := valueOp I 8 .createPointer

def createTouchOp : Callable (Recorded σ) := valueOp I 8 .createTouch

def createKeyboardOp : Callable (Recorded σ) := valueOp I 8 .createKeyboard

def positionWindowAbsoluteOp : Callable (Recorded σ) :=
  voidOp I [8, 8, 4, 4] fun args =>
    .positionWindowAbsolute (ptrArg args 0) (ptrArg args 1) (intArg args 2) (intArg args 3)

def moveAbsoluteOp (pointer : Nat) : Callable (Recorded σ) :=
  voidOp I [4, 4] fun args => .pointer pointer (.moveAbsolute (intArg args 0) (intArg args 1))

def moveRelativeOp (pointer : Nat) : Callable (Recorded σ) :=
  voidOp I [4, 4] fun args => .pointer pointer (.moveRelative (intArg args 0) (intArg args 1))

def buttonDownOp (pointer : Nat) : Callable (Recorded σ) :=
  voidOp I [4] fun args => .pointer pointer (.buttonDown (intArg args 0))

def buttonUpOp (pointer : Nat) : Callable (Recorded σ) :=
  voidOp I [4] fun args => .pointer pointer (.buttonUp (intArg args 0))

def destroyPointerOp (pointer : Nat) : Callable (Recorded σ) := voidOp I [] fun _ => .pointer pointer .destroy

/-- The deleter of a touch, which is handed the device. -/
def destroyTouchOp : Callable (Recorded σ) := voidOp I [8] fun args => .touch (ptrArg args 0) .destroy

def touchDownOp (touch : Nat) : Callable (Recorded σ) :=
  voidOp I [4, 4] fun args => .touch touch (.touchDown (intArg args 0) (intArg args 1))

def touchMoveOp (touch : Nat) : Callable (Recorded σ) :=
  voidOp I [4, 4] fun args => .touch touch (.touchMove (intArg args 0) (intArg args 1))

def touchUpOp (touch : Nat) : Callable (Recorded σ) := voidOp I [] fun _ => .touch touch .touchUp

/-- The deleter of a keyboard. -/
def destroyKeyboardOp : Callable (Recorded σ) := voidOp I [8] fun args => .keyboard (ptrArg args 0) .destroy

def keyDownOp (keyboard : Nat) : Callable (Recorded σ) :=
  voidOp I [4] fun args => .keyboard keyboard (.keyDown (intArg args 0))

def keyUpOp (keyboard : Nat) : Callable (Recorded σ) :=
  voidOp I [4] fun args => .keyboard keyboard (.keyUp (intArg args 0))

end Operations

/-! ## The objects -/

/-- The thunks of `Server::Impl`, as the numbers of their registrations. -/
structure ServerThunks where
  stop : Nat
  createClientSocket : Nat
  createPointer : Nat
  createTouch : Nat
  /-- registered for an integration of version 4 or later -/
  createKeyboard : Option Nat
  positionWindowAbsolute : Nat
deriving DecidableEq, Repr

structure PointerImpl where
  pointer : Nat
  moveAbsolute : Nat
  moveRelative : Nat
  buttonDown : Nat
  buttonUp : Nat
  destroy : Nat
deriving DecidableEq, Repr

structure TouchImpl where
  touch : Nat
  /-- the deleter of `touch` -/
  destroy : Nat
  touchDown : Nat
  touchMove : Nat
  touchUp : Nat
deriving DecidableEq, Repr

structure KeyboardImpl where
  keyboard : Nat
  /-- the deleter of `keyboard` -/
  destroy : Nat
  keyDown : Nat
  keyUp : Nat
deriving DecidableEq, Repr

/-- What a thread does with the value that its thunk returns. -/
inductive Task
  | finish
  | checkSocket
  | makePointer
  | makeTouch
  | makeKeyboard
  /-- it calls another thunk -/
  | call (thunk : Nat) (args : List Bytes)
  | throw (message : String)
deriving DecidableEq, Repr

inductive Thread (T : Type)
  | client (t : T)
  | loop
deriving DecidableEq, Repr

structure World (T σ : Type) where
  proxy : System T (Recorded σ)
  thunks : ServerThunks
  /-- the server has not been destroyed -/
  alive : Bool := true
  /-- the thread in `start_on_this_thread` has not returned -/
  running : Bool := true
  pointers : List (Option PointerImpl) := []
  touches : List (Option TouchImpl) := []
  keyboards : List (Option KeyboardImpl) := []
  tasks : T → Task := fun _ => .finish
  hookCalls : List (Thread T × Hook) := []
  /-- the exceptions that have left a method -/
  thrown : List (T × String) := []
  /-- the values of `wlcs-skip-test` that have been recorded -/
  skipped : List String := []

inductive PointerMethod
  | moveTo (x y : Int)
  | moveBy (dx dy : Int)
  | buttonDown (button : Int)
  | buttonUp (button : Int)
  | click (button : Int)
  | destructor
deriving DecidableEq, Repr

inductive TouchMethod
  | downAt (x y : Int)
  | moveTo (x y : Int)
  | up
  | destructor
deriving DecidableEq, Repr

inductive KeyboardMethod
  | keyDown (scancode : Int)
  | keyUp (scancode : Int)
  | key (scancode : Int)
  | destructor
deriving DecidableEq, Repr

/-- A method of the server or of the `i`-th device of a kind. -/
inductive Method
  | stop
  | createClientSocket
  | createPointer
  | createTouch
  | createKeyboard
  /-- after a roundtrip of the client -/
  | moveSurfaceTo (client surface : Nat) (x y : Int)
  | destructor
  | pointer (i : Nat) (m : PointerMethod)
  | touch (i : Nat) (m : TouchMethod)
  | keyboard (i : Nat) (m : KeyboardMethod)
deriving DecidableEq, Repr

/-- The message for a device of another version than 1. -/
def unexpectedVersion (device : String) (received : Nat) : String :=
  "Unexpected " ++ device ++ " version. Expected: 1 received: " ++ toString received

def noKeyboard : String := "Display server does not support keyboard simulation"

section Methods
variable {T : Type} {σ : Type} [DecidableEq T] (I : Integration σ)

namespace World

/-- A step of a thread takes the proxy to `s`; what the integration has run meanwhile was run on that thread. -/
def update (w : World T σ) (thread : Thread T) (s : System T (Recorded σ)) : World T σ :=
  { w with
    proxy := s
    hookCalls := w.hookCalls ++ (s.server.calls.drop w.proxy.server.calls.length).map (thread, ·) }

/-- `register_op`; the thunk is known by its number. -/
def registerOp (w : World T σ) (t : T) (op : Callable (Recorded σ)) : Nat × World T σ :=
  (w.proxy.thunks.length, w.update (.client t) (w.proxy.registerOp op))

/-- Thread `t` calls a thunk, and goes on with `task` when it returns. -/
def callThunk (w : World T σ) (t : T) (thunk : Nat) (args : List Bytes) (task : Task) : Option (World T σ) :=
  (ThreadProxy.proxy.step w.proxy (.call t thunk args)).map fun s =>
    { w.update (.client t) s with tasks := Function.update w.tasks t task }

/-- Thread `t` calls a function pointer. -/
def callHook (w : World T σ) (t : T) (hook : Hook) : World T σ :=
  w.update (.client t) { w.proxy with server := (I.invoke hook w.proxy.server).2 }

def throw (w : World T σ) (t : T) (message : String) : World T σ := { w with thrown := w.thrown ++ [(t, message)] }

/-! ### Devices -/

/-- The constructor of `Pointer::Impl`. -/
def makePointer (w : World T σ) (t : T) (pointer : Nat) : World T σ :=
  let (moveAbsolute, w) := w.registerOp t (moveAbsoluteOp I pointer)
  let (moveRelative, w) := w.registerOp t (moveRelativeOp I pointer)
  let (buttonDown, w) := w.registerOp t (buttonDownOp I pointer)
  let (buttonUp, w) := w.registerOp t (buttonUpOp I pointer)
  let (destroy, w) := w.registerOp t (destroyPointerOp I pointer)
  { w with pointers := w.pointers ++ [some ⟨pointer, moveAbsolute, moveRelative, buttonDown, buttonUp, destroy⟩] }

/-- The constructor of `Touch::Impl`. A device of another version is destroyed by its deleter on the way out. -/
def makeTouch (w : World T σ) (t : T) (touch : Nat) : Option (World T σ) :=
  let (destroy, w) := w.registerOp t (destroyTouchOp I)
  let received := I.touchVersion touch w.proxy.server.state
  if received ≠ 1 then w.callThunk t destroy [ptrBytes touch] (.throw (unexpectedVersion "WlcsTouch" received))
  else
    let (touchDown, w) := w.registerOp t (touchDownOp I touch)
    let (touchMove, w) := w.registerOp t (touchMoveOp I touch)
    let (touchUp, w) := w.registerOp t (touchUpOp I touch)
    some { w with touches := w.touches ++ [some ⟨touch, destroy, touchDown, touchMove, touchUp⟩] }

/-- The constructor of `Keyboard::Impl`. -/
def makeKeyboard (w : World T σ) (t : T) (keyboard : Nat) : Option (World T σ) :=
  let (destroy, w) := w.registerOp t (destroyKeyboardOp I)
  let received := I.keyboardVersion keyboard w.proxy.server.state
  if received ≠ 1 then w.callThunk t destroy [ptrBytes keyboard] (.throw (unexpectedVersion "WlcsKeyboard" received))
  else
    let (keyDown, w) := w.registerOp t (keyDownOp I keyboard)
    let (keyUp, w) := w.registerOp t (keyUpOp I keyboard)
    some { w with keyboards := w.keyboards ++ [some ⟨keyboard, destroy, keyDown, keyUp⟩] }

/-- `click` and `key` call two thunks, one after the other. -/
def pointerMethod (w : World T σ) (t : T) (i : Nat) (me : PointerImpl) : PointerMethod → Option (World T σ)
  | .moveTo x y => w.callThunk t me.moveAbsolute [intBytes (wlFixedFromInt x), intBytes (wlFixedFromInt y)] .finish
  | .moveBy dx dy => w.callThunk t me.moveRelative [intBytes (wlFixedFromInt dx), intBytes (wlFixedFromInt dy)] .finish
  | .buttonDown button => w.callThunk t me.buttonDown [intBytes button] .finish
  | .buttonUp button => w.callThunk t me.buttonUp [intBytes button] .finish
  | .click button => w.callThunk t me.buttonDown [intBytes button] (.call me.buttonUp [intBytes button])
  | .destructor => { w with pointers := w.pointers.set i none }.callThunk t me.destroy [] .finish

/-- A touch has thunks for its hooks, and calls the hooks. -/
def touchMethod (w : World T σ) (t : T) (i : Nat) (me : TouchImpl) : TouchMethod → Option (World T σ)
  | .downAt x y => some (w.callHook I t (.touch me.touch (.touchDown x y)))
  | .moveTo x y => some (w.callHook I t (.touch me.touch (.touchMove x y)))
  | .up => some (w.callHook I t (.touch me.touch .touchUp))
  | .destructor => { w with touches := w.touches.set i none }.callThunk t me.destroy [ptrBytes me.touch] .finish

def keyboardMethod (w : World T σ) (t : T) (i : Nat) (me : KeyboardImpl) : KeyboardMethod → Option (World T σ)
  | .keyDown scancode => w.callThunk t me.keyDown [intBytes scancode] .finish
  | .keyUp scancode => w.callThunk t me.keyUp [intBytes scancode] .finish
  | .key scancode => w.callThunk t me.keyDown [intBytes scancode] (.call me.keyUp [intBytes scancode])
  | .destructor => { w with keyboards := w.keyboards.set i none }.callThunk t me.destroy [ptrBytes me.keyboard] .finish

/-! ### The server -/

/-- The destructor joins the thread of the server. It calls `destroy_server`, which is not a function pointer of the
server but of the integration that made it. -/
def serverMethod (w : World T σ) (t : T) : Method → Option (World T σ)
  | .stop => w.callThunk t w.thunks.stop [] .finish
  | .createClientSocket => w.callThunk t w.thunks.createClientSocket [] .checkSocket
  | .createPointer => w.callThunk t w.thunks.createPointer [] .makePointer
  | .createTouch => w.callThunk t w.thunks.createTouch [] .makeTouch
  | .createKeyboard =>
    if I.version < 4 ∨ I.providesCreateKeyboard = false then
      some { w.throw t noKeyboard with skipped := w.skipped ++ [noKeyboard] }
    else w.thunks.createKeyboard.bind fun thunk => w.callThunk t thunk [] .makeKeyboard
  | .moveSurfaceTo client surface x y =>
    w.callThunk t w.thunks.positionWindowAbsolute [ptrBytes client, ptrBytes surface, intBytes x, intBytes y] .finish
  | .destructor => if w.running then none else some { w with alive := false }
  | _ => none

/-- A method begins on a thread that is in no other. -/
def method (w : World T σ) (t : T) (m : Method) : Option (World T σ) :=
  match w.proxy.threads t with
  | .idle =>
    match m with
    | .pointer i m => (w.pointers[i]?.join).bind fun me => w.pointerMethod t i me m
    | .touch i m => (w.touches[i]?.join).bind fun me => w.touchMethod I t i me m
    | .keyboard i m => (w.keyboards[i]?.join).bind fun me => w.keyboardMethod t i me m
    | m => if w.alive then w.serverMethod I t m else none
  | _ => none

/-- What comes after a thunk. -/
def resume (w : World T σ) (t : T) (value : Bytes) : Option (World T σ) :=
  match w.tasks t with
  | .finish => some w
  | .checkSocket => some (if intArg [value] 0 < 0 then w.throw t "Failed to get client socket from server" else w)
  | .makePointer => some (w.makePointer I t (ofBytes value))
  | .makeTouch => w.makeTouch I t (ofBytes value)
  | .makeKeyboard => w.makeKeyboard I t (ofBytes value)
  | .call thunk args => w.callThunk t thunk args .finish
  | .throw message => some (w.throw t message)

/-- A thunk gives the mutex back and returns or throws. -/
def unlock (w : World T σ) (t : T) : Option (World T σ) :=
  match w.proxy.threads t with
  | .returning _ outcome =>
    (ThreadProxy.proxy.step w.proxy (.unlock t)).bind fun s =>
      let w := w.update (.client t) s
      match outcome with
      | .ok value => w.resume I t value
      | .error e => some (w.throw t e.message)
  | _ => none

end World

/-! ## Runs -/

inductive Action (T : Type)
  | method (t : T) (m : Method)
  | lock (t : T)
  | send (t : T)
  | sendFails (t : T) (short : Bool)
  | recv (t : T)
  | recvFails (t : T)
  | unlock (t : T)
  | loopRecv
  | dispatch
  | sendReply
  /-- `start_on_this_thread` returns -/
  | serverThreadEnds
deriving DecidableEq, Repr

namespace World

/-- A step of the proxy. -/
def proxyStep (w : World T σ) (thread : Thread T) (a : ThreadProxy.Action T (Recorded σ)) : Option (World T σ) :=
  (ThreadProxy.proxy.step w.proxy a).map (w.update thread)

def loopStep (w : World T σ) (a : ThreadProxy.Action T (Recorded σ)) : Option (World T σ) :=
  if w.running then w.proxyStep .loop a else none

def step (w : World T σ) : Action T → Option (World T σ)
  | .method t m => w.method I t m
  | .lock t => w.proxyStep (.client t) (.lock t)
  | .send t => w.proxyStep (.client t) (.send t)
  | .sendFails t short => w.proxyStep (.client t) (.sendFails t short)
  | .recv t => w.proxyStep (.client t) (.recv t)
  | .recvFails t => w.proxyStep (.client t) (.recvFails t)
  | .unlock t => w.unlock I t
  | .loopRecv => w.loopStep .loopRecv
  | .dispatch => w.loopStep .dispatch
  | .sendReply => w.loopStep .sendReply
  | .serverThreadEnds => if w.running then some { w with running := false } else none

end World

/-- The operations of `initialise_thunks`, in order. -/
def serverOps : List (Callable (Recorded σ)) :=
  [stopOp I, createClientSocketOp I, createPointerOp I, createTouchOp I] ++
    (if I.version ≥ 4 then [createKeyboardOp I] else []) ++ [positionWindowAbsoluteOp I]

/-- A server that has been constructed and started. -/
def started (state : σ) : World T σ where
  proxy := (serverOps I).foldl System.registerOp (System.fresh ⟨state, []⟩)
  thunks :=
    { stop := 0
      createClientSocket := 1
      createPointer := 2
      createTouch := 3
      createKeyboard := if I.version ≥ 4 then some 4 else none
      positionWindowAbsolute := if I.version ≥ 4 then 5 else 4 }

def server : Guarded (World T σ) (Action T) where
  step := World.step I

end Methods

end Wlcs.Server
