import Mathlib.Logic.Function.Basic
import Wlcs.Lib.Machine
import Wlcs.Lib.Monitor

/-!
# Shell surfaces

The functions that make a surface and give it a role on the way: `create_wl_shell_surface`, `create_xdg_shell_v6_surface`,
`create_xdg_shell_stable_surface` and `XdgStableSurfaceBuilder::build`. Each of them waits in `dispatch_until`, where events
of any surface are handled and which may throw; what the function has made by then is released as its locals go.

* `Stage` : what the protocols allow for one surface. An event counts when it is dispatched to the client;
* `Surf` : what the client holds of a surface: the wait that its function is in, what its `configure` mock does, and the
  shared pointers to the objects of its role;
* `shells` : any number of surfaces, each at any point of its function, with their events in any order.
-/

namespace Wlcs.Shell
open EventMachine

abbrev Serial := Nat

inductive Protocol
  | wlShell
  | xdgV6
  | xdgStable
deriving DecidableEq, Repr

inductive Message
  | createSurface
  | getShellSurface
  | setToplevel
  | destroyShellSurface
  | getXdgSurface (protocol : Protocol)
  | getToplevel
  | setWindowGeometry
  | configure (serial : Serial)
  | ackConfigure (serial : Serial)
  | destroyToplevel
  | destroyXdgSurface
  | attach
  | frame
  | commit
  | destroySurface
deriving DecidableEq, Repr

/-! ## The rules -/

inductive Stage
  | unborn
  | bare
  | shellSurface
  | xdgSurface (protocol : Protocol)
  /-- `outstanding` are the `configure` events that may be acknowledged -/
  | toplevel (protocol : Protocol) (outstanding : List Serial) (configured : Bool)
  /-- an `xdg_surface` without its toplevel -/
  | defunct
  | released
  | destroyed
deriving DecidableEq, Repr

namespace Stage

/-- An acknowledgement also consumes the events before. -/
def consume (serial : Serial) (outstanding : List Serial) : List Serial :=
  (outstanding.dropWhile (· ≠ serial)).tail

def next : Stage → Message → Option Stage
  | .unborn, .createSurface => some .bare
  | .bare, .getShellSurface => some .shellSurface
  | .bare, .getXdgSurface protocol => some (.xdgSurface protocol)
  | .bare, .destroySurface => some .destroyed
  | .shellSurface, .setToplevel | .shellSurface, .attach | .shellSurface, .frame | .shellSurface, .commit =>
      some .shellSurface
  | .shellSurface, .destroyShellSurface => some .released
  | .xdgSurface protocol, .getToplevel => some (.toplevel protocol [] false)
  | .toplevel protocol outstanding configured, .configure serial =>
      some (.toplevel protocol (outstanding ++ [serial]) (configured || protocol = .xdgV6))
  | .toplevel protocol outstanding _, .ackConfigure serial =>
      if serial ∈ outstanding then some (.toplevel protocol (consume serial outstanding) true) else none
  -- attaching a buffer to an unconfigured surface is an error
  | .toplevel protocol outstanding true, .attach => some (.toplevel protocol outstanding true)
  | .toplevel protocol outstanding configured, .setWindowGeometry
  | .toplevel protocol outstanding configured, .frame
  | .toplevel protocol outstanding configured, .commit => some (.toplevel protocol outstanding configured)
  | .toplevel _ _ _, .destroyToplevel => some .defunct
  | .defunct, .destroyXdgSurface => some .released
  | .released, .destroySurface => some .destroyed
  | _, _ => none

end Stage

def rules : Monitor Stage Message := ⟨.unborn, Stage.next⟩

/-! ## The client -/

/-- The functions that make a shell surface. -/
inductive Maker
  | createWlShellSurface
  | createXdgShellV6Surface
  | createXdgShellStableSurface
  /-- `XdgStableSurfaceBuilder::build` -/
  | xdgStableBuilder
deriving DecidableEq, Repr

def Maker.protocol : Maker → Protocol
  | .createWlShellSurface => .wlShell
  | .createXdgShellV6Surface => .xdgV6
  | .createXdgShellStableSurface | .xdgStableBuilder => .xdgStable

/-- `create_visible_surface`, by the shells that the client has bound. -/
def createVisibleSurface (bound : Protocol → Bool) : Option Maker :=
  if bound .wlShell then some .createWlShellSurface
  else if bound .xdgStable then some .createXdgShellStableSurface
  else if bound .xdgV6 then some .createXdgShellV6Surface
  else none

/-- What a `std::shared_ptr` of the functions points to. -/
inductive Shared
  | xdgSurface
  | xdgToplevel
deriving DecidableEq, Repr

/-- The message of a destructor. -/
def Shared.destroyed : Shared → Message
  | .xdgSurface => .destroyXdgSurface
  | .xdgToplevel => .destroyToplevel

/-- A destruction callback of a surface. -/
inductive Callback
  | destroyShellSurface
  | reset (pointers : List Shared)
deriving DecidableEq, Repr

abbrev Uses := Shared → Nat

/-- A shared pointer goes, with what it points to if it was the last. -/
def reset (uses : Uses) (pointer : Shared) : Uses × List Message :=
  (Function.update uses pointer (uses pointer - 1), if uses pointer = 1 then [pointer.destroyed] else [])

def resets (uses : Uses) : List Shared → Uses × List Message
  | [] => (uses, [])
  | pointer :: pointers =>
      let first := reset uses pointer
      let rest := resets first.1 pointers
      (rest.1, first.2 ++ rest.2)

def Callback.run (uses : Uses) : Callback → Uses × List Message
  | .destroyShellSurface => (uses, [.destroyShellSurface])
  | .reset pointers => resets uses pointers

def runCallbacks (uses : Uses) : List Callback → List Message
  | [] => []
  | callback :: callbacks =>
      let first := callback.run uses
      first.2 ++ runCallbacks first.1 callbacks

/-- What the mock method `configure` does when it is called. -/
inductive OnConfigure
  /-- `Times(AnyNumber())` -/
  | anyNumber
  /-- `WillOnce`, not called yet -/
  | once
  | saturated
  /-- the action of `ON_CALL` -/
  | byDefault
deriving DecidableEq, Repr

/-- What `dispatch_until` waits for in the function that makes the surface. -/
inductive Wait
  | configure
  | frame
  | returned
deriving DecidableEq, Repr

structure Surf where
  maker : Maker
  wait : Wait
  onConfigure : OnConfigure := .anyNumber
  initialConfigureReceived : Bool := false
  surfaceRendered : Bool := false
  uses : Uses := fun _ => 0
  /-- the shared pointers among the locals of the function, in the order of their declarations -/
  locals : List Shared := []
  destructionCallbacks : List Callback := []

namespace Surf

/-- `run_on_destruction`, with a function that holds shared pointers -/
def runOnDestruction (x : Surf) (pointers : List Shared) : Surf :=
  { x with
    uses := fun pointer => x.uses pointer + pointers.count pointer
    destructionCallbacks := x.destructionCallbacks ++ [.reset pointers] }

/-- The locals go, the last one first, and with them the surface, which is the first. -/
def unwind (x : Surf) : List Message :=
  let afterLocals := resets x.uses x.locals.reverse
  afterLocals.2 ++ runCallbacks afterLocals.1 x.destructionCallbacks ++ [.destroySurface]

/-- The locals go, except for the surface, which is returned. -/
def leave (x : Surf) : Surf × List Message :=
  let afterLocals := resets x.uses x.locals.reverse
  ({ x with wait := .returned, uses := afterLocals.1, locals := [] }, afterLocals.2)

end Surf

def attachVisibleBuffer : List Message := [.attach, .frame, .commit]

/-- A surface with a role, as far as the functions have it in common. -/
def withToplevel (maker : Maker) (wait : Wait) : Surf :=
  { maker, wait, uses := fun _ => 1, locals := [.xdgSurface, .xdgToplevel] }

/-- Each function up to its first `dispatch_until`. -/
def make : Maker → Surf × List Message
  | .createWlShellSurface =>
      ({ maker := .createWlShellSurface, wait := .frame, destructionCallbacks := [.destroyShellSurface] },
        [.createSurface, .getShellSurface, .setToplevel, .commit] ++ attachVisibleBuffer)
  | .createXdgShellV6Surface =>
      ((withToplevel .createXdgShellV6Surface .frame).runOnDestruction [.xdgToplevel, .xdgSurface],
        [.createSurface, .getXdgSurface .xdgV6, .getToplevel, .commit] ++ attachVisibleBuffer)
  | .createXdgShellStableSurface =>
      ({ (withToplevel .createXdgShellStableSurface .configure).runOnDestruction [.xdgToplevel, .xdgSurface] with
          onConfigure := .once },
        [.createSurface, .getXdgSurface .xdgStable, .getToplevel, .commit])
  | .xdgStableBuilder =>
      (withToplevel .xdgStableBuilder .frame,
        [.createSurface, .getXdgSurface .xdgStable, .getToplevel, .setWindowGeometry] ++ attachVisibleBuffer)

/-- The rest of a function, after its last `dispatch_until`. -/
def finish (x : Surf) : Surf × List Message :=
  match x.maker with
  | .xdgStableBuilder => (x.runOnDestruction [.xdgToplevel, .xdgSurface]).leave
  | _ => x.leave

/-- What the test framework reports about a `configure` mock. -/
inductive Failure
  | calledTwice (serial : Serial)
  | neverCalled
deriving DecidableEq, Repr

inductive Status
  | unborn
  | alive (x : Surf)
  | gone (maker : Maker)

structure Client where
  surfaces : Nat → Status := fun _ => .unborn
  trace : List (Nat × Message) := []
  failures : List (Nat × Failure) := []

namespace Client

def put (me : Client) (id : Nat) (status : Status) (messages : List Message) : Client :=
  { me with
    surfaces := Function.update me.surfaces id status
    trace := me.trace ++ messages.map fun message => (id, message) }

def report (me : Client) (id : Nat) (failures : List Failure) : Client :=
  { me with failures := me.failures ++ failures.map fun failure => (id, failure) }

end Client

/-- `XdgSurfaceStable::configure` and `XdgSurfaceV6::configure` -/
def configure (x : Surf) (serial : Serial) : Surf × List Message × List Failure :=
  match x.onConfigure with
  | .anyNumber => (x, [], [])
  | .once =>
      ({ x with onConfigure := .saturated, initialConfigureReceived := true }, [.ackConfigure serial], [])
  | .saturated => (x, [], [.calledTwice serial])
  | .byDefault => (x, [.ackConfigure serial], [])

inductive Action
  | create (id : Nat) (maker : Maker)
  /-- `xdg_surface.configure` is dispatched -/
  | configure (id : Nat) (serial : Serial)
  /-- the frame callback of `attach_visible_buffer` is dispatched -/
  | done (id : Nat)
  /-- the wait of the function that makes the surface ends -/
  | proceed (id : Nat)
  /-- `dispatch_until` throws -/
  | throws (id : Nat)
  /-- the test has the surface, and requests something of it -/
  | attach (id : Nat)
  | commit (id : Nat)
  | destroy (id : Nat)
deriving DecidableEq, Repr

namespace Client
variable (bound : Protocol → Bool)

def create (me : Client) (id : Nat) (maker : Maker) : Client :=
  if bound maker.protocol then me.put id (.alive (make maker).1) (make maker).2
  -- `the_shell` and its like throw, and the surface goes
  else me.put id (.gone maker) [.createSurface, .destroySurface]

/-- An action on a surface that the client has. -/
def act (me : Client) (id : Nat) (x : Surf) : Action → Option Client
  | .create _ _ => none
  | .configure _ serial =>
      if x.maker.protocol = .wlShell then none
      else
        let called := configure x serial
        some ((me.put id (.alive called.1) (.configure serial :: called.2.1)).report id called.2.2)
  | .done _ => if x.wait = .frame then some (me.put id (.alive { x with surfaceRendered := true }) []) else none
  | .proceed _ =>
      match x.wait with
      | .configure =>
          if x.initialConfigureReceived then
            some (me.put id (.alive { x with wait := .frame, onConfigure := .byDefault }) attachVisibleBuffer)
          else none
      | .frame => if x.surfaceRendered then some (me.put id (.alive (finish x).1) (finish x).2) else none
      | .returned => none
  | .throws _ =>
      if x.wait = .returned then none
      else some ((me.put id (.gone x.maker) x.unwind).report id (if x.onConfigure = .once then [.neverCalled] else []))
  | .attach _ => if x.wait = .returned then some (me.put id (.alive x) [.attach]) else none
  | .commit _ => if x.wait = .returned then some (me.put id (.alive x) [.commit]) else none
  | .destroy _ => if x.wait = .returned then some (me.put id (.gone x.maker) x.unwind) else none

end Client

def Action.id : Action → Nat
  | .create id _ | .configure id _ | .done id | .proceed id | .throws id | .attach id | .commit id | .destroy id => id

def shells (bound : Protocol → Bool) : Guarded Client Action where
  step me a :=
    match me.surfaces a.id, a with
    | .unborn, .create id maker => some (me.create bound id maker)
    | .alive x, a => me.act a.id x a
    | _, _ => none

end Wlcs.Shell
