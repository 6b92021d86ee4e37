import Wlcs.Client.Buttons
import Wlcs.Lib.StdVector

/-!
# Pointer notifiers that dispatch events

A pointer notifier may dispatch further events of its client, by a roundtrip or through `move_surface_to`, so that
`pointer_frame` is entered again while a call of it is in the middle of a notification. The client is a machine with a
stack of these calls here. A call of `pointer_frame` stands between two of its blocks, or in a notification; a
notification is a call of `std::remove_if` on the vector of its kind, and the answers of the notifiers are the
environment's.

* `Client` : the members of `Client::Impl`, the notifier vectors, the stack, and a record of what the notifiers saw;
* `OneShot` : what is expected of that record;
* `Allowed` : the steps under which it is kept (`Wlcs.Client.OneShot`).
-/

namespace Wlcs.Reentrant
open EventMachine History StdVector

inductive Kind
  | enter
  | leave
  | motion
  | button
deriving DecidableEq, Repr

/-- A notifier, by the order of registration among those of its kind. -/
structure Notifier where
  kind : Kind
  number : Nat
deriving DecidableEq, Repr

/-- What a call of `notify_of_pointer_*` is about. `notify_of_pointer_buttons` holds a reference to an entry of the
map, the others hold values. -/
inductive Subject
  | enter (surface : SurfacePtr) (position : WlFixed × WlFixed)
  | leave (surface : SurfacePtr)
  | motion (position : WlFixed × WlFixed)
  | button (code : Nat)
deriving DecidableEq, Repr

namespace Subject

def kind : Subject → Kind
  | enter .. => .enter
  | leave .. => .leave
  | motion .. => .motion
  | button .. => .button

/-- The button that the notification is about. -/
def code? : Subject → Option Nat
  | button code => some code
  | _ => none

/-- What a notifier called now is told. -/
def arguments (me : Impl) : Subject → Option Notification
  | enter surface position => some (.enter surface position)
  | leave surface => some (.leave surface)
  | motion position => some (.motion position)
  | button code => me.pendingButtons[code]?.map fun pressed => .button pressed.1 code pressed.2

end Subject

/-- A notification under way: its number, its place in the vector, and the notifier that is running. -/
structure Notifying where
  number : Nat
  subject : Subject
  pass : Pass
  calling : Option Nat := none
deriving DecidableEq, Repr

def Notifying.kind (w : Notifying) : Kind := w.subject.kind

/-- No notifier has returned false from it yet. -/
def Notifying.Whole (w : Notifying) : Prop := w.pass.result = w.pass.first

instance (w : Notifying) : Decidable w.Whole := inferInstanceAs (Decidable (w.pass.result = w.pass.first))

/-- Where `pointer_frame` goes on: at one of its three blocks, in the loop over the buttons, with the iterator at an
entry of the map, or at the `clear()` after it. -/
inductive Point
  | leave
  | location
  | buttons
  | loop (iterator : Option Nat)
  | clear
deriving DecidableEq, Repr

/-- A call of `pointer_frame`. -/
structure Activation where
  point : Point
  notifying : Option Notifying := none
deriving DecidableEq, Repr

inductive Entry
  | registered (kind : Kind)
  | began (number : Nat) (note : Notification)
  | called (number : Nat) (notifier : Notifier) (note : Notification)
  | returned (number : Nat) (notifier : Notifier) (keep : Bool)
  | ended (number : Nat) (kind : Kind)
  | cleared (clicks : List Click)
deriving DecidableEq, Repr

/-! ## What the record says -/

def Entry.began? : Entry → Option Notification
  | .began _ note => some note
  | _ => none

/-- How many notifications have been started. -/
def begun (log : List Entry) : Nat := log.countP (·.began?.isSome)

def registered (log : List Entry) (kind : Kind) : Nat := log.count (.registered kind)

def Entry.expires (x : Notifier) : Entry → Bool
  | .returned _ notifier keep => decide (notifier = x) && !keep
  | _ => false

/-- The notifier has returned false. -/
def expired (log : List Entry) (x : Notifier) : Bool := log.any (·.expires x)

def Entry.call? (number : Nat) : Entry → Option Notifier
  | .called n notifier _ => if n = number then some notifier else none
  | _ => none

/-- The calls of a notification. -/
def callsOf (number : Nat) (log : List Entry) : List Notifier := log.filterMap (Entry.call? number)

def Entry.isCleared : Entry → Bool
  | .cleared _ => true
  | _ => false

def Entry.click? : Entry → Option Click
  | .began _ (.button serial code pressed) => some ⟨serial, code, pressed⟩
  | _ => none

/-- The button events notified since `pending_buttons` was last cleared. -/
def clicksNotified (log : List Entry) : List Click := (openGroup Entry.isCleared log).filterMap Entry.click?

/-- A notifier that has returned false is not called again; a notification calls no notifier twice, and each with what
it is about; when it ends, every notifier that has not returned false has been called; and the entries that are cleared
from `pending_buttons` are those notified, each once. -/
structure OneShot (log : List Entry) : Prop where
  silent : ∀ pre number x note, pre ++ [.called number x note] <+: log → expired pre x = false
  once : ∀ number, (callsOf number log).Nodup
  told : ∀ number x note, .called number x note ∈ log → .began number note ∈ log
  complete : ∀ pre number kind, pre ++ [.ended number kind] <+: log → ∀ n < registered pre kind,
    expired pre ⟨kind, n⟩ = false → ⟨kind, n⟩ ∈ callsOf number pre
  cleared : ∀ pre clicks, pre ++ [.cleared clicks] <+: log → clicksNotified pre = clicks

/-! ## The machine -/

/-- `undefined` is set where the source has undefined behaviour: a vector changed its size under a `std::remove_if`, a
notifier that was moved from is called, or the entry of an iterator is gone. -/
structure Client where
  me : Impl := Impl.fresh {}
  notifiers : Kind → List (Option Nat) := fun _ => []
  stack : List Activation := []
  log : List Entry := []
  undefined : Bool := false

inductive Action
  /-- `add_pointer_*_notification` -/
  | add (kind : Kind)
  | event (e : PointerEvent)
  /-- the notifier that is running returns -/
  | ret (keep : Bool)
  /-- the innermost call of `pointer_frame` goes on -/
  | tick
deriving DecidableEq, Repr

/-- What a call of `pointer_frame` does between two notifications. -/
inductive Move
  | goto (point : Point)
  | notify (me : Impl) (point : Point) (subject : Subject) (note : Notification)
  | finish (me : Impl) (entries : List Entry)
  | undefined

/-- The entry after the iterator. -/
def nextButton (buttons : Std.TreeMap Nat (Nat × Bool)) (iterator : Option Nat) : Option (Nat × Nat × Bool) :=
  buttons.toList.find? fun button => iterator.all (· < button.1)

def pointerFrame (me : Impl) : Point → Move
  | .leave =>
    if me.pendingPointerLeave then
      match me.currentPointerLocation with
      | none => .finish me []
      | some current =>
        .notify { me with currentPointerLocation := none, pendingPointerLeave := false } .location
          (.leave current.surface) (.leave current.surface)
    else
      .goto .location
  | .location =>
    match me.pendingPointerLocation with
    | none => .goto .buttons
    | some location =>
      let committed := { me with currentPointerLocation := some location, pendingPointerLocation := none }
      match me.currentPointerLocation with
      | none =>
        .notify committed .buttons (.enter location.surface location.coordinates)
          (.enter location.surface location.coordinates)
      | some _ => .notify committed .buttons (.motion location.coordinates) (.motion location.coordinates)
  | .buttons => if me.pendingButtons.isEmpty then .finish me [] else .goto (.loop none)
  | .loop iterator =>
    if iterator.any fun code => !me.pendingButtons.contains code then
      .undefined
    else
      match nextButton me.pendingButtons iterator with
      | none => .goto .clear
      | some (code, serial, pressed) =>
        .notify me (.loop (some code)) (.button code) (.button serial code pressed)
  | .clear => .finish { me with pendingButtons := {} } [.cleared (pendingClicks me)]

namespace Client

/-- The notifications under way, the innermost first. -/
def underWay (s : Client) : List Notifying := s.stack.filterMap (·.notifying)

/-- A notifier is running, or none of the client's code is. -/
def ready (s : Client) : Bool :=
  match s.stack with
  | [] => true
  | act :: _ => act.notifying.any (·.calling.isSome)

/-- The innermost call takes a step outside of a notification. -/
def move (s : Client) (rest : List Activation) : Move → Client
  | .goto point => { s with stack := ⟨point, none⟩ :: rest }
  | .notify me point subject note =>
    { s with
      me := me
      stack := ⟨point, some ⟨begun s.log, subject, Pass.start (s.notifiers subject.kind), none⟩⟩ :: rest
      log := s.log ++ [.began (begun s.log) note] }
  | .finish me entries => { s with me := me, stack := rest, log := s.log ++ entries }
  | .undefined => { s with undefined := true }

/-- `std::remove_if` goes on to the next notifier, or ends with the `erase`. -/
def pass (s : Client) (point : Point) (rest : List Activation) (w : Notifying) : Client :=
  let v := s.notifiers w.kind
  if v.length ≠ w.pass.last then
    { s with undefined := true }
  else if w.pass.first = w.pass.last then
    { s with
      notifiers := Function.update s.notifiers w.kind (v.take w.pass.result)
      stack := ⟨point, none⟩ :: rest
      log := s.log ++ [.ended w.number w.kind] }
  else
    match v[w.pass.first]?.join, w.subject.arguments s.me with
    | some n, some note =>
      { s with
        stack := ⟨point, some { w with calling := some n }⟩ :: rest
        log := s.log ++ [.called w.number ⟨w.kind, n⟩ note] }
    | _, _ => { s with undefined := true }

/-- The running notifier returns to `std::remove_if`. -/
def answer (s : Client) (point : Point) (rest : List Activation) (w : Notifying) (n : Nat) (keep : Bool) : Client :=
  let v := s.notifiers w.kind
  if v.length ≠ w.pass.last then
    { s with undefined := true }
  else
    { s with
      notifiers := if keep then Function.update s.notifiers w.kind (w.pass.moveKept v) else s.notifiers
      stack := ⟨point, some { w with pass := if keep then w.pass.keep else w.pass.drop, calling := none }⟩ :: rest
      log := s.log ++ [.returned w.number ⟨w.kind, n⟩ keep] }

def step (s : Client) (a : Action) : Option Client :=
  if s.undefined then none
  else
    match a with
    -- a notifier is not registered while one of its kind is being notified
    | .add kind =>
      if s.ready ∧ ∀ w ∈ s.underWay, w.kind ≠ kind then
        some { s with
          notifiers := Function.update s.notifiers kind (s.notifiers kind ++ [some (registered s.log kind)])
          log := s.log ++ [.registered kind] }
      else
        none
    | .event .frame => if s.ready then some { s with stack := ⟨.leave, none⟩ :: s.stack } else none
    | .event e => if s.ready then some { s with me := (s.me.dispatchPointer e).1 } else none
    | .ret keep =>
      match s.stack with
      | ⟨point, some w⟩ :: rest => w.calling.map fun n => s.answer point rest w n keep
      | _ => none
    | .tick =>
      match s.stack with
      | [] => none
      | ⟨point, none⟩ :: rest => some (s.move rest (pointerFrame s.me point))
      | ⟨point, some w⟩ :: rest => if w.calling.isSome then none else some (s.pass point rest w)

/-- The notification that the next step starts. -/
def starting (s : Client) : Option Subject :=
  match s.stack with
  | ⟨point, none⟩ :: _ =>
    match pointerFrame s.me point with
    | .notify _ _ subject _ => some subject
    | _ => none
  | _ => none

end Client

def client : Guarded Client Action where
  step := Client.step

/-! ## The steps that keep it -/

/-- No notifier of a button dispatches a frame, or a button event that the loop over the buttons has come past; no
notifier returns false from a notification inside another one of the same kind; and none of a kind is started inside one
of that kind from which a notifier has returned false already. -/
def Allowed (s : Client) : Action → Prop
  | .event .frame => ∀ w ∈ s.underWay, w.kind ≠ .button
  | .event (.button _ _ code _) => ∀ w ∈ s.underWay, ∀ iterator ∈ w.subject.code?, iterator < code
  | .ret false => ∀ w ∈ s.underWay.head?, ∀ outer ∈ s.underWay.tail, outer.kind ≠ w.kind
  | .tick => ∀ subject ∈ s.starting, ∀ w ∈ s.underWay, w.kind = subject.kind → w.Whole
  | _ => True

instance (s : Client) : ∀ a, Decidable (Allowed s a)
  | .add _ => isTrue trivial
  | .event .frame => inferInstanceAs (Decidable (∀ w ∈ s.underWay, w.kind ≠ .button))
  | .event (.button _ _ code _) =>
    inferInstanceAs (Decidable (∀ w ∈ s.underWay, ∀ iterator ∈ w.subject.code?, iterator < code))
  | .event (.enter ..) => isTrue trivial
  | .event (.leave ..) => isTrue trivial
  | .event (.motion ..) => isTrue trivial
  | .ret true => isTrue trivial
  | .ret false =>
    inferInstanceAs (Decidable (∀ w ∈ s.underWay.head?, ∀ outer ∈ s.underWay.tail, outer.kind ≠ w.kind))
  | .tick =>
    inferInstanceAs (Decidable (∀ subject ∈ s.starting, ∀ w ∈ s.underWay, w.kind = subject.kind → w.Whole))

/-- The first of two enter notifiers returns false, and the second makes the pointer leave and enter again. -/
def enteredAgain : List Action :=
  [.add .enter, .add .enter, .event (.enter 1 (some 7) 0 0), .event .frame, .tick, .tick, .tick, .ret false, .tick,
    .event (.leave 2 (some 7)), .event .frame, .tick, .tick, .tick, .tick, .event (.enter 3 (some 7) 0 0),
    .event .frame, .tick, .tick, .tick]

theorem expired_notifier_called : ∃ s, client.exec {} enteredAgain = some s ∧ ¬ OneShot s.log := by
  obtain ⟨s, hs, hlog⟩ : ∃ s, client.exec {} enteredAgain = some s ∧ s.log =
      [.registered .enter, .registered .enter, .began 0 (.enter (some 7) (0, 0)),
        .called 0 ⟨.enter, 0⟩ (.enter (some 7) (0, 0)), .returned 0 ⟨.enter, 0⟩ false,
        .called 0 ⟨.enter, 1⟩ (.enter (some 7) (0, 0)), .began 1 (.leave (some 7)), .ended 1 .leave,
        .began 2 (.enter (some 7) (0, 0)), .called 2 ⟨.enter, 0⟩ (.enter (some 7) (0, 0))] :=
    ⟨_, rfl, by decide⟩
  refine ⟨s, hs, fun h => ?_⟩
  have := h.silent (s.log.dropLast) 2 ⟨.enter, 0⟩ (.enter (some 7) (0, 0)) (by rw [hlog]; decide)
  rw [hlog] at this
  exact absurd this (by decide)

end Wlcs.Reentrant
