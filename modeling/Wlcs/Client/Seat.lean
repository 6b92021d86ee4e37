import Wlcs.Client.Dispatch
import Wlcs.Client.Output

/-!
# The seat

`seat_capabilities` makes a `wl_keyboard`, a `wl_pointer` and a `wl_touch` as the seat offers them, each with the
client's listener. Every live object of a device is sent the input events of that device, so how often a listener runs
depends on how many of them there are: `one_input_object_iff`.
-/

namespace Wlcs
open EventMachine

/-! ## The keyboard -/

inductive KeyboardEvent
  | keymap (fd : Nat)
  | enter (serial : Nat) (surface : SurfacePtr)
  | leave (serial : Nat) (surface : SurfacePtr)
  | key (serial time key state : Nat)
  | modifiers
  | repeatInfo
deriving DecidableEq, Repr

structure KeyEvent where
  scancode : Nat
  isDown : Bool
  serial : Nat
  time : Nat
deriving DecidableEq, Repr

inductive Device
  | keyboard
  | pointer
  | touch
deriving DecidableEq, Repr

/-- A proxy of a device, with the listener of the client. -/
structure InputObject where
  device : Device
  proxy : ProxyPtr
deriving DecidableEq, Repr

/-- The members of `Client::Impl` that belong to the seat. -/
structure SeatClient extends Impl where
  keyboardFocusedSurface : SurfacePtr := none
  lastKeyEvent : Option KeyEvent := none
  /-- the descriptors that the keyboard listener has closed -/
  closed : List Nat := []
  keyboard : Option ProxyPtr := none
  pointer : Option ProxyPtr := none
  touch : Option ProxyPtr := none
  /-- the proxies that have been made and not destroyed -/
  objects : List InputObject := []

namespace SeatClient

def keyboardEnter (me : SeatClient) (serial : Nat) (surface : SurfacePtr) : SeatClient :=
  { me with keyboardFocusedSurface := surface, latestSerial := some serial }

def keyboardLeave (me : SeatClient) (serial : Nat) (surface : SurfacePtr) : SeatClient :=
  let me := if me.keyboardFocusedSurface = surface then { me with keyboardFocusedSurface := none } else me
  { me with latestSerial := some serial }

/-- `WL_KEYBOARD_KEY_STATE_PRESSED` is 1. -/
def keyboardKey (me : SeatClient) (serial time key state : Nat) : SeatClient :=
  { me with latestSerial := some serial, lastKeyEvent := some ⟨key, state = 1, serial, time⟩ }

/-- `keyboard_listener` -/
def dispatchKeyboard (me : SeatClient) : KeyboardEvent → SeatClient
  | .keymap fd => { me with closed := me.closed ++ [fd] }
  | .enter serial surface => me.keyboardEnter serial surface
  | .leave serial surface => me.keyboardLeave serial surface
  | .key serial time key state => me.keyboardKey serial time key state
  | .modifiers | .repeatInfo => me

end SeatClient

/-! ## Capabilities -/

/-- The bits of `wl_seat_capability`. -/
def Device.capability : Device → BitVec 32
  | .pointer => 1
  | .keyboard => 2
  | .touch => 4

/-- The capabilities include the device. -/
def Advertises (capabilities : BitVec 32) (device : Device) : Prop := capabilities &&& device.capability ≠ 0

instance (capabilities : BitVec 32) : DecidablePred (Advertises capabilities) :=
  fun device => inferInstanceAs (Decidable (capabilities &&& device.capability ≠ 0))

namespace SeatClient

/-- `wl_seat_get_*` and `wl_*_add_listener`. The proxies are numbered as they are made; the member is overwritten, and
the proxy that it pointed to lives on. -/
def getDevice (me : SeatClient) (device : Device) : SeatClient :=
  let proxy := me.objects.length
  let me : SeatClient := { me with objects := me.objects ++ [⟨device, proxy⟩] }
  match device with
  | .keyboard => { me with keyboard := some proxy }
  | .pointer => { me with pointer := some proxy }
  | .touch => { me with touch := some proxy }

/-- What `seat_capabilities` does for one of the devices. -/
def offer (me : SeatClient) (capabilities : BitVec 32) (device : Device) : SeatClient :=
  if Advertises capabilities device then me.getDevice device else me

def seatCapabilities (me : SeatClient) (capabilities : BitVec 32) : SeatClient :=
  ((me.offer capabilities .keyboard).offer capabilities .pointer).offer capabilities .touch

end SeatClient

/-! ## Input -/

inductive InputEvent
  | keyboard (e : KeyboardEvent)
  | pointer (e : PointerEvent)
  | touch (e : TouchEvent)
deriving DecidableEq, Repr

def InputEvent.device : InputEvent → Device
  | .keyboard _ => .keyboard
  | .pointer _ => .pointer
  | .touch _ => .touch

inductive SeatEvent
  | capabilities (capabilities : BitVec 32)
  /-- the compositor sends the event to every live object of its device -/
  | input (e : InputEvent)
deriving DecidableEq, Repr

def SeatEvent.capabilities? : SeatEvent → Option (BitVec 32)
  | .capabilities c => some c
  | .input _ => none

namespace SeatClient

/-- One call of a listener. -/
def dispatchInput (me : SeatClient) : InputEvent → SeatClient × Report
  | .keyboard e => (me.dispatchKeyboard e, {})
  | .pointer e =>
    let (impl, report) := me.toImpl.dispatchPointer e
    ({ me with toImpl := impl }, report)
  | .touch e =>
    let (impl, report) := me.toImpl.dispatchTouch e
    ({ me with toImpl := impl }, report)

/-- The objects that an event of the device is sent to. -/
def receivers (me : SeatClient) (device : Device) : List InputObject := me.objects.filter (·.device = device)

/-- Each of the objects calls the listener. -/
def deliverTo (me : SeatClient) (e : InputEvent) : List InputObject → SeatClient × List Report
  | [] => (me, [])
  | _ :: objects =>
    let (me, report) := me.dispatchInput e
    let (me, reports) := me.deliverTo e objects
    (me, report :: reports)

def deliver (me : SeatClient) (e : InputEvent) : SeatClient × List Report := me.deliverTo e (me.receivers e.device)

end SeatClient

/-- The client, fed with the events of its seat; it answers with the reports of the listeners that were called. -/
def seatListener : Transducer SeatClient SeatEvent (List Report) where
  step me
    | .capabilities c => (me.seatCapabilities c, [])
    | .input e => me.deliver e

/-- A client whose seat has sent the events. -/
def seated (n : Notifiers) (events : List SeatEvent) : SeatClient :=
  seatListener.run { toImpl := Impl.fresh n } events

/-! ## One object of each kind -/

/-- What the seat offers: nothing until it says so. -/
def latestCapabilities (events : List SeatEvent) : BitVec 32 :=
  (History.lastSome SeatEvent.capabilities? events).getD 0

@[simp] theorem latestCapabilities_concat_capabilities (events : List SeatEvent) (c : BitVec 32) :
    latestCapabilities (events ++ [.capabilities c]) = c := by
  unfold latestCapabilities
  rw [History.lastSome_concat]
  rfl

@[simp] theorem latestCapabilities_concat_input (events : List SeatEvent) (e : InputEvent) :
    latestCapabilities (events ++ [.input e]) = latestCapabilities events := by
  unfold latestCapabilities
  rw [History.lastSome_concat]
  rfl

/-- There is one object of each device that is offered and none of the others, so that a listener runs once for each
event of such a device. -/
structure OneObjectEach (me : SeatClient) (capabilities : BitVec 32) : Prop where
  at_most_one : ∀ device, (me.receivers device).length ≤ 1
  one_iff : ∀ device, (me.receivers device).length = 1 ↔ Advertises capabilities device
  handled_once : ∀ e, Advertises capabilities e.device →
    me.deliver e = ((me.dispatchInput e).1, [(me.dispatchInput e).2])

namespace SeatClient

theorem dispatchInput_objects (me : SeatClient) (e : InputEvent) : (me.dispatchInput e).1.objects = me.objects := by
  cases e with
  | pointer e => rfl
  | touch e => rfl
  | keyboard e =>
      cases e with
      | leave serial surface =>
          simp only [dispatchInput, dispatchKeyboard, keyboardLeave]
          split
          · rfl
          · rfl
      | _ => rfl

theorem deliverTo_objects (me : SeatClient) (e : InputEvent) (objects : List InputObject) :
    (me.deliverTo e objects).1.objects = me.objects := by
  induction objects generalizing me with
  | nil => rfl
  | cons object objects ih =>
      unfold deliverTo
      exact (ih _).trans (me.dispatchInput_objects e)

theorem deliver_of_one {me : SeatClient} {e : InputEvent} (h : (me.receivers e.device).length = 1) :
    me.deliver e = ((me.dispatchInput e).1, [(me.dispatchInput e).2]) := by
  obtain ⟨object, hobject⟩ := List.length_eq_one_iff.mp h
  unfold deliver
  rw [hobject]
  rfl

theorem length_receivers_offer (me : SeatClient) (capabilities : BitVec 32) (offered device : Device) :
    ((me.offer capabilities offered).receivers device).length =
      (me.receivers device).length + if offered = device ∧ Advertises capabilities device then 1 else 0 := by
  have hget : (me.getDevice offered).objects = me.objects ++ [⟨offered, me.objects.length⟩] := by
    cases offered with
    | _ => rfl
  unfold offer receivers
  by_cases hdevice : offered = device
  · subst hdevice
    split
    · rename_i hadvertised
      simp [hget, hadvertised]
    · rename_i hadvertised
      simp [hadvertised]
  · split
    · simp [hget, hdevice]
    · simp [hdevice]

/-- A `capabilities` event adds an object of each device in it, whatever there is already. -/
theorem length_receivers_seatCapabilities (me : SeatClient) (capabilities : BitVec 32) (device : Device) :
    ((me.seatCapabilities capabilities).receivers device).length =
      (me.receivers device).length + if Advertises capabilities device then 1 else 0 := by
  unfold seatCapabilities
  rw [length_receivers_offer, length_receivers_offer, length_receivers_offer]
  cases device with
  | _ => simp

end SeatClient

/-- The event offers the device. -/
def SeatEvent.offers (device : Device) : SeatEvent → Bool
  | .capabilities c => Advertises c device
  | .input _ => false

variable (n : Notifiers)

/-- Nothing that was made is ever destroyed. -/
theorem length_receivers_seated (events : List SeatEvent) (device : Device) :
    ((seated n events).receivers device).length = events.countP (SeatEvent.offers device) := by
  induction events using List.reverseRecOn with
  | nil => rfl
  | append_singleton events e ih =>
      unfold seated at ih ⊢
      rw [seatListener.run_concat, List.countP_append, ← ih, List.countP_singleton]
      cases e with
      | capabilities c =>
          simp only [seatListener, SeatClient.length_receivers_seatCapabilities, SeatEvent.offers, decide_eq_true_eq]
      | input e =>
          simp only [seatListener, SeatClient.deliver, SeatClient.receivers, SeatClient.deliverTo_objects,
            SeatEvent.offers]
          rfl

/-- Nothing is offered before the last word of the seat. -/
def OffersLast (pre : List SeatEvent) (e : SeatEvent) : Prop :=
  ∀ c, e = .capabilities c → ∀ earlier, .capabilities earlier ∈ pre → ∀ device, ¬ Advertises earlier device

theorem count_of_offersLast {events : List SeatEvent} (h : ∀ pre e, pre ++ [e] <+: events → OffersLast pre e)
    (device : Device) :
    events.countP (SeatEvent.offers device) = if Advertises (latestCapabilities events) device then 1 else 0 := by
  induction events using List.reverseRecOn with
  | nil =>
      cases device with
      | _ => rfl
  | append_singleton events e ih =>
      have ih := ih fun pre x hx => h pre x (hx.trans (List.prefix_append _ _))
      rw [List.countP_append, List.countP_singleton]
      cases e with
      | capabilities c =>
          have hnone : events.countP (SeatEvent.offers device) = 0 := by
            rw [List.countP_eq_zero]
            intro e he hoffers
            cases e with
            | capabilities earlier =>
                exact h events _ (List.prefix_refl _) c rfl earlier he device (of_decide_eq_true hoffers)
            | input e => cases hoffers
          rw [hnone, Nat.zero_add, latestCapabilities_concat_capabilities]
          simp only [SeatEvent.offers, decide_eq_true_eq]
      | input e =>
          rw [latestCapabilities_concat_input, ih]
          rfl

/-- **One input object per capability**: after every event of a seat the client has one object of each device that is
offered and none of the others, exactly when the seat offers nothing before its last `capabilities` event. -/
theorem one_input_object_iff (events : List SeatEvent) :
    (∀ pre, pre <+: events → OneObjectEach (seated n pre) (latestCapabilities pre)) ↔
      ∀ pre e, pre ++ [e] <+: events → OffersLast pre e := by
  constructor
  · rintro hone pre e hpre c rfl earlier hearlier device hoffered
    have hcount : 0 < pre.countP (SeatEvent.offers device) :=
      List.countP_pos_iff.mpr ⟨_, hearlier, decide_eq_true hoffered⟩
    have hafter := hone _ hpre
    have hmost := hafter.at_most_one device
    have hiff := hafter.one_iff device
    rw [length_receivers_seated, List.countP_append, List.countP_singleton] at hmost hiff
    rw [latestCapabilities_concat_capabilities] at hiff
    simp only [SeatEvent.offers, decide_eq_true_eq] at hmost hiff
    -- the earlier object is still there: it is one too many if the device is offered again, and one if it is not
    by_cases hagain : Advertises c device
    · rw [if_pos hagain] at hmost
      omega
    · rw [if_neg hagain] at hmost hiff
      exact hagain (hiff.mp (by omega))
  · intro hlast pre hpre
    have hcount (device : Device) : ((seated n pre).receivers device).length =
        if Advertises (latestCapabilities pre) device then 1 else 0 := by
      rw [length_receivers_seated]
      exact count_of_offersLast (fun p e hp => hlast p e (hp.trans hpre)) device
    constructor
    · intro device
      rw [hcount]
      split
      · exact Nat.le_refl 1
      · exact Nat.zero_le 1
    · intro device
      rw [hcount]
      split
      · rename_i hoffered
        exact iff_of_true rfl hoffered
      · rename_i hoffered
        exact iff_of_false (by decide) hoffered
    · intro e hoffered
      apply SeatClient.deliver_of_one
      rw [hcount, if_pos hoffered]

/-- A seat with a pointer that gains a keyboard; then the pointer enters a surface. -/
def keyboardPlugged : List SeatEvent :=
  [.capabilities 1, .capabilities 3, .input (.pointer (.enter 5 (some 7) 0 0))]

/-- The client has two pointers, and is told twice that the pointer enters the surface. -/
theorem two_pointers :
    ¬ (∀ pre, pre <+: keyboardPlugged → OneObjectEach (seated {} pre) (latestCapabilities pre)) ∧
      ((seated {} (keyboardPlugged.take 2)).deliver (.pointer (.enter 5 (some 7) 0 0))).2.length = 2 := by
  constructor
  · intro hone
    exact absurd ((hone (keyboardPlugged.take 2) (List.take_prefix _ _)).at_most_one .pointer) (by decide)
  · decide +kernel

end Wlcs
