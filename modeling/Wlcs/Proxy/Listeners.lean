import Wlcs.Lib.Machine
import Wlcs.Lib.Store

/-!
# Listeners that may be gone

A listener class keeps the addresses of its living listeners in a static `ActiveListeners`. A proxy keeps the address of
the listener it was given for ever, and the thunks of the class ask the set before they call the listener.

* `ClassState` : the set, what lives where, and what the proxies keep;
* `ClassState.thunk` : the thunks, which all have one shape;
* `liveness_filter_iff` : when an event reaches the listener of its object.
-/

namespace Wlcs.Listeners
open EventMachine

/-- A `void*` -/
abbrev Address := Nat

/-- A Wayland object that events arrive on. -/
abbrev Object := Nat

/-! ## `ActiveListeners` -/

structure ActiveListeners where
  listeners : Std.TreeSet Address := {}

namespace ActiveListeners

def add (me : ActiveListeners) (listener : Address) : ActiveListeners := ⟨me.listeners.insert listener⟩

def del (me : ActiveListeners) (listener : Address) : ActiveListeners := ⟨me.listeners.erase listener⟩

def includes (me : ActiveListeners) (listener : Address) : Bool := me.listeners.contains listener

theorem includes_add (me : ActiveListeners) (a b : Address) :
    (me.add a).includes b = (decide (a = b) || me.includes b) := by
  unfold includes add
  rw [Std.TreeSet.contains_insert]
  by_cases h : a = b
  · simp [h]
  · simp [h]

theorem includes_del (me : ActiveListeners) (a b : Address) :
    (me.del a).includes b = (decide (a ≠ b) && me.includes b) := by
  unfold includes del
  rw [Std.TreeSet.contains_erase]
  by_cases h : a = b
  · simp [h]
  · simp [h]

end ActiveListeners

/-! ## The events of the classes -/

inductive DataDeviceEvent
  | dataOffer (id : Object)
  | enter (serial : Nat) (surface : Option Object) (x y : Int) (id : Option Object)
  | leave
  | motion (time : Nat) (x y : Int)
  | drop
  | selection (id : Option Object)
deriving DecidableEq, Repr

inductive DataOfferEvent
  | offer (mimeType : String)
  | sourceActions (dndActions : Nat)
  | action (dndAction : Nat)
deriving DecidableEq, Repr

inductive PrimarySelectionDeviceEvent
  | dataOffer (offer : Object)
  | selection (offer : Option Object)
deriving DecidableEq, Repr

inductive PrimarySelectionOfferEvent
  | offer (mimeType : String)
deriving DecidableEq, Repr

inductive PrimarySelectionSourceEvent
  | send (mimeType : String) (fd : Int)
  | cancelled
deriving DecidableEq, Repr

/-! ## The listeners of one class -/

/-- What a proxy keeps: the address it was given, and whose it was. -/
structure Attachment where
  listener : Nat
  data : Address
deriving DecidableEq, Repr

/-- The listeners of one class, numbered in the order of their construction. -/
structure ClassState where
  activeListeners : ActiveListeners := {}
  made : Nat := 0
  /-- the listener that lives at an address -/
  memory : Address → Option Nat := fun _ => none
  proxies : Object → Option Attachment := fun _ => none

/-- A call of a virtual handler. -/
structure Call (E : Type*) where
  listener : Nat
  object : Object
  event : E
deriving DecidableEq, Repr

inductive Action (E : Type*)
  /-- `DataOfferListener()`; the allocator chooses the address -/
  | construct (address : Address)
  /-- `DataDeviceListener(data_device)` -/
  | constructOn (address : Address) (object : Object)
  | listenTo (address : Address) (object : Object)
  | destroy (address : Address)
  | event (object : Object) (e : E)
deriving DecidableEq, Repr

namespace ClassState
variable {E : Type*}

/-- `wl_proxy_add_listener`, which fails if the proxy already has a listener. -/
def addListener (s : ClassState) (object : Object) (att : Attachment) : ClassState :=
  if (s.proxies object).isSome then s else { s with proxies := Function.update s.proxies object (some att) }

def construct (s : ClassState) (address : Address) : ClassState :=
  { s with
    activeListeners := s.activeListeners.add address
    made := s.made + 1
    memory := Function.update s.memory address (some s.made) }

def constructOn (s : ClassState) (address : Address) (object : Object) : ClassState :=
  (s.construct address).addListener object ⟨s.made, address⟩

def destroy (s : ClassState) (address : Address) : ClassState :=
  { s with
    activeListeners := s.activeListeners.del address
    memory := Function.update s.memory address none }

/-- The shape of every thunk: `static_cast` takes whatever lives at the address for the listener. -/
def thunk (s : ClassState) (data : Address) (object : Object) (e : E) : Option (Call E) :=
  if s.activeListeners.includes data then (s.memory data).map fun listener => ⟨listener, object, e⟩ else none

/-- libwayland calls the thunk of the event with the data that the proxy keeps. -/
def dispatch (s : ClassState) (object : Object) (e : E) : Option (Call E) :=
  (s.proxies object).bind fun att => s.thunk att.data object e

/-- The allocator never gives out the address of what lives. -/
def step (s : ClassState) : Action E → Option ClassState
  | .construct address => if (s.memory address).isSome then none else some (s.construct address)
  | .constructOn address object => if (s.memory address).isSome then none else some (s.constructOn address object)
  | .listenTo address object => (s.memory address).map fun listener => s.addListener object ⟨listener, address⟩
  | .destroy address => if (s.memory address).isSome then some (s.destroy address) else none
  | .event _ _ => some s

end ClassState

/-- The runs of a listener class. -/
def listenerClass (E : Type*) : Guarded ClassState (Action E) where
  step := ClassState.step

/-! ### The thunks of each class -/

section Thunks
variable (s : ClassState) (data : Address)

def DataDeviceListener.thunks (wlDataDevice : Object) (e : DataDeviceEvent) : Option (Call DataDeviceEvent) :=
  s.thunk data wlDataDevice e

def DataOfferListener.thunks (dataOffer : Object) (e : DataOfferEvent) : Option (Call DataOfferEvent) :=
  s.thunk data dataOffer e

def PrimarySelectionDeviceListener.thunks (device : Object) (e : PrimarySelectionDeviceEvent) : Option (Call PrimarySelectionDeviceEvent) :=
  s.thunk data device e

def PrimarySelectionOfferListener.thunks (offer : Object) (e : PrimarySelectionOfferEvent) : Option (Call PrimarySelectionOfferEvent) :=
  s.thunk data offer e

def PrimarySelectionSourceListener.thunks (source : Object) (e : PrimarySelectionSourceEvent) : Option (Call PrimarySelectionSourceEvent) :=
  s.thunk data source e

end Thunks

/-! ## Who is reached -/

section Reached
variable {E : Type*} {s t : ClassState}

def Alive (s : ClassState) (listener : Nat) : Prop := ∃ address, s.memory address = some listener

/-- An event on the object reaches the listener attached to it if that lives, and nothing else. -/
def ReachesOwn (s : ClassState) (object : Object) (e : E) : Prop :=
  ∀ call, s.dispatch object e = some call ↔
    ∃ att, s.proxies object = some att ∧ Alive s att.listener ∧ call = ⟨att.listener, object, e⟩

/-- Another listener lives at the address of the one that was attached to the object. -/
def Usurped (s : ClassState) (object : Object) : Prop :=
  ∃ att listener, s.proxies object = some att ∧ s.memory att.data = some listener ∧ listener ≠ att.listener

/-- The set holds the addresses at which listeners live, and a listener lives nowhere but where it was made. -/
structure Kept (s : ClassState) : Prop where
  includes_iff : ∀ a, s.activeListeners.includes a = (s.memory a).isSome
  made_lt : ∀ a l, s.memory a = some l → l < s.made
  attached_lt : ∀ d att, s.proxies d = some att → att.listener < s.made
  address_eq : ∀ d att a, s.proxies d = some att → s.memory a = some att.listener → a = att.data
  memory_inj : ∀ a b l, s.memory a = some l → s.memory b = some l → a = b

theorem Kept.empty : Kept {} where
  includes_iff _ := rfl
  made_lt a l h := by cases h
  attached_lt d att h := by cases h
  address_eq d att a h := by cases h
  memory_inj a b l h := by cases h

theorem Kept.store (h : Kept s) : Store.Numbered id s.made s.memory where
  lt := h.made_lt
  inj a b l l' ha hb heq := by
    obtain rfl : l = l' := heq
    exact h.memory_inj a b l ha hb

theorem Kept.addListener (h : Kept s) {object : Object} {att : Attachment}
    (hatt : s.memory att.data = some att.listener) : Kept (s.addListener object att) := by
  unfold ClassState.addListener
  split
  · exact h
  · refine ⟨h.includes_iff, h.made_lt, fun d att' hd => ?_, fun d att' a hd ha => ?_, h.memory_inj⟩
    · rcases Store.put_eq_some_iff.mp hd with ⟨-, rfl⟩ | ⟨-, hd⟩
      · exact h.made_lt _ _ hatt
      · exact h.attached_lt d att' hd
    · rcases Store.put_eq_some_iff.mp hd with ⟨-, rfl⟩ | ⟨-, hd⟩
      · exact h.memory_inj a att.data _ ha hatt
      · exact h.address_eq d att' a hd ha

theorem Kept.construct (h : Kept s) (address : Address) : Kept (s.construct address) := by
  have hstore : Store.Numbered id (s.made + 1) (Function.update s.memory address (some s.made)) := h.store.put rfl
  refine ⟨fun a => ?_, hstore.lt, fun d att hd => ?_, fun d att a hd ha => ?_, fun a b l ha hb => ?_⟩
  · show (s.activeListeners.add address).includes a = (Function.update s.memory address (some s.made) a).isSome
    rw [ActiveListeners.includes_add, h.includes_iff]
    by_cases haddress : a = address
    · rw [haddress, Function.update_self]
      simp
    · rw [Function.update_of_ne haddress]
      simp [Ne.symm haddress]
  · exact Nat.lt_succ_of_lt (h.attached_lt d att hd)
  · rcases Store.put_eq_some_iff.mp ha with ⟨-, hl⟩ | ⟨-, ha⟩
    · -- the new listener has a number that no proxy knows yet
      have : att.listener < s.made := h.attached_lt d att hd
      omega
    · exact h.address_eq d att a hd ha
  · exact hstore.inj a b l l ha hb rfl

theorem Kept.destroy (h : Kept s) (address : Address) : Kept (s.destroy address) := by
  have hstore := h.store.take address
  refine ⟨fun a => ?_, hstore.lt, h.attached_lt, fun d att a hd ha => ?_, fun a b l ha hb => ?_⟩
  · show (s.activeListeners.del address).includes a = (Function.update s.memory address none a).isSome
    rw [ActiveListeners.includes_del, h.includes_iff]
    by_cases haddress : a = address
    · rw [haddress, Function.update_self]
      simp
    · rw [Function.update_of_ne haddress]
      simp [Ne.symm haddress]
  · exact h.address_eq d att a hd (Store.take_eq_some_iff.mp ha).2
  · exact hstore.inj a b l l ha hb rfl

theorem Kept.step {a : Action E} (h : Kept s) (hstep : s.step a = some t) : Kept t := by
  cases a with
  | construct address =>
      obtain ⟨-, heq⟩ := Option.ite_none_left_eq_some.mp hstep
      obtain rfl := Option.some.inj heq
      exact h.construct address
  | constructOn address object =>
      obtain ⟨-, heq⟩ := Option.ite_none_left_eq_some.mp hstep
      obtain rfl := Option.some.inj heq
      apply (h.construct address).addListener
      exact Function.update_self address (some s.made) s.memory
  | listenTo address object =>
      obtain ⟨listener, hlistener, rfl⟩ := Option.map_eq_some_iff.mp hstep
      exact h.addListener hlistener
  | destroy address =>
      obtain ⟨-, heq⟩ := Option.ite_none_right_eq_some.mp hstep
      obtain rfl := Option.some.inj heq
      exact h.destroy address
  | event object e =>
      obtain rfl := Option.some.inj hstep
      exact h

theorem run_kept (as : List (Action E)) (t : ClassState) (hrun : (listenerClass E).exec {} as = some t) : Kept t :=
  (listenerClass E).exec_induction (P := fun _ t => Kept t) Kept.empty (fun _ _ _ _ _ hu hstep => hu.step hstep) as t
    hrun

/-- The handler that an event reaches is that of whoever lives at the address. -/
theorem dispatch_eq_some (h : Kept s) {object : Object} {e : E} {call : Call E} :
    s.dispatch object e = some call ↔
      ∃ att listener, s.proxies object = some att ∧ s.memory att.data = some listener ∧
        call = ⟨listener, object, e⟩ := by
  unfold ClassState.dispatch ClassState.thunk
  rw [Option.bind_eq_some_iff]
  constructor
  · rintro ⟨att, hatt, hcall⟩
    obtain ⟨-, hcall⟩ := Option.ite_none_right_eq_some.mp hcall
    obtain ⟨listener, hlistener, rfl⟩ := Option.map_eq_some_iff.mp hcall
    exact ⟨att, listener, hatt, hlistener, rfl⟩
  · rintro ⟨att, listener, hatt, hlistener, rfl⟩
    refine ⟨att, hatt, ?_⟩
    rw [h.includes_iff, hlistener]
    rfl

theorem reachesOwn_iff (h : Kept s) (object : Object) (e : E) : ReachesOwn s object e ↔ ¬ Usurped s object := by
  constructor
  · rintro hown ⟨att, listener, hatt, hlistener, hne⟩
    have hcall := (dispatch_eq_some h (e := e)).mpr ⟨att, listener, hatt, hlistener, rfl⟩
    obtain ⟨att', hatt', -, heq⟩ := (hown _).mp hcall
    obtain rfl := Option.some.inj (hatt.symm.trans hatt')
    exact hne (congrArg Call.listener heq)
  · intro hnot call
    rw [dispatch_eq_some h]
    constructor
    · rintro ⟨att, listener, hatt, hlistener, rfl⟩
      obtain rfl : listener = att.listener := by
        by_contra hne
        exact hnot ⟨att, listener, hatt, hlistener, hne⟩
      exact ⟨att, hatt, ⟨att.data, hlistener⟩, rfl⟩
    · rintro ⟨att, hatt, ⟨address, haddress⟩, rfl⟩
      obtain rfl := h.address_eq object att address hatt haddress
      exact ⟨att, att.listener, hatt, haddress, rfl⟩

/-- **An event reaches the listener of its object, if that lives, and no other**, in every run, exactly when no event
comes for an object whose listener is gone while another one lives at its address. -/
theorem liveness_filter_iff (as : List (Action E)) :
    (listenerClass E).Along (fun s a => ∀ object e, a = .event object e → ReachesOwn s object e) {} as ↔
      (listenerClass E).Along (fun s a => ∀ object e, a = .event object e → ¬ Usurped s object) {} as := by
  constructor
  · intro hall pre a u hpre hu object e ha
    exact (reachesOwn_iff (run_kept pre u hu) object e).mp (hall pre a u hpre hu object e ha)
  · intro hall pre a u hpre hu object e ha
    exact (reachesOwn_iff (run_kept pre u hu) object e).mpr (hall pre a u hpre hu object e ha)

/-- A data device whose listener is gone: its events go to the listener that was made at the same address. -/
theorem wrong_listener_reached :
    ((listenerClass DataDeviceEvent).exec {} [.constructOn 100 1, .destroy 100, .constructOn 100 2]).map
        (fun s => (s.proxies 1, s.dispatch 1 DataDeviceEvent.drop)) =
      some (some ⟨0, 100⟩, some ⟨1, 1, .drop⟩) ∧
    ¬ (listenerClass DataDeviceEvent).Along (fun s a => ∀ object e, a = .event object e → ReachesOwn s object e) {}
      [.constructOn 100 1, .destroy 100, .constructOn 100 2, .event 1 .drop] := by
  refine ⟨by decide, fun hall => ?_⟩
  have hown := hall [.constructOn 100 1, .destroy 100, .constructOn 100 2] (.event 1 .drop) _ (List.prefix_refl _) rfl 1
    .drop rfl
  obtain ⟨att, hatt, -, hcall⟩ := (hown ⟨1, 1, .drop⟩).mp (by decide)
  obtain rfl : att = ⟨0, 100⟩ := by
    apply Option.some.inj
    rw [← hatt]
    decide
  cases hcall

end Reached

end Wlcs.Listeners
