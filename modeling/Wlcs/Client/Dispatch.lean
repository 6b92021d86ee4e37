import Wlcs.Client.Pointer
import Wlcs.Client.Touch
import Wlcs.Lib.Machine
import Wlcs.Lib.History

/-!
# Dispatching input events

`tracker` is the client as a machine fed with `wl_pointer` and `wl_touch` events in the order in which they arrive.
`Quiet` says that no listener of a run took a `FAIL()`. The pointer members depend only on the pointer events of the
stream and the touch members only on its touch events (`dispatch_touch_pointer`, `dispatch_pointer_touch`).
-/

namespace Wlcs
open EventMachine History

inductive PointerEvent
  | enter (serial : Nat) (surface : SurfacePtr) (x y : WlFixed)
  | leave (serial : Nat) (surface : SurfacePtr)
  | motion (time : Nat) (x y : WlFixed)
  | button (serial time button state : Nat)
  | frame
deriving DecidableEq, Repr

inductive TouchEvent
  | down (serial time : Nat) (surface : SurfacePtr) (id : Int) (x y : WlFixed)
  | up (serial time : Nat) (id : Int)
  | motion (time : Nat) (id : Int) (x y : WlFixed)
  | frame
deriving DecidableEq, Repr

inductive Event
  | pointer (e : PointerEvent)
  | touch (e : TouchEvent)
deriving DecidableEq, Repr

/-- `pointer_listener` -/
def Impl.dispatchPointer (me : Impl) : PointerEvent → Impl × Report
  | .enter serial surface x y => me.pointerEnter serial surface x y
  | .leave serial surface => me.pointerLeave serial surface
  | .motion time x y => me.pointerMotion time x y
  | .button serial time button state => me.pointerButton serial time button state
  | .frame => me.pointerFrame

/-- `touch_listener` -/
def Impl.dispatchTouch (me : Impl) : TouchEvent → Impl × Report
  | .down serial time surface id x y => me.touchDown serial time surface id x y
  | .up serial time id => me.touchUp serial time id
  | .motion time id x y => me.touchMotion time id x y
  | .frame => me.touchFrame

def Impl.dispatch (me : Impl) : Event → Impl × Report
  | .pointer e => me.dispatchPointer e
  | .touch e => me.dispatchTouch e

/-- The client, fed with input events. -/
def tracker : Transducer Impl Event Report where
  step := Impl.dispatch

/-- The client after the events `es`. -/
def after (n : Notifiers) (es : List Event) : Impl := tracker.run (Impl.fresh n) es

/-- The client after a stream of `wl_pointer` events only. -/
def afterPointer (n : Notifiers) (ps : List PointerEvent) : Impl := after n (ps.map .pointer)

/-- The client after a stream of `wl_touch` events only. -/
def afterTouch (n : Notifiers) (ts : List TouchEvent) : Impl := after n (ts.map .touch)

def Report.Failed (r : Report) : Prop := r.failure.isSome

/-- No listener takes a `FAIL()` branch on the stream. -/
def Quiet (n : Notifiers) (es : List Event) : Prop := tracker.Clean Report.Failed (Impl.fresh n) es

/-- No handler fails on a stream of `wl_pointer` events only. -/
def QuietPointer (n : Notifiers) (ps : List PointerEvent) : Prop := Quiet n (ps.map .pointer)

/-- No handler fails on a stream of `wl_touch` events only. -/
def QuietTouch (n : Notifiers) (ts : List TouchEvent) : Prop := Quiet n (ts.map .touch)

instance : DecidablePred Report.Failed := fun r => inferInstanceAs (Decidable (r.failure.isSome = true))

instance (n : Notifiers) (es : List Event) : Decidable (Quiet n es) :=
  inferInstanceAs (Decidable (tracker.Clean Report.Failed (Impl.fresh n) es))

instance (n : Notifiers) (ps : List PointerEvent) : Decidable (QuietPointer n ps) :=
  inferInstanceAs (Decidable (Quiet n (ps.map .pointer)))

instance (n : Notifiers) (ts : List TouchEvent) : Decidable (QuietTouch n ts) :=
  inferInstanceAs (Decidable (Quiet n (ts.map .touch)))

def PointerEvent.isFrame : PointerEvent → Bool
  | .frame => true
  | _ => false

def TouchEvent.isFrame : TouchEvent → Bool
  | .frame => true
  | _ => false

def Event.pointer? : Event → Option PointerEvent
  | .pointer e => some e
  | .touch _ => none

def Event.touch? : Event → Option TouchEvent
  | .touch e => some e
  | .pointer _ => none

/-- The `wl_pointer` events of a stream. -/
def pointerEvents (es : List Event) : List PointerEvent := es.filterMap Event.pointer?

/-- The `wl_touch` events of a stream. -/
def touchEvents (es : List Event) : List TouchEvent := es.filterMap Event.touch?

section Projections
variable (es : List Event)

@[simp] theorem pointerEvents_concat_pointer (e : PointerEvent) :
    pointerEvents (es ++ [.pointer e]) = pointerEvents es ++ [e] := by
  simp [pointerEvents, Event.pointer?]

@[simp] theorem pointerEvents_concat_touch (e : TouchEvent) :
    pointerEvents (es ++ [.touch e]) = pointerEvents es := by
  simp [pointerEvents, Event.pointer?]

@[simp] theorem touchEvents_concat_touch (e : TouchEvent) :
    touchEvents (es ++ [.touch e]) = touchEvents es ++ [e] := by
  simp [touchEvents, Event.touch?]

@[simp] theorem touchEvents_concat_pointer (e : PointerEvent) :
    touchEvents (es ++ [.pointer e]) = touchEvents es := by
  simp [touchEvents, Event.touch?]

@[simp] theorem pointerEvents_map_pointer (ps : List PointerEvent) :
    pointerEvents (ps.map .pointer) = ps := by
  induction ps with
  | nil => rfl
  | cons p ps ih => simpa [pointerEvents, Event.pointer?] using ih

@[simp] theorem touchEvents_map_touch (ts : List TouchEvent) : touchEvents (ts.map .touch) = ts := by
  induction ts with
  | nil => rfl
  | cons t ts ih => simpa [touchEvents, Event.touch?] using ih

end Projections

section Runs
variable (n : Notifiers)

@[simp] theorem after_concat (es : List Event) (e : Event) :
    after n (es ++ [e]) = ((after n es).dispatch e).1 :=
  tracker.run_concat _ es e

theorem afterPointer_concat (ps : List PointerEvent) (e : PointerEvent) :
    afterPointer n (ps ++ [e]) = ((afterPointer n ps).dispatchPointer e).1 := by
  rw [afterPointer, List.map_append, List.map_singleton, after_concat]
  rfl

theorem afterTouch_concat (ts : List TouchEvent) (e : TouchEvent) :
    afterTouch n (ts ++ [e]) = ((afterTouch n ts).dispatchTouch e).1 := by
  rw [afterTouch, List.map_append, List.map_singleton, after_concat]
  rfl

theorem failure_eq_none {r : Report} (h : ¬ r.Failed) : r.failure = none := Option.not_isSome_iff_eq_none.mp h

theorem Quiet.restrict {n : Notifiers} {es fs : List Event} (h : Quiet n fs) (hp : es <+: fs) : Quiet n es :=
  Transducer.Clean.restrict h hp

theorem QuietPointer.restrict {n : Notifiers} {ps qs : List PointerEvent} (h : QuietPointer n qs) (hp : ps <+: qs) :
    QuietPointer n ps := Quiet.restrict h (hp.map _)

theorem QuietTouch.restrict {n : Notifiers} {ts us : List TouchEvent} (h : QuietTouch n us) (hp : ts <+: us) :
    QuietTouch n ts := Quiet.restrict h (hp.map _)

theorem QuietPointer.failure {n : Notifiers} {ps : List PointerEvent} {e : PointerEvent}
    (h : QuietPointer n (ps ++ [e])) : ((afterPointer n ps).dispatchPointer e).2.failure = none := by
  rw [QuietPointer, List.map_append, List.map_singleton] at h
  exact failure_eq_none (Transducer.clean_concat.mp h).2

/-- An invariant of the runs without a failure. -/
theorem quiet_induction {P : List Event → Impl → Prop} (init : P [] (Impl.fresh n))
    (pointer : ∀ es e me, P es me → (me.dispatchPointer e).2.failure = none →
      P (es ++ [.pointer e]) (me.dispatchPointer e).1)
    (touch : ∀ es e me, P es me → (me.dispatchTouch e).2.failure = none →
      P (es ++ [.touch e]) (me.dispatchTouch e).1)
    {es : List Event} (h : Quiet n es) : P es (after n es) := by
  refine Transducer.clean_induction init (fun es e ih hok => ?_) h
  cases e with
  | pointer e => exact pointer es e _ ih (failure_eq_none hok)
  | touch e => exact touch es e _ ih (failure_eq_none hok)

end Runs

/-! ## Which listener writes which members -/

theorem dispatch_touch_pointer (me : Impl) (e : TouchEvent) :
    (me.dispatchTouch e).1.toPointerTracking = me.toPointerTracking ∧
      (me.dispatchTouch e).1.toNotifiers = me.toNotifiers := by
  cases e with
  | down serial time surface id x y =>
      simp only [Impl.dispatchTouch, Impl.touchDown]
      split <;> exact ⟨rfl, rfl⟩
  | up serial time id =>
      simp only [Impl.dispatchTouch, Impl.touchUp]
      split <;> exact ⟨rfl, rfl⟩
  | motion time id x y =>
      simp only [Impl.dispatchTouch, Impl.touchMotion]
      split <;> exact ⟨rfl, rfl⟩
  | frame => exact ⟨rfl, rfl⟩

theorem frameLeave_touch {me me' : Impl} {ns : List Notification} (h : me.frameLeave = .ok (me', ns)) :
    me'.toTouchTracking = me.toTouchTracking := by
  unfold Impl.frameLeave at h
  split at h
  · split at h
    · cases h
    · cases h
      rfl
  · cases h
    rfl

theorem frameLocation_touch (me : Impl) : me.frameLocation.1.toTouchTracking = me.toTouchTracking := by
  unfold Impl.frameLocation
  split
  · rfl
  · dsimp only
    split <;> rfl

theorem frameButtons_touch (me : Impl) : me.frameButtons.1.toTouchTracking = me.toTouchTracking := by
  unfold Impl.frameButtons
  split <;> rfl

theorem pointerFrame_touch (me : Impl) : me.pointerFrame.1.toTouchTracking = me.toTouchTracking := by
  unfold Impl.pointerFrame
  split
  · rfl
  · rename_i me' left h
    exact (frameButtons_touch _).trans ((frameLocation_touch _).trans (frameLeave_touch h))

/-- The events other than `frame` concern the pointer members only. -/
theorem dispatchPointer_other (me : Impl) {e : PointerEvent} (h : e ≠ .frame) :
    (me.dispatchPointer e).1.toTouchTracking = me.toTouchTracking ∧
      (me.dispatchPointer e).1.toNotifiers = me.toNotifiers := by
  cases e with
  | enter serial surface x y =>
      simp only [Impl.dispatchPointer, Impl.pointerEnter]
      split <;> exact ⟨rfl, rfl⟩
  | leave serial surface =>
      simp only [Impl.dispatchPointer, Impl.pointerLeave]
      split
      · exact ⟨rfl, rfl⟩
      · split <;> exact ⟨rfl, rfl⟩
  | motion time x y =>
      simp only [Impl.dispatchPointer, Impl.pointerMotion]
      split <;> exact ⟨rfl, rfl⟩
  | button serial time button state => exact ⟨rfl, rfl⟩
  | frame => exact absurd rfl h

theorem dispatch_pointer_touch (me : Impl) (e : PointerEvent) :
    (me.dispatchPointer e).1.toTouchTracking = me.toTouchTracking := by
  by_cases h : e = .frame
  · subst h
    exact pointerFrame_touch me
  · exact (dispatchPointer_other me h).1

end Wlcs
