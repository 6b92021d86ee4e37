import Wlcs.Input.Method

/-!
# Both input methods are the device of the tests

A client rests when no event waits for its frame. From there the events that a compositor sends for one hook take it to
another resting place, wherever their frames are.

* `Rests`, `Touched` : what a resting client has been told;
* `methods_refine_iff` : the pointer is the device of the tests, and so is a touch screen whose coordinates are read as
  pixels.
-/

namespace Wlcs.Input
open Server History EventMachine

/-- One more event is accepted. -/
theorem quiet_concat {n : Notifiers} {es : List Event} {e : Event} (h : Quiet n es)
    (he : ((after n es).dispatch e).2.failure = none) : Quiet n (es ++ [e]) := by
  refine Transducer.clean_concat.mpr ⟨h, fun hfailed => ?_⟩
  rw [Report.Failed, show (tracker.step (tracker.run (Impl.fresh n) es) e).2.failure = none from he] at hfailed
  cases hfailed

/-- What every step with the event comes to, the client comes to. -/
theorem pointer_concat {n : Notifiers} {es : List Event} {e : PointerEvent} {P : PointerTracking → Prop} (h : Quiet n es)
    (hstep : ∀ t f ns, PointerStep (after n es).toPointerTracking e t f ns → f = none ∧ P t) :
    Quiet n (es ++ [.pointer e]) ∧ P (after n (es ++ [.pointer e])).toPointerTracking := by
  obtain ⟨hfailure, hnext⟩ := hstep _ _ _ (dispatchPointer_step (after n es) e)
  rw [after_concat]
  exact ⟨quiet_concat h hfailure, hnext⟩

theorem touch_concat {n : Notifiers} {es : List Event} {e : TouchEvent} {P : TouchTracking → Prop} (h : Quiet n es)
    (hstep : ∀ t f, TouchStep (after n es).toTouchTracking e t f → f = none ∧ P t) :
    Quiet n (es ++ [.touch e]) ∧ P (after n (es ++ [.touch e])).toTouchTracking := by
  obtain ⟨hfailure, hnext⟩ := hstep _ _ (dispatchTouch_step (after n es) e)
  rw [after_concat]
  exact ⟨quiet_concat h hfailure, hnext⟩

/-! ## The pointer -/

/-- Nothing of the pointer waits for a frame. -/
structure AtRest (location : Option SurfaceLocation) (t : PointerTracking) : Prop where
  current : t.currentPointerLocation = location
  pending : t.pendingPointerLocation = none
  leave : t.pendingPointerLeave = false

/-- The next frame takes the pointer to the location. -/
structure Heading (location : Option SurfaceLocation) (t : PointerTracking) : Prop where
  committed : t.committed = location
  leave : t.pendingPointerLeave = true → t.currentPointerLocation.isSome = true

def Rests (n : Notifiers) (location : Option SurfaceLocation) (es : List Event) : Prop :=
  Quiet n es ∧ AtRest location (after n es).toPointerTracking

def Heads (n : Notifiers) (location : Option SurfaceLocation) (es : List Event) : Prop :=
  Quiet n es ∧ Heading location (after n es).toPointerTracking

section Pointer
variable {n : Notifiers} {location : Option SurfaceLocation} {es : List Event}

theorem Rests.heads (h : Rests n location es) : Heads n location es := by
  refine ⟨h.1, ?_, fun hleave => ?_⟩
  · rw [PointerTracking.committed, h.2.leave, h.2.pending, h.2.current]
    rfl
  · rw [h.2.leave] at hleave
    cases hleave

theorem Heads.frame (h : Heads n location es) : Rests n location (es ++ [.pointer .frame]) := by
  refine pointer_concat h.1 fun t f ns hstep => ?_
  cases hstep with
  | frameFailed hleave hcurrent =>
      have hinside := h.2.leave hleave
      rw [hcurrent] at hinside
      cases hinside
  | frame hbuttons hinside => exact ⟨rfl, h.2.committed, rfl, rfl⟩

theorem Rests.frames (h : Rests n location es) (k : Nat) :
    Rests n location (es ++ (List.replicate k PointerEvent.frame).map .pointer) := by
  induction k with
  | zero => simpa using h
  | succ k ih =>
      rw [List.replicate_succ', List.map_append, ← List.append_assoc]
      exact ih.heads.frame

theorem Heads.frames_succ (h : Heads n location es) (k : Nat) :
    Rests n location (es ++ (List.replicate (k + 1) PointerEvent.frame).map .pointer) := by
  rw [List.replicate_succ, List.map_cons, List.append_cons]
  exact h.frame.frames k

theorem Heads.frames (h : Heads n location es) (k : Nat) :
    Heads n location (es ++ (List.replicate k PointerEvent.frame).map .pointer) := by
  cases k with
  | zero => simpa using h
  | succ k => exact (h.frames_succ k).heads

/-- The client has left, or is about to. -/
theorem Heads.enter (h : Heads n none es) (serial : Nat) (surface : SurfacePtr) (x y : WlFixed) :
    Heads n (some ⟨surface, (x, y)⟩) (es ++ [.pointer (.enter serial surface x y)]) := by
  refine pointer_concat h.1 fun t f ns hstep => ?_
  cases hstep with
  | enterFailed hcurrent hleave =>
      have hout := h.2.committed
      rw [PointerTracking.committed, hleave, hcurrent] at hout
      cases hpending : (after n es).pendingPointerLocation <;> rw [hpending] at hout <;> cases hout
  | enter hout =>
      refine ⟨rfl, ?_, h.2.leave⟩
      rw [PointerTracking.committed]
      split <;> rfl

theorem Rests.leave {current : SurfaceLocation} (h : Rests n (some current) es) (serial : Nat) :
    Heads n none (es ++ [.pointer (.leave serial current.surface)]) := by
  refine pointer_concat h.1 fun t f ns hstep => ?_
  cases hstep with
  | leaveOutside hcurrent =>
      rw [h.2.current] at hcurrent
      cases hcurrent
  | leaveOther hcurrent hother =>
      rw [h.2.current, Option.some.injEq] at hcurrent
      exact absurd (congrArg _ hcurrent) hother.2
  | leave hcurrent hsame =>
      refine ⟨rfl, rfl, fun _ => ?_⟩
      rw [hcurrent]
      rfl

theorem Rests.motion {current : SurfaceLocation} (h : Rests n (some current) es) (time : Nat) (x y : WlFixed) :
    Heads n (some { current with coordinates := (x, y) }) (es ++ [.pointer (.motion time x y)]) := by
  refine pointer_concat h.1 fun t f ns hstep => ?_
  cases hstep with
  | motionOutside hcurrent hpending =>
      rw [h.2.current] at hcurrent
      cases hcurrent
  | motion hlocation =>
      rw [h.2.pending, h.2.current, Option.none_or, Option.some.injEq] at hlocation
      refine ⟨rfl, ?_, h.heads.2.leave⟩
      rw [PointerTracking.committed, hlocation]
      split <;> rfl

theorem Rests.button (h : Rests n location es) (serial time button state : Nat) :
    Heads n location (es ++ [.pointer (.button serial time button state)]) := by
  refine pointer_concat h.1 fun t f ns hstep => ?_
  cases hstep with
  | button => exact ⟨rfl, h.heads.2.committed, h.heads.2.leave⟩

/-- The location of a pointer at a place, with the focus. -/
def locationAt (focus : Option Target) (place : Place) : Option SurfaceLocation := focus.map (·.location place)

theorem Heads.framed_one {e : PointerEvent} (choice : Choice) (h : Heads n location (es ++ [.pointer e])) :
    Rests n location (es ++ (framed choice .frame [e]).map .pointer) := by
  rw [framed, List.map_cons, List.append_cons]
  exact h.frames_succ choice.more

/-- The events of a motion, with or without another focus. -/
theorem Rests.crossing {old new : Option Target} {before place : Place} (h : Rests n (locationAt old before) es)
    (choice : Choice) :
    Rests n (locationAt new place)
      (es ++ (framed choice .frame (crossing choice old new place)).map .pointer) := by
  unfold Input.crossing
  by_cases hsame : old = new
  · subst hsame
    rw [if_pos rfl]
    cases old with
    | none =>
        have hout : Rests n none es := h
        simpa [framed, locationAt] using hout
    | some target => exact (h.motion _ _ _).framed_one choice
  · rw [if_neg hsame]
    cases old with
    | none =>
        cases new with
        | none => exact absurd rfl hsame
        | some target => exact (h.heads.enter _ _ _ _).framed_one choice
    | some left =>
        cases new with
        | none => exact (h.leave _).framed_one choice
        | some target =>
            -- the enter comes before or after the frame of the leave
            have hleft := (h.leave choice.serial).frames choice.between
            have hentered := (hleft.enter choice.serial (some target.surface) (target.local place).1
              (target.local place).2).framed_one choice
            simpa [framed, List.append_assoc, locationAt, Target.location] using hentered

theorem Rests.seat_button {seat : Seat} (h : Rests n (locationAt seat.focus seat.place) es) (choice : Choice)
    (button : Int) (state : Nat) :
    Rests n (locationAt seat.focus seat.place) (es ++ (seat.button choice button state).map .pointer) := by
  unfold Seat.button
  cases hfocus : seat.focus with
  | none => simpa [framed, hfocus] using h
  | some target =>
      rw [hfocus] at h
      exact (h.button _ _ _ _).framed_one choice

end Pointer

/-! ## Touches -/

/-- The touch with the id. -/
def touchAt (contact : Option (Int × SurfaceLocation)) (i : Int) : Option SurfaceLocation :=
  contact.bind fun touch => if touch.1 = i then some touch.2 else none

/-- The client has this touch and no other, and nothing of a touch waits for a frame. -/
structure Holding (contact : Option (Int × SurfaceLocation)) (t : TouchTracking) : Prop where
  current : ∀ i : Int, t.currentTouches[i]? = touchAt contact i
  pending : ∀ i : Int, t.pendingTouches[i]? = none
  up : ∀ i, i ∉ t.pendingUpTouches

/-- With the next frame the client has this touch and no other. -/
def Grasping (contact : Option (Int × SurfaceLocation)) (t : TouchTracking) : Prop :=
  ∀ i : Int, t.pendingTouches[i]?.or (if i ∈ t.pendingUpTouches then none else t.currentTouches[i]?) = touchAt contact i

def Holds (n : Notifiers) (contact : Option (Int × SurfaceLocation)) (es : List Event) : Prop :=
  Quiet n es ∧ Holding contact (after n es).toTouchTracking

def Grasps (n : Notifiers) (contact : Option (Int × SurfaceLocation)) (es : List Event) : Prop :=
  Quiet n es ∧ Grasping contact (after n es).toTouchTracking

section Touch
variable {n : Notifiers} {contact : Option (Int × SurfaceLocation)} {es : List Event}

theorem Holds.grasps (h : Holds n contact es) : Grasps n contact es := by
  refine ⟨h.1, fun i => ?_⟩
  rw [h.2.pending, if_neg (h.2.up i), Option.none_or, h.2.current]

theorem Grasps.frame (h : Grasps n contact es) : Holds n contact (es ++ [.touch .frame]) := by
  refine touch_concat h.1 fun t f hstep => ?_
  cases hstep with
  | frame =>
      refine ⟨rfl, fun i => ?_, fun i => by simp, fun i => by simp⟩
      rw [frame_currentTouches, h.2 i]

theorem Holds.frames (h : Holds n contact es) (k : Nat) :
    Holds n contact (es ++ (List.replicate k TouchEvent.frame).map .touch) := by
  induction k with
  | zero => simpa using h
  | succ k ih =>
      rw [List.replicate_succ', List.map_append, ← List.append_assoc]
      exact ih.grasps.frame

theorem Grasps.framed_one {e : TouchEvent} (choice : Choice) (h : Grasps n contact (es ++ [.touch e])) :
    Holds n contact (es ++ (framed choice .frame [e]).map .touch) := by
  rw [framed, List.map_cons, List.append_cons, List.replicate_succ, List.map_cons, List.append_cons]
  exact h.frame.frames choice.more

theorem Holds.down (h : Holds n none es) (serial time : Nat) (surface : SurfacePtr) (id : Int) (x y : WlFixed) :
    Grasps n (some (id, ⟨surface, (x, y)⟩)) (es ++ [.touch (.down serial time surface id x y)]) := by
  refine touch_concat h.1 fun t f hstep => ?_
  cases hstep with
  | downFailed hcurrent =>
      rw [h.2.current] at hcurrent
      cases hcurrent
  | down hcurrent =>
      refine ⟨rfl, fun i => ?_⟩
      simp [Std.TreeMap.getElem?_insert, touchAt, h.2.pending, h.2.current, h.2.up]

theorem Holds.motion {id : Int} {touch : SurfaceLocation} (h : Holds n (some (id, touch)) es) (time : Nat)
    (x y : WlFixed) :
    Grasps n (some (id, { touch with coordinates := (x, y) })) (es ++ [.touch (.motion time id x y)]) := by
  have hheld : (after n es).currentTouches[id]? = some touch := by
    rw [h.2.current]
    simp [touchAt]
  refine touch_concat h.1 fun t f hstep => ?_
  cases hstep with
  | motionFailed hcurrent =>
      rw [hheld] at hcurrent
      cases hcurrent
  | motion hcurrent =>
      rw [hheld, Option.some.injEq] at hcurrent
      refine ⟨rfl, fun i => ?_⟩
      by_cases hid : id = i
      · simp [touchAt, hid, hcurrent]
      · simp [Std.TreeMap.getElem?_insert, touchAt, h.2.pending, h.2.current, h.2.up, hid]

theorem Holds.lift {id : Int} {touch : SurfaceLocation} (h : Holds n (some (id, touch)) es) (serial time : Nat) :
    Grasps n none (es ++ [.touch (.up serial time id)]) := by
  have hheld : (after n es).currentTouches[id]? = some touch := by
    rw [h.2.current]
    simp [touchAt]
  refine touch_concat h.1 fun t f hstep => ?_
  cases hstep with
  | upFailed hcurrent =>
      rw [hheld] at hcurrent
      cases hcurrent
  | up hcurrent =>
      refine ⟨rfl, fun i => ?_⟩
      by_cases hid : id = i
      · simp [Std.TreeSet.mem_insert, touchAt, h.2.pending, hid]
      · simp [Std.TreeSet.mem_insert, touchAt, h.2.pending, h.2.current, h.2.up, hid]

end Touch

/-! ## Sessions -/

theorem gripStep_of_outOfTurn {scene : Scene} {grip : Option Grip} {call : Call}
    (h : call.next grip.isSome = none) : gripStep scene grip call = grip := by
  cases call with
  | downAt position =>
      cases grip with
      | none => cases h
      | some g => rfl
  | moveTo position =>
      cases grip with
      | none => rfl
      | some g => cases h
  | up =>
      cases grip with
      | none => rfl
      | some g => cases h

theorem next_eq_isSome {scene : Scene} {grip : Option Grip} {call : Call} {isDown : Bool}
    (h : call.next grip.isSome = some isDown) : isDown = (gripStep scene grip call).isSome := by
  cases call with
  | downAt position =>
      cases grip with
      | none => exact (Option.some.inj h).symm
      | some g => cases h
  | moveTo position =>
      cases grip with
      | none => cases h
      | some g => exact (Option.some.inj h).symm
  | up =>
      cases grip with
      | none => cases h
      | some g => exact (Option.some.inj h).symm

section Sessions
variable {Hook State : Type} {method : InputMethod Hook State} {n : Notifiers} {scene : Scene} {choose : Nat → Choice}

/-- The state of the integration and the events fit what the device holds, and the device knows whether it is down. -/
structure Tracks (Fits : Option Grip → State → List Event → Prop) (method : InputMethod Hook State) (scene : Scene)
    (calls : List Call) (session : Session State) : Prop where
  isDown : session.isDown = (held scene calls).isSome
  failures : session.failures = (outOfTurn scene calls).map (Call.message method.name)
  fits : Fits (held scene calls) session.state session.events

/-- The hooks of a call take what fits before it to what fits after it. -/
def KeepsUp (Fits : Option Grip → State → List Event → Prop) (method : InputMethod Hook State) (scene : Scene)
    (choose : Nat → Choice) (grip : Option Grip) (call : Call) : Prop :=
  ∀ session : Session State, Fits grip session.state session.events →
    Fits (gripStep scene grip call) ((method.hooks call).foldl (Session.serve method scene choose) session).state
      ((method.hooks call).foldl (Session.serve method scene choose) session).events

/-- A method tracks the device if it does at every call that is in turn. -/
theorem tracks_run {Fits : Option Grip → State → List Event → Prop} (hinitial : Fits none method.initial [])
    (hdown : ∀ position, KeepsUp Fits method scene choose none (.downAt position))
    (hmove : ∀ grip position, KeepsUp Fits method scene choose (some grip) (.moveTo position))
    (hup : ∀ grip, KeepsUp Fits method scene choose (some grip) .up) (calls : List Call) :
    Tracks Fits method scene calls (method.run scene choose calls) := by
  have hfailures (hooks : List Hook) (session : Session State) :
      (hooks.foldl (Session.serve method scene choose) session).failures = session.failures := by
    induction hooks generalizing session with
    | nil => rfl
    | cons hook hooks ih => exact ih _
  have hcall (grip : Option Grip) (call : Call) (hturn : call.next grip.isSome ≠ none) :
      KeepsUp Fits method scene choose grip call := by
    cases call with
    | downAt position =>
        cases grip with
        | none => exact hdown position
        | some grip => exact absurd rfl hturn
    | moveTo position =>
        cases grip with
        | none => exact absurd rfl hturn
        | some grip => exact hmove grip position
    | up =>
        cases grip with
        | none => exact absurd rfl hturn
        | some grip => exact hup grip
  induction calls using List.reverseRecOn with
  | nil => exact ⟨rfl, rfl, hinitial⟩
  | append_singleton calls call ih =>
      rw [run_concat, Session.call, ih.isDown]
      cases hnext : call.next (held scene calls).isSome with
      | none =>
          refine ⟨?_, ?_, ?_⟩
          · rw [held_concat, gripStep_of_outOfTurn hnext]
          · rw [outOfTurn, collect_concat, if_pos hnext, List.map_append, ← outOfTurn, ← ih.failures]
            rfl
          · rw [held_concat, gripStep_of_outOfTurn hnext]
            exact ih.fits
      | some isDown =>
          have hturn : call.next (held scene calls).isSome ≠ none := by
            rw [hnext]
            exact Option.some_ne_none _
          refine ⟨?_, ?_, ?_⟩
          · rw [held_concat]
            exact next_eq_isSome hnext
          · rw [outOfTurn, collect_concat, if_neg hturn, Option.toList_none, List.append_nil, ← outOfTurn, ← ih.failures]
            exact hfailures _ _
          · rw [held_concat]
            exact hcall _ call hturn _ ih.fits

end Sessions

/-! ## The pointer as the device -/

/-- The pointer rests where the device is. -/
structure PointerFits (n : Notifiers) (grip : Option Grip) (seat : Seat) (es : List Event) : Prop where
  rests : Rests n (locationAt seat.focus seat.place) es
  pressed : seat.pressed = grip.isSome
  focus : ∀ g ∈ grip, seat.focus = g.target
  place : ∀ g ∈ grip, seat.place = .ofPixels g.position

theorem rests_hook {n : Notifiers} {scene : Scene} {seat : Seat} {es : List Event}
    (h : Rests n (locationAt seat.focus seat.place) es) (choice : Choice) (hook : PointerHook) :
    Rests n (locationAt (seat.hook scene choice hook).1.focus (seat.hook scene choice hook).1.place)
      (es ++ (seat.hook scene choice hook).2.map .pointer) := by
  cases hook with
  | moveAbsolute x y => exact h.crossing choice
  | moveRelative dx dy => exact h.crossing choice
  | buttonDown button => exact h.seat_button choice button 1
  | buttonUp button =>
      rw [Seat.hook, List.map_append, ← List.append_assoc]
      by_cases hfocus : (if choice.refocuses then scene.hit seat.place else seat.focus) = seat.focus
      · simp only [hfocus, if_true, List.map_nil, List.append_nil]
        exact h.seat_button choice button 0
      · simp only [hfocus, if_false]
        exact (h.seat_button choice button 0).crossing choice
  | destroy => simpa [Seat.hook] using h

theorem rests_nil (n : Notifiers) : Rests n none [] := ⟨Transducer.clean_nil, rfl, rfl, rfl⟩

theorem pointer_tracks (n : Notifiers) (scene : Scene) (choose : Nat → Choice) (calls : List Call) :
    Tracks (PointerFits n) pointerInputMethod scene calls (pointerInputMethod.run scene choose calls) := by
  refine tracks_run ⟨rests_nil n, rfl, by simp, by simp⟩ ?_ ?_ ?_ calls
  · intro position session h
    refine ⟨rests_hook (rests_hook h.rests _ _) _ _, rfl, ?_, ?_⟩
    · intro g hg
      obtain rfl := Option.some.inj hg
      show (if session.state.pressed = true then session.state.focus else scene.hit _) = scene.hit _
      rw [h.pressed]
      rfl
    · intro g hg
      obtain rfl := Option.some.inj hg
      rfl
  · intro grip position session h
    refine ⟨rests_hook h.rests _ _, h.pressed, ?_, ?_⟩
    · intro g hg
      obtain rfl := Option.some.inj hg
      -- the button is down
      show (if session.state.pressed = true then session.state.focus else scene.hit _) = grip.target
      rw [h.pressed]
      exact h.focus grip rfl
    · intro g hg
      obtain rfl := Option.some.inj hg
      rfl
  · intro grip session h
    exact ⟨rests_hook h.rests _ _, rfl, by simp [gripStep], by simp [gripStep]⟩

/-! ## A touch as the device -/

/-- The client has the touch where the device is. -/
def TouchFits (n : Notifiers) (grip : Option Grip) (contact : Contact) (es : List Event) : Prop :=
  contact.map (·.2) = grip.bind (·.target) ∧
    Holds n (contact.bind fun touch => grip.map fun g => (touch.1, touch.2.location (.ofPixels g.position))) es

theorem holds_nil (n : Notifiers) : Holds n none [] := by
  refine ⟨Transducer.clean_nil, fun i => ?_, fun i => ?_, fun i => ?_⟩
  · simp [after, Impl.fresh, touchAt]
  · simp [after, Impl.fresh]
  · simp [after, Impl.fresh]

theorem touch_tracks (n : Notifiers) (scene : Scene) (choose : Nat → Choice) (calls : List Call) :
    Tracks (TouchFits n) (touchInputMethod .pixels) scene calls ((touchInputMethod .pixels).run scene choose calls) := by
  refine tracks_run ⟨rfl, holds_nil n⟩ ?_ ?_ ?_ calls
  · rintro position session ⟨hcontact, hholds⟩
    have hup : session.state = none := by simpa using hcontact
    rw [hup] at hholds
    show TouchFits n (some ⟨scene.hit (.ofPixels position), position⟩)
      ((scene.hit (.ofPixels position)).map ((choose session.served).id, ·))
      (session.events ++ (framed (choose session.served) .frame _).map .touch)
    cases hhit : scene.hit (.ofPixels position) with
    | none => exact ⟨by simp, by simpa [TouchWords.place, hhit, framed] using hholds⟩
    | some target =>
        refine ⟨rfl, ?_⟩
        rw [TouchWords.place, hhit]
        exact (hholds.down _ _ _ _ _ _).framed_one _
  · rintro grip position session ⟨hcontact, hholds⟩
    refine ⟨hcontact, ?_⟩
    show Holds n (session.state.bind fun touch => some (touch.1, touch.2.location (.ofPixels position)))
      (session.events ++ (framed (choose session.served) .frame (session.state.toList.map _)).map .touch)
    cases hstate : session.state with
    | none => simpa [hstate, framed] using hholds
    | some touch =>
        rw [hstate] at hholds
        exact (hholds.motion _ _ _).framed_one _
  · rintro grip session ⟨hcontact, hholds⟩
    refine ⟨rfl, ?_⟩
    show Holds n none (session.events ++ (framed (choose session.served) .frame (session.state.toList.map _)).map .touch)
    cases hstate : session.state with
    | none => simpa [hstate, framed] using hholds
    | some touch =>
        rw [hstate] at hholds
        exact (hholds.lift _ _).framed_one _

/-! ## What the tests read -/

theorem wlFixedToInt_sub (a b : Int) : wlFixedToInt (wlFixedFromInt a - wlFixedFromInt b) = a - b := by
  rw [wlFixedToInt, wlFixedFromInt, wlFixedFromInt, ← Int.sub_mul]
  exact Int.mul_tdiv_cancel _ (by decide)

theorem pointer_shows (n : Notifiers) (scene : Scene) (choose : Nat → Choice) (calls : List Call) :
    Shows pointerInputMethod n scene calls (pointerInputMethod.run scene choose calls) := by
  have h := pointer_tracks n scene choose calls
  refine ⟨h.fits.rests.1, h.failures, ?_, ?_⟩
  · intro grip hgrip
    have hcurrent := h.fits.rests.2.current
    rw [h.fits.focus grip hgrip] at hcurrent
    show Except.ok (Impl.windowUnderCursor _) = _
    rw [Impl.windowUnderCursor, hcurrent]
    cases grip.target <;> rfl
  · intro grip hgrip target htarget
    have hcurrent := h.fits.rests.2.current
    rw [h.fits.focus grip hgrip, h.fits.place grip hgrip, htarget] at hcurrent
    simp only [pointerInputMethod, Impl.pointerPosition] at hcurrent ⊢
    rw [hcurrent]
    simp only [locationAt, Option.map_some, Target.location, Target.local, Place.ofPixels, wlFixedToInt_sub]

/-- The touches of a client that has one at most. -/
theorem Holding.toList {contact : Option (Int × SurfaceLocation)} {t : TouchTracking} (h : Holding contact t) :
    t.currentTouches.toList = contact.toList := by
  have hsame (m : Std.TreeMap Int SurfaceLocation) (hm : ∀ i : Int, m[i]? = touchAt contact i) :
      t.currentTouches.toList = m.toList := by
    have := OrdMap.filter_toList_congr (p := fun _ => true) fun i _ => (h.current i).trans (hm i).symm
    simpa using this
  cases contact with
  | none => exact hsame {} fun i => by simp [touchAt]
  | some touch =>
      refine hsame (({} : Std.TreeMap Int SurfaceLocation).insert touch.1 touch.2) fun i => ?_
      simp [Std.TreeMap.getElem?_insert, touchAt]

theorem touch_shows (n : Notifiers) (scene : Scene) (choose : Nat → Choice) (calls : List Call) :
    Shows (touchInputMethod .pixels) n scene calls ((touchInputMethod .pixels).run scene choose calls) := by
  have h := touch_tracks n scene choose calls
  obtain ⟨hcontact, hholds⟩ := h.fits
  have htouches := hholds.2.toList
  refine ⟨hholds.1, h.failures, ?_, ?_⟩
  · intro grip hgrip
    rw [Option.mem_def.mp hgrip] at hcontact htouches
    show TouchTracking.touchedWindow _ = _
    rw [TouchTracking.touchedWindow, htouches]
    cases hstate : ((touchInputMethod .pixels).run scene choose calls).state with
    | none =>
        rw [hstate] at hcontact
        rw [← show none = grip.target from hcontact]
        rfl
    | some touch =>
        rw [hstate] at hcontact
        rw [← show some touch.2 = grip.target from hcontact]
        rfl
  · intro grip hgrip target htarget
    rw [Option.mem_def.mp hgrip] at hcontact htouches
    obtain ⟨touch, hstate, rfl⟩ := Option.map_eq_some_iff.mp (hcontact.trans htarget)
    rw [hstate] at htouches
    simp only [touchInputMethod, TouchTracking.touchPosition] at htouches ⊢
    rw [htouches]
    simp only [Option.bind_some, Option.map_some, Option.toList_some, Except.map, Target.location, Target.local,
      Place.ofPixels, wlFixedToInt_sub]

/-- One surface, all over the screen. -/
def everywhere : Scene := [⟨some 1, (0, 0), fun _ => true⟩]

/-- **Both methods behave like the device of the tests**: whatever is on the screen, whatever the compositor chooses and
whichever calls a test makes, the client is told the surface that the device was put down on and its place there, and no
listener fails; calls out of turn fail and do nothing else. For a touch screen this needs an integration that takes the
coordinates of a touch for pixels. -/
theorem methods_refine_iff (words : TouchWords) :
    (∀ n scene choose calls,
        Shows pointerInputMethod n scene calls (pointerInputMethod.run scene choose calls)) ∧
      ((∀ n scene choose calls,
          Shows (touchInputMethod words) n scene calls ((touchInputMethod words).run scene choose calls)) ↔
        words = .pixels) := by
  refine ⟨pointer_shows, fun h => ?_, ?_⟩
  · cases words with
    | pixels => rfl
    | fixed =>
        have := (h {} everywhere (fun _ => {}) [.downAt (4, 4)]).position ⟨some ⟨1, (0, 0)⟩, (4, 4)⟩ (by rfl) ⟨1, (0, 0)⟩ rfl
        revert this
        decide
  · rintro rfl
    exact touch_shows

/-- A touch that is put down, moved and lifted, with a call out of turn at the end. -/
theorem methods_refine_iff_drag :
    Shows (touchInputMethod .pixels) {} everywhere [.downAt (4, 4), .moveTo (6, 5), .up, .up]
      ((touchInputMethod .pixels).run everywhere (fun _ => {}) [.downAt (4, 4), .moveTo (6, 5), .up, .up]) :=
  (methods_refine_iff .pixels).2.mpr rfl {} everywhere (fun _ => {}) _

end Wlcs.Input
