import Wlcs.Client.Dispatch

/-!
# What one pointer event can do

`PointerStep t e t' failure notified` lists every way in which the `wl_pointer` listener can handle the event `e`
when the pointer members are `t`, on its normal and on its `FAIL()` paths; `dispatchPointer_step` says that there is
no other. Every statement about pointer tracking is proved by cases on it.
-/

namespace Wlcs

/-- The location that a frame would commit now. -/
def PointerTracking.committed (t : PointerTracking) : Option SurfaceLocation :=
  if t.pendingPointerLeave then t.pendingPointerLocation
  else t.pendingPointerLocation.or t.currentPointerLocation

/-- The notifications of `pointer_frame` for the pending leave. -/
def PointerTracking.leaveNotes (t : PointerTracking) : List Notification :=
  if t.pendingPointerLeave then t.currentPointerLocation.toList.map fun current => .leave current.surface else []

/-- The notifications of `pointer_frame` for the pending location. -/
def PointerTracking.moveNotes (t : PointerTracking) : List Notification :=
  t.pendingPointerLocation.toList.map fun location =>
    if t.pendingPointerLeave || t.currentPointerLocation.isNone then .enter location.surface location.coordinates
    else .motion location.coordinates

def PointerTracking.buttonNotes (t : PointerTracking) : List Notification :=
  t.pendingButtons.toList.map fun button => .button button.2.1 button.1 button.2.2

inductive PointerStep (t : PointerTracking) :
    PointerEvent → PointerTracking → Option Failure → List Notification → Prop
  | enterFailed {serial : Nat} {surface : SurfacePtr} {x y : WlFixed} {current : SurfaceLocation}
      (hcurrent : t.currentPointerLocation = some current) (hleave : t.pendingPointerLeave = false) :
      PointerStep t (.enter serial surface x y) t (some (.enterWithoutLeave surface current.surface)) []
  | enter {serial : Nat} {surface : SurfacePtr} {x y : WlFixed}
      (hout : t.currentPointerLocation = none ∨ t.pendingPointerLeave = true) :
      PointerStep t (.enter serial surface x y) { t with pendingPointerLocation := some ⟨surface, (x, y)⟩ } none []
  | leaveOutside {serial : Nat} {surface : SurfacePtr} (hcurrent : t.currentPointerLocation = none) :
      PointerStep t (.leave serial surface) t (some .leaveOutside) []
  | leaveOther {serial : Nat} {surface : SurfacePtr} {current : SurfaceLocation}
      (hcurrent : t.currentPointerLocation = some current)
      (hother : surface ≠ none ∧ surface ≠ current.surface) :
      PointerStep t (.leave serial surface) t (some (.leaveOther surface current.surface)) []
  | leave {serial : Nat} {surface : SurfacePtr} {current : SurfaceLocation}
      (hcurrent : t.currentPointerLocation = some current) (hsame : surface = none ∨ surface = current.surface) :
      PointerStep t (.leave serial surface)
        { t with pendingPointerLocation := none, pendingPointerLeave := true } none []
  | motionOutside {time : Nat} {x y : WlFixed} (hcurrent : t.currentPointerLocation = none)
      (hpending : t.pendingPointerLocation = none) :
      PointerStep t (.motion time x y) t (some .motionOutside) []
  | motion {time : Nat} {x y : WlFixed} {location : SurfaceLocation}
      (hlocation : t.pendingPointerLocation.or t.currentPointerLocation = some location) :
      PointerStep t (.motion time x y)
        { t with pendingPointerLocation := some { location with coordinates := (x, y) } } none []
  | button {serial time button state : Nat} :
      PointerStep t (.button serial time button state)
        { t with pendingButtons := t.pendingButtons.insert button (serial, state == Impl.pointerButtonStatePressed) }
        none []
  | frameFailed (hleave : t.pendingPointerLeave = true) (hcurrent : t.currentPointerLocation = none) :
      PointerStep t .frame t (some .frameLeaveOutside) []
  | frame {buttons : Std.TreeMap Nat (Nat × Bool)} (hbuttons : buttons.isEmpty = true)
      (hinside : t.pendingPointerLeave = true → t.currentPointerLocation.isSome = true) :
      PointerStep t .frame ⟨t.committed, none, false, buttons⟩ none (t.leaveNotes ++ t.moveNotes ++ t.buttonNotes)

/-- The current location changes at a frame only. -/
theorem PointerStep.currentPointerLocation {t t' : PointerTracking} {e : PointerEvent} {ms : List Notification}
    (h : PointerStep t e t' none ms) :
    t'.currentPointerLocation = if e.isFrame then t.committed else t.currentPointerLocation := by
  cases h <;> rfl

/-! ## The handlers take these steps -/

theorem frameButtons_spec (me : Impl) :
    ∃ buttons, buttons.isEmpty = true ∧
      me.frameButtons.1.toPointerTracking =
        ⟨me.currentPointerLocation, me.pendingPointerLocation, me.pendingPointerLeave, buttons⟩ ∧
      me.frameButtons.2 = me.buttonNotes := by
  unfold Impl.frameButtons
  split
  case isTrue h =>
      refine ⟨me.pendingButtons, h, rfl, ?_⟩
      have : me.pendingButtons.toList = [] := by
        rwa [← List.isEmpty_iff, Std.TreeMap.isEmpty_toList]
      simp [PointerTracking.buttonNotes, this]
  case isFalse h => exact ⟨{}, rfl, rfl, rfl⟩

theorem frameLocation_spec (me : Impl) (hleave : me.pendingPointerLeave = false) :
    me.frameLocation.1.toPointerTracking = ⟨me.committed, none, false, me.pendingButtons⟩ ∧
      me.frameLocation.2 = me.moveNotes := by
  unfold Impl.frameLocation PointerTracking.committed PointerTracking.moveNotes
  cases hpending : me.pendingPointerLocation with
  | none =>
      refine ⟨?_, rfl⟩
      change (⟨me.currentPointerLocation, me.pendingPointerLocation, me.pendingPointerLeave,
        me.pendingButtons⟩ : PointerTracking) = _
      simp [hpending, hleave]
  | some location =>
      cases hcurrent : me.currentPointerLocation with
      | none => simp [hleave, Impl.notifyOfPointerEnter]
      | some current => simp [hleave, Impl.notifyOfPointerMotion]

/-- The second and third block of `pointer_frame` together. -/
theorem frameTail_spec (me : Impl) (hleave : me.pendingPointerLeave = false) :
    ∃ buttons, buttons.isEmpty = true ∧
      me.frameLocation.1.frameButtons.1.toPointerTracking = ⟨me.committed, none, false, buttons⟩ ∧
      me.frameLocation.2 ++ me.frameLocation.1.frameButtons.2 = me.moveNotes ++ me.buttonNotes := by
  obtain ⟨hmoved, hnotes⟩ := frameLocation_spec me hleave
  obtain ⟨buttons, hempty, hbuttons, hclicked⟩ := frameButtons_spec me.frameLocation.1
  have hclicks : me.frameLocation.1.buttonNotes = me.buttonNotes := by
    unfold PointerTracking.buttonNotes
    rw [hmoved]
  refine ⟨buttons, hempty, ?_, ?_⟩
  · rw [hbuttons, hmoved]
  · rw [hnotes, hclicked, hclicks]

theorem pointerFrame_step (me : Impl) :
    PointerStep me.toPointerTracking .frame me.pointerFrame.1.toPointerTracking me.pointerFrame.2.failure
      me.pointerFrame.2.notified := by
  unfold Impl.pointerFrame Impl.frameLeave
  cases hleave : me.pendingPointerLeave with
  | false =>
      obtain ⟨buttons, hempty, hframed, hnotes⟩ := frameTail_spec me hleave
      have hstep := PointerStep.frame (t := me.toPointerTracking) hempty (by simp [hleave])
      have hleft : me.leaveNotes = [] := by simp [PointerTracking.leaveNotes, hleave]
      rw [List.append_assoc, hleft, ← hnotes, ← hframed] at hstep
      exact hstep
  | true =>
      cases hcurrent : me.currentPointerLocation with
      | none => exact .frameFailed hleave hcurrent
      | some current =>
          obtain ⟨left, hleft⟩ : ∃ left, left = (Impl.notifyOfPointerLeave
            { me with currentPointerLocation := none, pendingPointerLeave := false } current.surface).1 := ⟨_, rfl⟩
          have htracking : left.toPointerTracking =
              ⟨none, me.pendingPointerLocation, false, me.pendingButtons⟩ := by rw [hleft]; rfl
          obtain ⟨buttons, hempty, hframed, hnotes⟩ := frameTail_spec left (by rw [htracking])
          have hstep := PointerStep.frame (t := me.toPointerTracking) hempty (by simp [hcurrent])
          have hcommit : left.committed = me.committed := by
            simp [PointerTracking.committed, htracking, hleave]
          have hmoves : left.moveNotes ++ left.buttonNotes = me.moveNotes ++ me.buttonNotes := by
            simp [PointerTracking.moveNotes, PointerTracking.buttonNotes, htracking, hleave]
          have hlefts : me.leaveNotes = [.leave current.surface] := by
            simp [PointerTracking.leaveNotes, hleave, hcurrent]
          rw [List.append_assoc, hlefts, ← hmoves, ← hnotes, ← hcommit, ← hframed, ← List.append_assoc] at hstep
          rw [hleft] at hstep
          exact hstep

theorem dispatchPointer_step (me : Impl) (e : PointerEvent) :
    PointerStep me.toPointerTracking e (me.dispatchPointer e).1.toPointerTracking
      (me.dispatchPointer e).2.failure (me.dispatchPointer e).2.notified := by
  cases e with
  | enter serial surface x y =>
      simp only [Impl.dispatchPointer, Impl.pointerEnter]
      split
      case h_1 current hcurrent hleave => exact .enterFailed hcurrent hleave
      case h_2 h =>
          refine .enter ?_
          cases hcurrent : me.currentPointerLocation with
          | none => exact Or.inl rfl
          | some current =>
              right
              cases hleave : me.pendingPointerLeave with
              | true => rfl
              | false => exact absurd hleave (h current hcurrent)
  | leave serial surface =>
      simp only [Impl.dispatchPointer, Impl.pointerLeave]
      split
      case h_1 hcurrent => exact .leaveOutside hcurrent
      case h_2 current hcurrent =>
          split
          case isTrue h => exact .leaveOther hcurrent h
          case isFalse h =>
              refine .leave hcurrent ?_
              by_cases hs : surface = none
              · exact Or.inl hs
              · exact Or.inr (by by_contra hne; exact h ⟨hs, hne⟩)
  | motion time x y =>
      simp only [Impl.dispatchPointer, Impl.pointerMotion]
      cases hpending : me.pendingPointerLocation with
      | some location =>
          have hlocation : me.pendingPointerLocation.or me.currentPointerLocation = some location := by
            rw [hpending]
            rfl
          simpa using PointerStep.motion hlocation
      | none =>
          cases hcurrent : me.currentPointerLocation with
          | none => exact .motionOutside hcurrent hpending
          | some location =>
              have hlocation : me.pendingPointerLocation.or me.currentPointerLocation = some location := by
                rw [hpending, hcurrent]
                rfl
              simpa [hcurrent] using PointerStep.motion hlocation
  | button serial time button state => exact .button
  | frame => exact pointerFrame_step me

end Wlcs
