import Wlcs.Client.PointerSteps
import Wlcs.Lib.Session

/-!
# The pointer notifications are well bracketed

For every stream of pointer events, legal or not, the enter, motion and leave notifications form complete sessions
`enter(s) motion* leave(s)` and possibly an open one. The invariant `Bracketed` ties the three pointer members
together and to the notifications sent so far: what is open is the current location.
-/

namespace Wlcs
open Session

/-- The notifications of a run, in order. -/
def notifications (n : Notifiers) (es : List Event) : List Notification :=
  (tracker.outputs (Impl.fresh n) es).flatMap Report.notified

/-- The notifications of a run on `wl_pointer` events only. -/
def pointerNotifications (n : Notifiers) (ps : List PointerEvent) : List Notification :=
  notifications n (ps.map .pointer)

def Notification.letter? : Notification → Option (Letter SurfacePtr SurfacePtr)
  | .enter surface _ => some (.opens surface)
  | .motion _ => some .moves
  | .leave surface => some (.closes surface)
  | .button .. => none

/-- The enter, motion and leave notifications. -/
def crossings (ns : List Notification) : List (Letter SurfacePtr SurfacePtr) := ns.filterMap Notification.letter?

theorem crossings_append (ns ms : List Notification) : crossings (ns ++ ms) = crossings ns ++ crossings ms :=
  List.filterMap_append

theorem crossings_buttonNotes (t : PointerTracking) : crossings t.buttonNotes = [] := by
  simp [crossings, PointerTracking.buttonNotes, Notification.letter?, List.filterMap_eq_nil_iff]

/-- The pointer members agree with each other and with the notifications `ns` sent so far. -/
structure Bracketed (t : PointerTracking) (ns : List Notification) : Prop where
  leave_inside : t.pendingPointerLeave = true → t.currentPointerLocation.isSome = true
  same_surface : ∀ current pending, t.currentPointerLocation = some current →
    t.pendingPointerLocation = some pending → t.pendingPointerLeave = false → pending.surface = current.surface
  tracked : track (· = ·) (crossings ns) = some (t.currentPointerLocation.map (·.surface))

/-- What the notifications of one frame do to the open session. -/
theorem Bracketed.track_frame {t : PointerTracking} {ns : List Notification} (h : Bracketed t ns) :
    track (· = ·) (crossings (ns ++ (t.leaveNotes ++ t.moveNotes ++ t.buttonNotes))) =
      some (t.committed.map (·.surface)) := by
  rw [crossings_append, crossings_append, crossings_append, crossings_buttonNotes, track_append, h.tracked]
  unfold PointerTracking.leaveNotes PointerTracking.moveNotes PointerTracking.committed
  cases hleave : t.pendingPointerLeave with
  | true =>
      obtain ⟨current, hcurrent⟩ := Option.isSome_iff_exists.mp (h.leave_inside hleave)
      cases hpending : t.pendingPointerLocation with
      | none => simp [hcurrent, crossings, Notification.letter?, next]
      | some pending => simp [hcurrent, crossings, Notification.letter?, next]
  | false =>
      cases hpending : t.pendingPointerLocation with
      | none => simp [crossings]
      | some pending =>
          cases hcurrent : t.currentPointerLocation with
          | none => simp [crossings, Notification.letter?, next]
          | some current =>
              have hsame := h.same_surface current pending hcurrent hpending hleave
              simp [crossings, Notification.letter?, next, hsame]

theorem Bracketed.step {t t' : PointerTracking} {ns ms : List Notification} {e : PointerEvent} {f : Option Failure}
    (h : Bracketed t ns) (hstep : PointerStep t e t' f ms) : Bracketed t' (ns ++ ms) := by
  cases hstep with
  | enterFailed | leaveOutside | leaveOther | motionOutside | frameFailed => simpa using h
  | enter hout =>
      refine ⟨h.leave_inside, ?_, by simpa using h.tracked⟩
      rintro current pending hcurrent - hleave
      rcases hout with hout | hout
      · rw [hout] at hcurrent
        cases hcurrent
      · rw [hout] at hleave
        cases hleave
  | leave hcurrent hsame =>
      refine ⟨fun _ => by simp [hcurrent], ?_, by simpa using h.tracked⟩
      intro current pending _ hpending
      cases hpending
  | @motion time x y location hlocation =>
      refine ⟨h.leave_inside, ?_, by simpa using h.tracked⟩
      intro current pending hcurrent hpending hleave
      cases hpending
      -- the moved location is the pending one, or else the current one itself
      cases hold : t.pendingPointerLocation with
      | none =>
          rw [hold, Option.none_or, hcurrent] at hlocation
          cases hlocation
          rfl
      | some old =>
          rw [hold, Option.some_or] at hlocation
          cases hlocation
          exact h.same_surface current location hcurrent hold hleave
  | button => exact ⟨h.leave_inside, h.same_surface, by simpa using h.tracked⟩
  | frame hempty hinside =>
      refine ⟨by simp, ?_, h.track_frame⟩
      intro current pending _ hpending
      cases hpending

/-! ## Notifiers that always return true stay registered -/

def Notifiers.KeepAll (n : Notifiers) : Prop :=
  (∀ notifier ∈ n.enterNotifiers, ∀ surface x y, notifier surface x y = true) ∧
  (∀ notifier ∈ n.leaveNotifiers, ∀ surface, notifier surface = true) ∧
  (∀ notifier ∈ n.motionNotifiers, ∀ x y, notifier x y = true) ∧
  ∀ notifier ∈ n.buttonNotifiers, ∀ serial button pressed, notifier serial button pressed = true

section Keep
variable {me : Impl}

theorem notifyOfPointerEnter_keep (h : me.toNotifiers.KeepAll) (surface : SurfacePtr) (p : WlFixed × WlFixed) :
    (me.notifyOfPointerEnter surface p).1.toNotifiers = me.toNotifiers := by
  have : me.enterNotifiers.filter (fun notifier => notifier surface p.1 p.2) = me.enterNotifiers :=
    List.filter_eq_self.mpr fun notifier hn => h.1 notifier hn surface p.1 p.2
  simp [Impl.notifyOfPointerEnter, this]

theorem notifyOfPointerLeave_keep (h : me.toNotifiers.KeepAll) (surface : SurfacePtr) :
    (me.notifyOfPointerLeave surface).1.toNotifiers = me.toNotifiers := by
  have : me.leaveNotifiers.filter (fun notifier => notifier surface) = me.leaveNotifiers :=
    List.filter_eq_self.mpr fun notifier hn => h.2.1 notifier hn surface
  simp [Impl.notifyOfPointerLeave, this]

theorem notifyOfPointerMotion_keep (h : me.toNotifiers.KeepAll) (p : WlFixed × WlFixed) :
    (me.notifyOfPointerMotion p).1.toNotifiers = me.toNotifiers := by
  have : me.motionNotifiers.filter (fun notifier => notifier p.1 p.2) = me.motionNotifiers :=
    List.filter_eq_self.mpr fun notifier hn => h.2.2.1 notifier hn p.1 p.2
  simp [Impl.notifyOfPointerMotion, this]

theorem notifyOfPointerButtons_keep (h : me.toNotifiers.KeepAll) (buttons : Std.TreeMap Nat (Nat × Bool)) :
    (me.notifyOfPointerButtons buttons).1.toNotifiers = me.toNotifiers := by
  have hone : ∀ (bs : List (Nat × Nat × Bool)), bs.foldl
      (fun notifiers b => notifiers.filter fun (notifier : PointerButtonNotifier) => notifier b.2.1 b.1 b.2.2)
      me.buttonNotifiers = me.buttonNotifiers := by
    intro bs
    induction bs with
    | nil => rfl
    | cons b bs ih =>
        rw [List.foldl_cons, List.filter_eq_self.mpr fun notifier hn => h.2.2.2 notifier hn _ _ _, ih]
  simp [Impl.notifyOfPointerButtons, Std.TreeMap.foldl_eq_foldl_toList, hone]

theorem pointerFrame_keep (h : me.toNotifiers.KeepAll) : me.pointerFrame.1.toNotifiers = me.toNotifiers := by
  have hleave : ∀ {me' ns}, me.frameLeave = .ok (me', ns) → me'.toNotifiers = me.toNotifiers := by
    intro me' ns hok
    unfold Impl.frameLeave at hok
    split at hok
    · split at hok
      · cases hok
      · rename_i current _
        cases hok
        have hk : ({ me with currentPointerLocation := none, pendingPointerLeave := false } :
          Impl).toNotifiers.KeepAll := h
        exact notifyOfPointerLeave_keep hk current.surface
    · cases hok
      rfl
  have hlocation : ∀ me' : Impl, me'.toNotifiers.KeepAll → me'.frameLocation.1.toNotifiers = me'.toNotifiers := by
    intro me' h'
    unfold Impl.frameLocation
    split
    · rfl
    · rename_i location _
      have hk : ({ me' with currentPointerLocation := some location, pendingPointerLocation := none } :
        Impl).toNotifiers.KeepAll := h'
      dsimp only
      split
      · exact notifyOfPointerEnter_keep hk _ _
      · exact notifyOfPointerMotion_keep hk _
  have hbuttons : ∀ me' : Impl, me'.toNotifiers.KeepAll → me'.frameButtons.1.toNotifiers = me'.toNotifiers := by
    intro me' h'
    unfold Impl.frameButtons
    split
    · rfl
    · exact notifyOfPointerButtons_keep h' _
  unfold Impl.pointerFrame
  split
  · rfl
  · rename_i me' left hok
    have h1 := hleave hok
    have h2 := hlocation me' (by rw [h1]; exact h)
    exact (hbuttons _ (by rw [h2, h1]; exact h)).trans (h2.trans h1)

theorem dispatchPointer_keep (h : me.toNotifiers.KeepAll) (e : PointerEvent) :
    (me.dispatchPointer e).1.toNotifiers = me.toNotifiers := by
  by_cases he : e = .frame
  · subst he
    exact pointerFrame_keep h
  · exact (dispatchPointer_other me he).2

end Keep

/-! ## Runs -/

theorem notifications_concat (n : Notifiers) (es : List Event) (e : Event) :
    notifications n (es ++ [e]) = notifications n es ++ ((after n es).dispatch e).2.notified := by
  rw [notifications, tracker.outputs_concat, List.flatMap_append, List.flatMap_singleton]
  rfl

theorem pointerNotifications_concat (n : Notifiers) (ps : List PointerEvent) (e : PointerEvent) :
    pointerNotifications n (ps ++ [e]) =
      pointerNotifications n ps ++ ((afterPointer n ps).dispatchPointer e).2.notified := by
  rw [pointerNotifications, List.map_append, List.map_singleton, notifications_concat]
  rfl

/-- The invariant holds after every stream of pointer events, whichever handlers have failed. -/
theorem afterPointer_bracketed (n : Notifiers) (ps : List PointerEvent) :
    Bracketed (afterPointer n ps).toPointerTracking (pointerNotifications n ps) := by
  induction ps using List.reverseRecOn with
  | nil => exact ⟨by simp [afterPointer, after, Impl.fresh], by simp [afterPointer, after, Impl.fresh], rfl⟩
  | append_singleton ps e ih =>
      rw [afterPointer_concat, pointerNotifications_concat]
      exact ih.step (dispatchPointer_step _ e)

theorem afterPointer_keep (n : Notifiers) (hn : n.KeepAll) (ps : List PointerEvent) :
    (afterPointer n ps).toNotifiers = n := by
  induction ps using List.reverseRecOn with
  | nil => rfl
  | append_singleton ps e ih => rw [afterPointer_concat, dispatchPointer_keep (by rwa [ih]), ih]

theorem pointerFrame_pending (t t' : PointerTracking) (f : Option Failure) (ns ms : List Notification)
    (h : Bracketed t ns) (hstep : PointerStep t .frame t' f ms) :
    f = none ∧ t'.pendingPointerLocation = none ∧ t'.pendingPointerLeave = false ∧ t'.pendingButtons.isEmpty = true := by
  cases hstep with
  | frameFailed hleave hcurrent =>
      have := h.leave_inside hleave
      rw [hcurrent] at this
      cases this
  | frame hempty hinside => exact ⟨rfl, rfl, rfl, hempty⟩

/-- **Pointer notifications are well bracketed**, on every stream of pointer events: they are a prefix of a word of
`enter(s) motion* leave(s)` sessions, the pending members are consistent with the current location in every state
reached, every notifier stays registered, and a frame never fails and leaves nothing pending. -/
theorem pointer_notifications_bracketed (n : Notifiers) (hn : n.KeepAll) (ps : List PointerEvent) :
    Orderly (· = ·) (crossings (pointerNotifications n ps)) ∧
      ((afterPointer n ps).pendingPointerLeave = true →
        (afterPointer n ps).currentPointerLocation.isSome = true) ∧
      (∀ current pending, (afterPointer n ps).currentPointerLocation = some current →
        (afterPointer n ps).pendingPointerLocation = some pending →
        (afterPointer n ps).pendingPointerLeave = false → pending.surface = current.surface) ∧
      (afterPointer n ps).toNotifiers = n ∧
      (afterPointer n ps).pointerFrame.2.failure = none ∧
      (afterPointer n (ps ++ [.frame])).pendingPointerLocation = none ∧
      (afterPointer n (ps ++ [.frame])).pendingPointerLeave = false ∧
      (afterPointer n (ps ++ [.frame])).pendingButtons.isEmpty = true := by
  have hinv := afterPointer_bracketed n ps
  have hframe := pointerFrame_pending _ _ _ _ _ hinv (pointerFrame_step (afterPointer n ps))
  refine ⟨?_, hinv.leave_inside, hinv.same_surface, afterPointer_keep n hn ps, hframe.1, ?_⟩
  · rw [orderly_iff_track _ fun s => ⟨s, rfl⟩, hinv.tracked]
    rfl
  · rw [afterPointer_concat]
    exact hframe.2

theorem pointer_notifications_bracketed_recorder :
    Notifiers.KeepAll { enterNotifiers := [fun _ _ _ => true], leaveNotifiers := [fun _ => true] } ∧
      Orderly (· = ·) (crossings (pointerNotifications
        { enterNotifiers := [fun _ _ _ => true], leaveNotifiers := [fun _ => true] }
        [.enter 1 (some 7) 0 0, .frame, .leave 2 (some 7), .motion 3 1 1, .frame])) := by
  have hn : Notifiers.KeepAll { enterNotifiers := [fun _ _ _ => true], leaveNotifiers := [fun _ => true] } := by
    simp [Notifiers.KeepAll]
  exact ⟨hn, (pointer_notifications_bracketed _ hn _).1⟩

end Wlcs
