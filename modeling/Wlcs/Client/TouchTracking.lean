import Wlcs.Client.Dispatch

/-!
# Touch tracking against the wire

After a frame the client should hold exactly the touches that are down, each on the surface of its down and where its
latest down or motion put it. `touch_frame` applies the ups of a group before its downs and motions, so an up is lost
when the same group also moves the touch: `touch_tracking_agrees_iff` says that this is the only way in which the
client can come to disagree with the wire on a stream on which no handler fails.
-/

namespace Wlcs
open EventMachine History

/-! ## What one touch event can do -/

inductive TouchStep (t : TouchTracking) : TouchEvent → TouchTracking → Option Failure → Prop
  | downFailed {serial time : Nat} {surface : SurfacePtr} {id : Int} {x y : WlFixed} {touch : SurfaceLocation}
      (hcurrent : t.currentTouches[id]? = some touch) :
      TouchStep t (.down serial time surface id x y) t (some (.downTwice id))
  | down {serial time : Nat} {surface : SurfacePtr} {id : Int} {x y : WlFixed}
      (hcurrent : t.currentTouches[id]? = none) :
      TouchStep t (.down serial time surface id x y)
        ⟨t.currentTouches, t.pendingTouches.insert id ⟨surface, (x, y)⟩, t.pendingUpTouches⟩ none
  | upFailed {serial time : Nat} {id : Int} (hcurrent : t.currentTouches[id]? = none) :
      TouchStep t (.up serial time id) t (some (.upUnknown id))
  | up {serial time : Nat} {id : Int} {touch : SurfaceLocation} (hcurrent : t.currentTouches[id]? = some touch) :
      TouchStep t (.up serial time id) ⟨t.currentTouches, t.pendingTouches, t.pendingUpTouches.insert id⟩ none
  | motionFailed {time : Nat} {id : Int} {x y : WlFixed} (hcurrent : t.currentTouches[id]? = none) :
      TouchStep t (.motion time id x y) t (some (.motionUnknown id))
  | motion {time : Nat} {id : Int} {x y : WlFixed} {touch : SurfaceLocation}
      (hcurrent : t.currentTouches[id]? = some touch) :
      TouchStep t (.motion time id x y)
        ⟨t.currentTouches, t.pendingTouches.insert id ⟨touch.surface, (x, y)⟩, t.pendingUpTouches⟩ none
  | frame :
      TouchStep t .frame
        ⟨OrdMap.assignAll (OrdMap.eraseAll t.currentTouches t.pendingUpTouches) t.pendingTouches, {}, {}⟩ none

theorem dispatchTouch_step (me : Impl) (e : TouchEvent) :
    TouchStep me.toTouchTracking e (me.dispatchTouch e).1.toTouchTracking (me.dispatchTouch e).2.failure := by
  cases e with
  | down serial time surface id x y =>
      simp only [Impl.dispatchTouch, Impl.touchDown]
      split
      · rename_i touch h
        exact .downFailed h
      · rename_i h
        exact .down h
  | up serial time id =>
      simp only [Impl.dispatchTouch, Impl.touchUp]
      split
      · rename_i h
        exact .upFailed h
      · rename_i touch h
        exact .up h
  | motion time id x y =>
      simp only [Impl.dispatchTouch, Impl.touchMotion]
      split
      · rename_i h
        exact .motionFailed h
      · rename_i touch h
        exact .motion h
  | frame => exact .frame

/-! ## What the wire says about a touch -/

section Wire
variable (i : Int)

/-- A down puts the touch on its surface, an up takes it off. -/
def TouchEvent.contact : TouchEvent → Option (Option SurfacePtr)
  | .down _ _ surface id _ _ => if id = i then some (some surface) else none
  | .up _ _ id => if id = i then some none else none
  | _ => none

/-- Where a down or a motion puts the touch. -/
def TouchEvent.place : TouchEvent → Option (WlFixed × WlFixed)
  | .down _ _ _ id x y => if id = i then some (x, y) else none
  | .motion _ id x y => if id = i then some (x, y) else none
  | _ => none

/-- The surface on which a down puts the touch. -/
def TouchEvent.landing : TouchEvent → Option SurfacePtr
  | .down _ _ surface id _ _ => if id = i then some surface else none
  | _ => none

def TouchEvent.isDown : TouchEvent → Bool
  | .down _ _ _ id _ _ => id = i
  | _ => false

def TouchEvent.isUp : TouchEvent → Bool
  | .up _ _ id => id = i
  | _ => false

def TouchEvent.isMotion : TouchEvent → Bool
  | .motion _ id _ _ => id = i
  | _ => false

/-- The touch as the wire has it: on the surface of its down, if its last down or up was a down, at the place of its
latest down or motion. -/
def wireTouch (ts : List TouchEvent) : Option SurfaceLocation :=
  (lastSome (TouchEvent.contact i) ts).join.bind fun surface =>
    (lastSome (TouchEvent.place i) ts).map fun coordinates => ⟨surface, coordinates⟩

/-- The group moves the touch or puts it down, or else lifts it. -/
def touchVerdict (g : List TouchEvent) : Option Bool :=
  if (lastSome (TouchEvent.place i) g).isSome then some true
  else if g.any (TouchEvent.isUp i) then some false
  else none

/-- The last closed group with an event of the touch moved it or put it down. -/
def settledDown (ts : List TouchEvent) : Bool :=
  (lastSome (touchVerdict i) (closedGroups TouchEvent.isFrame ts)).getD false

end Wire

/-- The events since the last frame. -/
abbrev touchGroup (ts : List TouchEvent) : List TouchEvent := openGroup TouchEvent.isFrame ts

/-- The client holds exactly the touches whose last down or up was a down, each on the surface of that down and at the
place of its latest down or motion. -/
def TouchAgrees (me : Impl) (ts : List TouchEvent) : Prop :=
  ∀ i, (i ∈ me.currentTouches ↔ ∃ surface, lastSome (TouchEvent.contact i) ts = some (some surface)) ∧
    ∀ touch, me.currentTouches[i]? = some touch →
      lastSome (TouchEvent.contact i) ts = some (some touch.surface) ∧
        lastSome (TouchEvent.place i) ts = some touch.coordinates

/-- The group lifts a touch and moves it. -/
def LiftedAndMoved (i : Int) (g : List TouchEvent) : Prop :=
  g.any (TouchEvent.isUp i) = true ∧ g.any (TouchEvent.isMotion i) = true

section Groups
variable {i : Int} {g : List TouchEvent}

theorem contact_of_no_up (h : g.any (TouchEvent.isUp i) = false) :
    lastSome (TouchEvent.contact i) g = (lastSome (TouchEvent.landing i) g).map some := by
  apply lastSome_map
  intro e he
  have := List.any_eq_false.mp h e he
  cases e with
  | down => simp only [TouchEvent.contact, TouchEvent.landing]; split <;> rfl
  | up serial time id =>
      have hid : id ≠ i := by simpa [TouchEvent.isUp] using this
      simp [TouchEvent.contact, TouchEvent.landing, hid]
  | motion | frame => rfl

theorem landing_of_no_down (h : g.any (TouchEvent.isDown i) = false) : lastSome (TouchEvent.landing i) g = none := by
  rw [lastSome_eq_none]
  intro e he
  have := List.any_eq_false.mp h e he
  cases e with
  | down serial time surface id x y =>
      have hid : id ≠ i := by simpa [TouchEvent.isDown] using this
      simp [TouchEvent.landing, hid]
  | up | motion | frame => rfl

theorem contact_of_up (hup : g.any (TouchEvent.isUp i) = true) (hdown : g.any (TouchEvent.isDown i) = false) :
    lastSome (TouchEvent.contact i) g = some none := by
  have hmem : ∀ e ∈ g, e.contact i = ((if e.isUp i then some () else none).map fun _ => none) := by
    intro e he
    have := List.any_eq_false.mp hdown e he
    cases e with
    | down serial time surface id x y =>
        have hid : id ≠ i := by simpa [TouchEvent.isDown] using this
        simp [TouchEvent.contact, TouchEvent.isUp, hid]
    | up serial time id =>
        by_cases hid : id = i
        · simp [TouchEvent.contact, TouchEvent.isUp, hid]
        · simp [TouchEvent.contact, TouchEvent.isUp, hid]
    | motion | frame => rfl
  obtain ⟨e, he, hu⟩ := List.any_eq_true.mp hup
  have hsome := lastSome_isSome (f := fun e : TouchEvent => if e.isUp i then some () else none) he (by simp [hu])
  obtain ⟨u, hu⟩ := Option.isSome_iff_exists.mp hsome
  rw [lastSome_map _ hmem, hu]
  rfl

theorem place_of_motion (h : g.any (TouchEvent.isMotion i) = true) : (lastSome (TouchEvent.place i) g).isSome := by
  obtain ⟨e, he, hm⟩ := List.any_eq_true.mp h
  refine lastSome_isSome he ?_
  cases e with
  | motion time id x y =>
      have hid : id = i := by simpa [TouchEvent.isMotion] using hm
      simp [TouchEvent.place, hid]
  | down | up | frame => cases hm

theorem place_of_no_motion (h : g.any (TouchEvent.isMotion i) = false) :
    (lastSome (TouchEvent.place i) g).isSome = (lastSome (TouchEvent.landing i) g).isSome := by
  have hmem : ∀ e ∈ g, (e.landing i).map (fun _ => ()) = (e.place i).map fun _ => () := by
    intro e he
    have := List.any_eq_false.mp h e he
    cases e with
    | down serial time surface id x y =>
        simp only [TouchEvent.landing, TouchEvent.place]
        split <;> rfl
    | motion time id x y =>
        have hid : id ≠ i := by simpa [TouchEvent.isMotion] using this
        simp [TouchEvent.place, TouchEvent.landing, hid]
    | up | frame => rfl
  have h1 : lastSome (fun e : TouchEvent => (e.landing i).map fun _ => ()) g =
      (lastSome (TouchEvent.landing i) g).map fun _ => () := lastSome_map _ fun _ _ => rfl
  have h2 := lastSome_map (fun _ => ()) hmem
  rw [h1] at h2
  simpa using congrArg Option.isSome h2.symm

end Groups

theorem touchGroup_concat {e : TouchEvent} (h : e.isFrame = false) (ts : List TouchEvent) :
    touchGroup (ts ++ [e]) = touchGroup ts ++ [e] := by
  rw [touchGroup, openGroup_concat, h]
  rfl

theorem any_touchGroup_concat {e : TouchEvent} (h : e.isFrame = false) (p : TouchEvent → Bool) (ts : List TouchEvent) :
    (touchGroup (ts ++ [e])).any p = ((touchGroup ts).any p || p e) := by
  rw [touchGroup_concat h, List.any_append, List.any_cons, List.any_nil, Bool.or_false]

theorem touchGroup_concat_frame (ts : List TouchEvent) : touchGroup (ts ++ [.frame]) = [] := by
  rw [touchGroup, openGroup_concat]
  rfl

theorem settledDown_concat {e : TouchEvent} (h : e.isFrame = false) (i : Int) (ts : List TouchEvent) :
    settledDown i (ts ++ [e]) = settledDown i ts := by
  rw [settledDown, closedGroups_concat, h]
  rfl

theorem settledDown_concat_frame (i : Int) (ts : List TouchEvent) :
    settledDown i (ts ++ [.frame]) = (touchVerdict i (touchGroup ts)).getD (settledDown i ts) := by
  rw [settledDown, closedGroups_concat]
  simp only [TouchEvent.isFrame, if_true, lastSome_concat]
  cases touchVerdict i (touchGroup ts) <;> rfl

/-! ## The members follow from the groups -/

/-- What the client holds of the touch `i` after a stream on which no handler failed. -/
structure TouchSettled (i : Int) (ts : List TouchEvent) (t : TouchTracking) : Prop where
  up : i ∈ t.pendingUpTouches ↔ (touchGroup ts).any (TouchEvent.isUp i) = true
  pending : t.pendingTouches[i]? = (lastSome (TouchEvent.place i) (touchGroup ts)).bind fun coordinates =>
    ((lastSome (TouchEvent.landing i) (touchGroup ts)).or (t.currentTouches[i]?.map (·.surface))).map
      fun surface => ⟨surface, coordinates⟩
  /-- Only a held touch is lifted or moved. -/
  lifted : t.currentTouches[i]? = none → (touchGroup ts).any (TouchEvent.isUp i) = false ∧
    (touchGroup ts).any (TouchEvent.isMotion i) = false
  /-- Only a touch that is not held is put down. -/
  landed : t.currentTouches[i]? ≠ none → (touchGroup ts).any (TouchEvent.isDown i) = false
  settled : t.currentTouches[i]?.isSome = settledDown i ts

theorem touchSettled_nil (i : Int) : TouchSettled i [] {} := by
  refine ⟨?_, ?_, fun _ => ⟨rfl, rfl⟩, fun _ => rfl, ?_⟩
  · simp [Std.TreeSet.not_mem_emptyc]
  · simp
  · simp [settledDown]

/-- What `touch_frame` leaves of a touch. -/
theorem frame_currentTouches (t : TouchTracking) (i : Int) :
    (OrdMap.assignAll (OrdMap.eraseAll t.currentTouches t.pendingUpTouches) t.pendingTouches)[i]? =
      t.pendingTouches[i]?.or (if i ∈ t.pendingUpTouches then none else t.currentTouches[i]?) := by
  rw [OrdMap.getElem?_assignAll, OrdMap.getElem?_eraseAll]

theorem TouchSettled.pending_isSome {i : Int} {ts : List TouchEvent} {t : TouchTracking} (h : TouchSettled i ts t) :
    t.pendingTouches[i]?.isSome = (lastSome (TouchEvent.place i) (touchGroup ts)).isSome := by
  rw [h.pending]
  cases hplace : lastSome (TouchEvent.place i) (touchGroup ts) with
  | none => rfl
  | some q =>
      cases hcurrent : t.currentTouches[i]? with
      | some touch => cases lastSome (TouchEvent.landing i) (touchGroup ts) <;> rfl
      | none =>
          -- the touch is not held, so it is a down that placed it
          have hland := place_of_no_motion (h.lifted hcurrent).2
          rw [hplace] at hland
          obtain ⟨surface, hsurface⟩ := Option.isSome_iff_exists.mp hland.symm
          rw [hsurface]
          rfl

theorem TouchSettled.frame {i : Int} {ts : List TouchEvent} {t : TouchTracking} (h : TouchSettled i ts t) :
    TouchSettled i (ts ++ [.frame])
      ⟨OrdMap.assignAll (OrdMap.eraseAll t.currentTouches t.pendingUpTouches) t.pendingTouches, {}, {}⟩ := by
  refine ⟨?_, ?_, ?_, ?_, ?_⟩
  · simp [touchGroup_concat_frame, Std.TreeSet.not_mem_emptyc]
  · simp [touchGroup_concat_frame]
  · intro _
    rw [touchGroup_concat_frame]
    exact ⟨rfl, rfl⟩
  · intro _
    rw [touchGroup_concat_frame]
    rfl
  · rw [settledDown_concat_frame, frame_currentTouches, Option.isSome_or, h.pending_isSome, touchVerdict]
    by_cases hplace : (lastSome (TouchEvent.place i) (touchGroup ts)).isSome
    · simp [hplace]
    · by_cases hup : (touchGroup ts).any (TouchEvent.isUp i) = true
      · simp only [if_pos (h.up.mpr hup), if_neg hplace, if_pos hup]
        simpa using hplace
      · simp only [if_neg (fun hmem => hup (h.up.mp hmem)), if_neg hplace, if_neg hup, Option.getD_none,
          ← h.settled]
        simp [hplace]

/-- An event that is no frame joins the open group and leaves the held touches alone. -/
theorem TouchSettled.concat {i : Int} {ts : List TouchEvent} {t t' : TouchTracking} {e : TouchEvent}
    (h : TouchSettled i ts t) (hframe : e.isFrame = false) (hcurrent : t'.currentTouches = t.currentTouches)
    (hup : i ∈ t'.pendingUpTouches ↔ i ∈ t.pendingUpTouches ∨ e.isUp i = true)
    (hpending : t'.pendingTouches[i]? =
      ((e.place i).or (lastSome (TouchEvent.place i) (touchGroup ts))).bind fun coordinates =>
        (((e.landing i).or (lastSome (TouchEvent.landing i) (touchGroup ts))).or
          (t.currentTouches[i]?.map (·.surface))).map fun surface => ⟨surface, coordinates⟩)
    (hlifted : t.currentTouches[i]? = none → e.isUp i = false ∧ e.isMotion i = false)
    (hlanded : t.currentTouches[i]? ≠ none → e.isDown i = false) : TouchSettled i (ts ++ [e]) t' := by
  refine ⟨?_, ?_, fun hfree => ?_, fun hheld => ?_, ?_⟩
  · rw [any_touchGroup_concat hframe, Bool.or_eq_true, ← h.up, hup]
  · rw [touchGroup_concat hframe, lastSome_concat, lastSome_concat, hcurrent, hpending]
  · rw [hcurrent] at hfree
    rw [any_touchGroup_concat hframe, any_touchGroup_concat hframe, (h.lifted hfree).1, (h.lifted hfree).2,
      (hlifted hfree).1, (hlifted hfree).2]
    exact ⟨rfl, rfl⟩
  · rw [hcurrent] at hheld
    rw [any_touchGroup_concat hframe, h.landed hheld, hlanded hheld]
    rfl
  · rw [hcurrent, settledDown_concat hframe]
    exact h.settled

theorem TouchSettled.step {i : Int} {ts : List TouchEvent} {t t' : TouchTracking} {e : TouchEvent}
    (h : TouchSettled i ts t) (hstep : TouchStep t e t' none) : TouchSettled i (ts ++ [e]) t' := by
  have hheld : ∀ {id : Int} {touch : SurfaceLocation}, t.currentTouches[id]? = some touch →
      t.currentTouches[i]? = none → id ≠ i := by
    rintro id touch hcurrent hfree rfl
    rw [hfree] at hcurrent
    cases hcurrent
  cases hstep with
  | frame => exact h.frame
  | @down serial time surface id x y hcurrent =>
      refine h.concat rfl rfl ?_ ?_ (fun _ => ⟨rfl, rfl⟩) (fun hheld => ?_)
      · simp [TouchEvent.isUp]
      · rw [Std.TreeMap.getElem?_insert]
        by_cases hid : id = i
        · simp [TouchEvent.place, TouchEvent.landing, hid]
        · simpa [TouchEvent.place, TouchEvent.landing, hid] using h.pending
      · have hid : id ≠ i := fun he => hheld (he ▸ hcurrent)
        simp [TouchEvent.isDown, hid]
  | @up serial time id touch hcurrent =>
      refine h.concat rfl rfl ?_ h.pending (fun hfree => ?_) (fun _ => rfl)
      · rw [Std.TreeSet.mem_insert]
        simp [TouchEvent.isUp, or_comm]
      · have hid : id ≠ i := hheld hcurrent hfree
        simp [TouchEvent.isUp, TouchEvent.isMotion, hid]
  | @motion time id x y touch hcurrent =>
      refine h.concat rfl rfl ?_ ?_ (fun hfree => ?_) (fun _ => rfl)
      · simp [TouchEvent.isUp]
      · rw [Std.TreeMap.getElem?_insert]
        by_cases hid : id = i
        · subst hid
          have hland := landing_of_no_down (h.landed (by rw [hcurrent]; simp))
          simp [TouchEvent.place, TouchEvent.landing, hland, hcurrent]
        · simpa [TouchEvent.place, TouchEvent.landing, hid] using h.pending
      · have hid : id ≠ i := hheld hcurrent hfree
        simp [TouchEvent.isUp, TouchEvent.isMotion, hid]

/-- What the touch events keep, whatever comes between them, holds after every stream on which no handler failed. -/
theorem quiet_touch_induction {n : Notifiers} {P : List TouchEvent → TouchTracking → Prop} (init : P [] {})
    (step : ∀ ts e t t', P ts t → TouchStep t e t' none → P (ts ++ [e]) t') {es : List Event} (h : Quiet n es) :
    P (touchEvents es) (after n es).toTouchTracking := by
  refine quiet_induction n (P := fun es me => P (touchEvents es) me.toTouchTracking) init
    (fun es e me ih hok => ?_) (fun es e me ih hok => ?_) h
  · rw [touchEvents_concat_pointer, dispatch_pointer_touch me e]
    exact ih
  · rw [touchEvents_concat_touch]
    have hstep := dispatchTouch_step me e
    rw [hok] at hstep
    exact step _ e _ _ ih hstep

theorem quiet_touchSettled {n : Notifiers} {es : List Event} (h : Quiet n es) (i : Int) :
    TouchSettled i (touchEvents es) (after n es).toTouchTracking :=
  quiet_touch_induction (touchSettled_nil i) (fun _ _ _ _ ih hstep => ih.step hstep) h

theorem quietTouch_settled {n : Notifiers} {ts : List TouchEvent} (h : QuietTouch n ts) (i : Int) :
    TouchSettled i ts (afterTouch n ts).toTouchTracking := by
  have := quiet_touchSettled h i
  rwa [touchEvents_map_touch] at this

/-! ## Agreement with the wire -/

section Agreement
variable {i : Int} {ts : List TouchEvent}

theorem place_of_contact {surface : SurfacePtr} (h : lastSome (TouchEvent.contact i) ts = some (some surface)) :
    (lastSome (TouchEvent.place i) ts).isSome := by
  obtain ⟨e, he, hc⟩ := List.exists_of_findSome?_eq_some h
  refine lastSome_isSome (List.mem_reverse.mp he) ?_
  cases e with
  | down serial time s id x y =>
      by_cases hid : id = i
      · simp [TouchEvent.place, hid]
      · simp [TouchEvent.contact, hid] at hc
  | up serial time id =>
      by_cases hid : id = i
      · simp [TouchEvent.contact, hid] at hc
      · simp [TouchEvent.contact, hid] at hc
  | motion | frame => cases hc

theorem wireTouch_eq_some {touch : SurfaceLocation} :
    wireTouch i ts = some touch ↔ lastSome (TouchEvent.contact i) ts = some (some touch.surface) ∧
      lastSome (TouchEvent.place i) ts = some touch.coordinates := by
  unfold wireTouch
  rcases lastSome (TouchEvent.contact i) ts with _ | _ | surface
  · simp
  · simp
  · rcases lastSome (TouchEvent.place i) ts with _ | q
    · simp
    · simp only [Option.join_some, Option.bind_some, Option.map_some, Option.some.injEq]
      constructor
      · rintro rfl
        exact ⟨rfl, rfl⟩
      · rintro ⟨rfl, rfl⟩
        rfl

theorem wireTouch_isSome :
    (wireTouch i ts).isSome ↔ ∃ surface, lastSome (TouchEvent.contact i) ts = some (some surface) := by
  constructor
  · intro h
    obtain ⟨touch, htouch⟩ := Option.isSome_iff_exists.mp h
    exact ⟨touch.surface, (wireTouch_eq_some.mp htouch).1⟩
  · rintro ⟨surface, h⟩
    obtain ⟨q, hq⟩ := Option.isSome_iff_exists.mp (place_of_contact h)
    have hwire : wireTouch i ts = some ⟨surface, q⟩ := wireTouch_eq_some.mpr ⟨h, hq⟩
    rw [hwire]
    rfl

theorem touchAgrees_iff {me : Impl} : TouchAgrees me ts ↔ ∀ i, me.currentTouches[i]? = wireTouch i ts := by
  constructor
  · intro h i
    obtain ⟨hkey, htouch⟩ := h i
    rw [← wireTouch_isSome, Std.TreeMap.mem_iff_isSome_getElem?] at hkey
    rcases hcurrent : me.currentTouches[i]? with _ | touch
    · rw [hcurrent] at hkey
      exact (Option.not_isSome_iff_eq_none.mp fun hw => by simpa using hkey.mpr hw).symm
    · exact (wireTouch_eq_some.mpr (htouch touch hcurrent)).symm
  · intro h i
    rw [← wireTouch_isSome, Std.TreeMap.mem_iff_isSome_getElem?, h i]
    exact ⟨Iff.rfl, fun touch => wireTouch_eq_some.mp⟩

/-- The wire after the open group, from the wire at the last frame. -/
theorem wireTouch_group (i : Int) (ts : List TouchEvent) :
    wireTouch i ts =
      ((lastSome (TouchEvent.contact i) (touchGroup ts)).or
          (lastSome (TouchEvent.contact i) (closedPart TouchEvent.isFrame ts))).join.bind fun surface =>
        ((lastSome (TouchEvent.place i) (touchGroup ts)).or
          (lastSome (TouchEvent.place i) (closedPart TouchEvent.isFrame ts))).map fun q => ⟨surface, q⟩ := by
  rw [wireTouch, ← lastSome_append, ← lastSome_append, closedPart_append_openGroup]

theorem wireTouch_concat_frame (i : Int) (ts : List TouchEvent) : wireTouch i (ts ++ [.frame]) = wireTouch i ts := by
  rw [wireTouch, lastSome_concat, lastSome_concat]
  rfl

/-- A frame brings the touch to where the wire has it, unless the group both lifts and moves it. -/
theorem TouchSettled.frame_wire {t : TouchTracking} (h : TouchSettled i ts t)
    (hwire : t.currentTouches[i]? = wireTouch i (closedPart TouchEvent.isFrame ts))
    (hmixed : ¬ LiftedAndMoved i (touchGroup ts)) :
    (OrdMap.assignAll (OrdMap.eraseAll t.currentTouches t.pendingUpTouches) t.pendingTouches)[i]? =
      wireTouch i ts := by
  rw [frame_currentTouches, h.pending, wireTouch_group]
  rcases hcurrent : t.currentTouches[i]? with _ | touch
  · obtain ⟨hup, hmotion⟩ := h.lifted hcurrent
    have hplace := place_of_no_motion hmotion
    rw [contact_of_no_up hup]
    rcases hland : lastSome (TouchEvent.landing i) (touchGroup ts) with _ | surface
    · rw [hland] at hplace
      have hnowhere := Option.isSome_eq_false_iff.mp hplace
      rw [Option.isNone_iff_eq_none.mp hnowhere]
      rw [hcurrent, wireTouch] at hwire
      simpa using hwire
    · rw [hland] at hplace
      obtain ⟨q, hq⟩ := Option.isSome_iff_exists.mp hplace
      simp [hq]
  · have hdown := h.landed (by rw [hcurrent]; simp)
    have hland := landing_of_no_down hdown
    rw [hcurrent] at hwire
    obtain ⟨hcontact, hq⟩ := wireTouch_eq_some.mp hwire.symm
    by_cases hup : (touchGroup ts).any (TouchEvent.isUp i) = true
    · have hmotion : (touchGroup ts).any (TouchEvent.isMotion i) = false := by
        rw [← Bool.not_eq_true]
        exact fun hm => hmixed ⟨hup, hm⟩
      have hplace := place_of_no_motion hmotion
      rw [hland] at hplace
      have hnowhere := Option.isSome_eq_false_iff.mp hplace
      rw [Option.isNone_iff_eq_none.mp hnowhere, contact_of_up hup hdown, if_pos (h.up.mpr hup)]
      rfl
    · rw [contact_of_no_up (Bool.not_eq_true _ ▸ hup), if_neg fun hmem => hup (h.up.mp hmem), hland, hcontact, hq]
      rcases lastSome (TouchEvent.place i) (touchGroup ts) with _ | q
      · rfl
      · rfl

/-- A frame keeps a touch that its group both lifts and moves, though the wire has lifted it. -/
theorem TouchSettled.frame_lifted {t : TouchTracking} (h : TouchSettled i ts t)
    (hmixed : LiftedAndMoved i (touchGroup ts)) :
    (OrdMap.assignAll (OrdMap.eraseAll t.currentTouches t.pendingUpTouches) t.pendingTouches)[i]?.isSome ∧
      wireTouch i ts = none := by
  have hheld : t.currentTouches[i]? ≠ none := by
    intro hfree
    have := (h.lifted hfree).1
    rw [hmixed.1] at this
    cases this
  refine ⟨?_, ?_⟩
  · rw [frame_currentTouches, Option.isSome_or, h.pending_isSome, place_of_motion hmixed.2]
    rfl
  · rw [wireTouch_group, contact_of_up hmixed.1 (h.landed hheld)]
    rfl

end Agreement

/-- No frame of the stream closes a group that both lifts and moves a touch. -/
def NoLostUp (ts : List TouchEvent) : Prop :=
  ∀ pre, pre ++ [.frame] <+: ts → ∀ i, ¬ LiftedAndMoved i (touchGroup pre)

theorem NoLostUp.restrict {ts us : List TouchEvent} (h : NoLostUp us) (hp : ts <+: us) : NoLostUp ts :=
  fun pre hpre => h pre (hpre.trans hp)

theorem afterTouch_frame (n : Notifiers) (ts : List TouchEvent) :
    (afterTouch n (ts ++ [.frame])).currentTouches =
      OrdMap.assignAll (OrdMap.eraseAll (afterTouch n ts).currentTouches (afterTouch n ts).pendingUpTouches)
        (afterTouch n ts).pendingTouches := by
  rw [afterTouch_concat]
  rfl

theorem TouchStep.currentTouches {t t' : TouchTracking} {e : TouchEvent} {f : Option Failure}
    (h : TouchStep t e t' f) (he : e.isFrame = false) : t'.currentTouches = t.currentTouches := by
  cases h <;> first | rfl | cases he

/-- Between two frames the client holds what the wire had at the last one. -/
theorem quietTouch_wire {n : Notifiers} {ts : List TouchEvent} (h : QuietTouch n ts) (hlost : NoLostUp ts) (i : Int) :
    (afterTouch n ts).currentTouches[i]? = wireTouch i (closedPart TouchEvent.isFrame ts) := by
  induction ts using List.reverseRecOn with
  | nil => simp [afterTouch, after, Impl.fresh, wireTouch]
  | append_singleton ts e ih =>
      have hbefore := List.prefix_append ts [e]
      have ih := ih (h.restrict hbefore) (hlost.restrict hbefore)
      by_cases hframe : e = .frame
      · subst hframe
        rw [afterTouch_frame, closedPart_concat_mark _ rfl, wireTouch_concat_frame]
        exact (quietTouch_settled (h.restrict hbefore) i).frame_wire ih (hlost ts (List.prefix_refl _) i)
      · have hf : e.isFrame = false := by cases e <;> first | rfl | exact absurd rfl hframe
        rw [closedPart_concat_of_not _ hf, ← ih, afterTouch_concat,
          (dispatchTouch_step (afterTouch n ts) e).currentTouches hf]

/-- **The touch tracker agrees with the wire** on the streams without a lost up, and on no others: on a stream on
which no handler fails, the client holds after every frame the touches that the wire has exactly when no frame closes
a group with both an up and a motion of one touch. -/
theorem touch_tracking_agrees_iff (n : Notifiers) (ts : List TouchEvent) (h : QuietTouch n ts) :
    (∀ pre, pre ++ [.frame] <+: ts → TouchAgrees (afterTouch n (pre ++ [.frame])) (pre ++ [.frame])) ↔
      NoLostUp ts := by
  constructor
  · intro hagrees pre hpre i hmixed
    have hq := h.restrict ((List.prefix_append pre [.frame]).trans hpre)
    obtain ⟨hheld, hwire⟩ := (quietTouch_settled hq i).frame_lifted hmixed
    have hsame := touchAgrees_iff.mp (hagrees pre hpre) i
    rw [afterTouch_frame, wireTouch_concat_frame, hwire] at hsame
    rw [hsame] at hheld
    cases hheld
  · intro hlost pre hpre
    rw [touchAgrees_iff]
    intro i
    rw [quietTouch_wire (h.restrict hpre) (hlost.restrict hpre), closedPart_concat_mark _ rfl]

/-- A single event does not both lift and move a touch. -/
theorem not_liftedAndMoved_singleton (i : Int) (e : TouchEvent) : ¬ LiftedAndMoved i [e] := by
  rintro ⟨hup, hmotion⟩
  cases e with
  | motion time id x y => simp [TouchEvent.isUp] at hup
  | _ => simp [TouchEvent.isMotion] at hmotion

/-- A touch that is put down, moved and lifted, each in a frame of its own. -/
def tapStream : List TouchEvent :=
  [.down 1 0 (some 7) 0 2 3, .frame, .motion 5 0 4 4, .frame, .up 2 6 0, .frame]

theorem touch_tracking_agrees_iff_tap :
    QuietTouch {} tapStream ∧
      ∀ pre, pre ++ [.frame] <+: tapStream → TouchAgrees (afterTouch {} (pre ++ [.frame])) (pre ++ [.frame]) := by
  have hq : QuietTouch {} tapStream := by decide
  refine ⟨hq, (touch_tracking_agrees_iff {} tapStream hq).mpr fun pre hpre i => ?_⟩
  have hone : ∀ pre e, pre ++ [e] <+: tapStream → e = .frame → (touchGroup pre).length = 1 :=
    forall_concat_iff_take.mpr (by decide)
  obtain ⟨e, he⟩ := List.length_eq_one_iff.mp (hone pre .frame hpre rfl)
  rw [he]
  exact not_liftedAndMoved_singleton i e

/-- A touch that moves and is lifted in one frame. -/
def lostUpStream : List TouchEvent :=
  [.down 1 0 (some 7) 0 2 3, .frame, .motion 5 0 4 4, .up 2 6 0, .frame]

/-- No handler fails on the stream, and after its last frame the client still holds the touch that was lifted. -/
theorem lost_up_stays_down :
    QuietTouch {} lostUpStream ∧ (afterTouch {} lostUpStream).currentTouches[(0 : Int)]? = some ⟨some 7, (4, 4)⟩ ∧
      lastSome (TouchEvent.contact 0) lostUpStream = some none ∧
      ¬ ∀ pre, pre ++ [.frame] <+: lostUpStream →
        TouchAgrees (afterTouch {} (pre ++ [.frame])) (pre ++ [.frame]) := by
  refine ⟨by decide, by decide, by decide, fun h => ?_⟩
  have hsame := touchAgrees_iff.mp (h (lostUpStream.take 4) (List.prefix_refl _)) 0
  exact absurd hsame (by decide)

end Wlcs
