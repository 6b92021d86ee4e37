import Wlcs.Client.PointerSteps

/-!
# Pointer tracking by frames against immediate tracking

The client commits the pointer location once a frame; `immediate` applies every event as it arrives. On a stream on
which no handler fails the members of the client are determined by the groups of events between the frames
(`PointerSettled`), and the location that the next frame would commit is the immediate one, but for one kind of group:
one that has a motion after its last leave and no enter in between (`StrayMotion`). `pointer_motion` takes such a
motion for a motion on the surface that the pointer is about to leave.
-/

namespace Wlcs
open EventMachine History

/-! ## The immediate tracker -/

def immediateStep (location : Option SurfaceLocation) : PointerEvent → Option SurfaceLocation
  | .enter _ surface x y => some ⟨surface, (x, y)⟩
  | .leave .. => none
  | .motion _ x y => location.map fun l => { l with coordinates := (x, y) }
  | .button .. => location
  | .frame => location

/-- The location of the pointer when each event is applied as it arrives. -/
def immediate (ps : List PointerEvent) : Option SurfaceLocation := ps.foldl immediateStep none

@[simp] theorem immediate_concat (ps : List PointerEvent) (e : PointerEvent) :
    immediate (ps ++ [e]) = immediateStep (immediate ps) e := by
  simp [immediate, List.foldl_append]

/-- The client reports the window and, inside one, the position of the immediate tracker. -/
def SameReading (me : Impl) (location : Option SurfaceLocation) : Prop :=
  me.windowUnderCursor = location.bind (·.surface) ∧
    ∀ l, location = some l → me.pointerPosition = some l.coordinates

/-! ## What the groups of events say -/

/-- An enter puts the pointer on its surface, a leave takes it off. -/
def PointerEvent.crossing : PointerEvent → Option (Option SurfacePtr)
  | .enter _ surface _ _ => some (some surface)
  | .leave .. => some none
  | _ => none

/-- An enter or a motion shows the pointer inside, a leave outside. -/
def PointerEvent.presence : PointerEvent → Option Bool
  | .enter .. => some true
  | .motion .. => some true
  | .leave .. => some false
  | _ => none

def PointerEvent.isLeave : PointerEvent → Bool
  | .leave .. => true
  | _ => false

/-- The surface of the last enter of a group, if no leave follows it there. -/
def entered (g : List PointerEvent) : Option SurfacePtr := (lastSome PointerEvent.crossing g).join

/-- The last frame that saw the pointer saw it inside. -/
def settledInside (ps : List PointerEvent) : Bool :=
  (lastSome (lastSome PointerEvent.presence) (closedGroups PointerEvent.isFrame ps)).getD false

/-- The surface of the last enter that no leave of its own group follows, among the groups closed by a frame. -/
def settledSurface (ps : List PointerEvent) : Option SurfacePtr :=
  lastSome entered (closedGroups PointerEvent.isFrame ps)

/-- The events since the last frame. -/
abbrev pointerGroup (ps : List PointerEvent) : List PointerEvent := openGroup PointerEvent.isFrame ps

/-- The group has a motion after its last leave, and no enter in between. -/
def StrayMotion (g : List PointerEvent) : Prop :=
  lastSome PointerEvent.crossing g = some none ∧ lastSome PointerEvent.presence g = some true

theorem pointerGroup_concat {e : PointerEvent} (h : e.isFrame = false) (ps : List PointerEvent) :
    pointerGroup (ps ++ [e]) = pointerGroup ps ++ [e] := by
  rw [pointerGroup, openGroup_concat, h]
  rfl

theorem pointerGroup_concat_frame (ps : List PointerEvent) : pointerGroup (ps ++ [.frame]) = [] := by
  rw [pointerGroup, openGroup_concat]
  rfl

theorem settledInside_concat {e : PointerEvent} (h : e.isFrame = false) (ps : List PointerEvent) :
    settledInside (ps ++ [e]) = settledInside ps := by
  rw [settledInside, closedGroups_concat, h]
  rfl

theorem settledSurface_concat {e : PointerEvent} (h : e.isFrame = false) (ps : List PointerEvent) :
    settledSurface (ps ++ [e]) = settledSurface ps := by
  rw [settledSurface, closedGroups_concat, h]
  rfl

theorem settledInside_concat_frame (ps : List PointerEvent) :
    settledInside (ps ++ [.frame]) =
      (lastSome PointerEvent.presence (pointerGroup ps)).getD (settledInside ps) := by
  rw [settledInside, closedGroups_concat]
  simp only [PointerEvent.isFrame, if_true, lastSome_concat]
  cases lastSome PointerEvent.presence (pointerGroup ps) <;> rfl

theorem settledSurface_concat_frame (ps : List PointerEvent) :
    settledSurface (ps ++ [.frame]) = (entered (pointerGroup ps)).or (settledSurface ps) := by
  rw [settledSurface, closedGroups_concat]
  simp only [PointerEvent.isFrame, if_true, lastSome_concat]
  rfl

theorem crossing_of_presence_none {g : List PointerEvent} (h : lastSome PointerEvent.presence g = none) :
    lastSome PointerEvent.crossing g = none ∧ g.any PointerEvent.isLeave = false := by
  rw [lastSome_eq_none] at h ⊢
  have hcases : ∀ e ∈ g, e.crossing = none ∧ e.isLeave = false := by
    intro e he
    have := h e he
    cases e <;> first | exact ⟨rfl, rfl⟩ | cases this
  exact ⟨fun e he => (hcases e he).1, by simpa using fun e he => (hcases e he).2⟩

theorem crossing_of_presence_false {g : List PointerEvent} (h : lastSome PointerEvent.presence g = some false) :
    lastSome PointerEvent.crossing g = some none ∧ g.any PointerEvent.isLeave = true := by
  induction g using List.reverseRecOn with
  | nil => cases h
  | append_singleton g e ih =>
      rw [lastSome_concat] at h ⊢
      cases e with
      | enter | motion => cases h
      | leave => simp [PointerEvent.crossing, PointerEvent.isLeave]
      | button | frame => simpa [PointerEvent.crossing, PointerEvent.isLeave] using ih h

/-! ## The members follow from the groups -/

/-- The pointer members after a stream on which no handler failed. -/
structure PointerSettled (ps : List PointerEvent) (t : PointerTracking) : Prop where
  inside : t.currentPointerLocation.isSome = settledInside ps
  surface : ∀ current, t.currentPointerLocation = some current → settledSurface ps = some current.surface
  leave_inside : t.pendingPointerLeave = true → t.currentPointerLocation.isSome = true
  leave : t.pendingPointerLeave = (pointerGroup ps).any PointerEvent.isLeave
  pending : t.pendingPointerLocation.isSome = (lastSome PointerEvent.presence (pointerGroup ps)).getD false
  pending_surface : ∀ pending, t.pendingPointerLocation = some pending →
    (entered (pointerGroup ps)).or (settledSurface ps) = some pending.surface

theorem pointerSettled_nil : PointerSettled [] {} :=
  ⟨rfl, fun _ h => (by cases h), fun h => (by cases h), rfl, rfl, fun _ h => (by cases h)⟩

/-- With nothing pending the group holds no enter, leave or motion. -/
theorem PointerSettled.presence_none {ps : List PointerEvent} {t : PointerTracking} (h : PointerSettled ps t)
    (hpending : t.pendingPointerLocation = none) (hleave : t.pendingPointerLeave = false) :
    lastSome PointerEvent.presence (pointerGroup ps) = none := by
  have hp := h.pending
  rw [hpending] at hp
  rcases hlast : lastSome PointerEvent.presence (pointerGroup ps) with _ | _ | _
  · rfl
  · have := (crossing_of_presence_false hlast).2
    rw [← h.leave, hleave] at this
    cases this
  · rw [hlast] at hp
    cases hp

theorem PointerSettled.presence_false {ps : List PointerEvent} {t : PointerTracking} (h : PointerSettled ps t)
    (hpending : t.pendingPointerLocation = none) (hleave : t.pendingPointerLeave = true) :
    lastSome PointerEvent.presence (pointerGroup ps) = some false := by
  have hp := h.pending
  rw [hpending] at hp
  rcases hlast : lastSome PointerEvent.presence (pointerGroup ps) with _ | _ | _
  · have := (crossing_of_presence_none hlast).2
    rw [← h.leave, hleave] at this
    cases this
  · rfl
  · rw [hlast] at hp
    cases hp

theorem PointerSettled.frame {ps : List PointerEvent} {t : PointerTracking}
    {buttons : Std.TreeMap Nat (Nat × Bool)} (h : PointerSettled ps t) :
    PointerSettled (ps ++ [.frame]) ⟨t.committed, none, false, buttons⟩ := by
  refine ⟨?_, ?_, fun hl => (by cases hl), by simp [pointerGroup_concat_frame], by simp [pointerGroup_concat_frame],
    fun _ hp => (by cases hp)⟩
  · rw [settledInside_concat_frame]
    cases hpending : t.pendingPointerLocation with
    | some location =>
        have hp := h.pending
        rw [hpending] at hp
        have hlast : lastSome PointerEvent.presence (pointerGroup ps) = some true := by
          rcases hl : lastSome PointerEvent.presence (pointerGroup ps) with _ | _ | _ <;> rw [hl] at hp <;>
            first | rfl | cases hp
        rw [hlast]
        cases hleave : t.pendingPointerLeave <;> simp [PointerTracking.committed, hpending, hleave]
    | none =>
        cases hleave : t.pendingPointerLeave with
        | false =>
            rw [h.presence_none hpending hleave, Option.getD_none, ← h.inside]
            simp [PointerTracking.committed, hpending, hleave]
        | true =>
            rw [h.presence_false hpending hleave]
            simp [PointerTracking.committed, hpending, hleave]
  · intro current hcurrent
    dsimp only at hcurrent
    rw [settledSurface_concat_frame]
    cases hpending : t.pendingPointerLocation with
    | some location =>
        have : location = current := by
          cases hleave : t.pendingPointerLeave <;>
            simpa [PointerTracking.committed, hpending, hleave] using hcurrent
        exact this ▸ h.pending_surface location hpending
    | none =>
        cases hleave : t.pendingPointerLeave with
        | false =>
            have hnone := (crossing_of_presence_none (h.presence_none hpending hleave)).1
            rw [entered, hnone, Option.join_none, Option.none_or]
            exact h.surface current (by simpa [PointerTracking.committed, hpending, hleave] using hcurrent)
        | true => simp [PointerTracking.committed, hpending, hleave] at hcurrent

theorem PointerSettled.step {ps : List PointerEvent} {t t' : PointerTracking} {e : PointerEvent}
    {ms : List Notification} (h : PointerSettled ps t) (hstep : PointerStep t e t' none ms) :
    PointerSettled (ps ++ [e]) t' := by
  by_cases hframe : e = .frame
  · subst hframe
    cases hstep
    exact h.frame
  have hf : e.isFrame = false := by cases e <;> first | rfl | exact absurd rfl hframe
  refine ⟨?_, ?_, ?_, ?_, ?_, ?_⟩
  · rw [settledInside_concat hf, ← h.inside]
    cases hstep <;> first | rfl | exact absurd rfl hframe
  · rw [settledSurface_concat hf]
    cases hstep <;> first | exact h.surface | exact absurd rfl hframe
  · cases hstep with
    | leave hcurrent hsame => exact fun _ => by simp [hcurrent]
    | frame => exact absurd rfl hframe
    | enter | motion | button => exact h.leave_inside
  · rw [pointerGroup_concat hf, List.any_append, ← h.leave]
    cases hstep <;> first | exact absurd rfl hframe | simp [PointerEvent.isLeave]
  · rw [pointerGroup_concat hf, lastSome_concat]
    cases hstep with
    | button => exact h.pending
    | frame => exact absurd rfl hframe
    | enter | leave | motion => rfl
  · rw [pointerGroup_concat hf, settledSurface_concat hf, entered, lastSome_concat]
    intro pending hpending
    cases hstep with
    | enter hout =>
        cases hpending
        rfl
    | leave => cases hpending
    | @motion time x y location hlocation =>
        cases hpending
        change (entered (pointerGroup ps)).or (settledSurface ps) = some location.surface
        cases hold : t.pendingPointerLocation with
        | some old =>
            rw [hold, Option.some_or] at hlocation
            cases hlocation
            exact h.pending_surface _ hold
        | none =>
            rw [hold, Option.none_or] at hlocation
            have hcrossing : (lastSome PointerEvent.crossing (pointerGroup ps)).join = none := by
              cases hleave : t.pendingPointerLeave with
              | false => rw [(crossing_of_presence_none (h.presence_none hold hleave)).1]; rfl
              | true => rw [(crossing_of_presence_false (h.presence_false hold hleave)).1]; rfl
            rw [entered, hcrossing, Option.none_or]
            exact h.surface location hlocation
    | button => exact h.pending_surface pending hpending
    | frame => exact absurd rfl hframe

/-- What the pointer events keep, whatever comes between them, holds after every stream on which no handler failed. -/
theorem quiet_pointer_induction {n : Notifiers} {P : List PointerEvent → PointerTracking → Prop} (init : P [] {})
    (step : ∀ ps e t t' ms, P ps t → PointerStep t e t' none ms → P (ps ++ [e]) t') {es : List Event} (h : Quiet n es) :
    P (pointerEvents es) (after n es).toPointerTracking := by
  refine quiet_induction n (P := fun es me => P (pointerEvents es) me.toPointerTracking) init
    (fun es e me ih hok => ?_) (fun es e me ih hok => ?_) h
  · rw [pointerEvents_concat_pointer]
    have hstep := dispatchPointer_step me e
    rw [hok] at hstep
    exact step _ e _ _ _ ih hstep
  · rw [pointerEvents_concat_touch, (dispatch_touch_pointer me e).1]
    exact ih

theorem quiet_pointerSettled {n : Notifiers} {es : List Event} (h : Quiet n es) :
    PointerSettled (pointerEvents es) (after n es).toPointerTracking :=
  quiet_pointer_induction pointerSettled_nil (fun _ _ _ _ _ ih hstep => ih.step hstep) h

/-! ## The location a frame would commit is the immediate one -/

/-- One event keeps the two trackers together, unless it is a motion that the immediate tracker ignores. -/
theorem committed_step {ps : List PointerEvent} {t t' : PointerTracking} {e : PointerEvent} {ms : List Notification}
    (h : t.committed = immediate ps) (hstep : PointerStep t e t' none ms)
    (hmotion : ∀ time x y, e = .motion time x y → immediate ps ≠ none) :
    t'.committed = immediate (ps ++ [e]) := by
  rw [immediate_concat]
  unfold PointerTracking.committed at h ⊢
  cases hstep with
  | enter hout => simp [immediateStep]
  | leave hcurrent hsame => simp [immediateStep]
  | @motion time x y location hlocation =>
      have hinside := hmotion time x y rfl
      have heq : immediate ps = some location := by
        rw [← h] at hinside ⊢
        split at hinside
        · rename_i hleave
          rw [hleave, if_pos rfl]
          obtain ⟨p, hp⟩ := Option.ne_none_iff_exists'.mp hinside
          rw [hp] at hlocation ⊢
          simpa using hlocation
        · rename_i hleave
          rw [if_neg hleave, hlocation]
      simp [immediateStep, heq]
  | button => exact h
  | frame => simpa [immediateStep, PointerTracking.committed] using h

/-- The location the next frame would commit is the immediate one, or the pointer has left and the client will take it
back to the null surface or, after a stray motion, to the surface it has left. -/
def Follows (ps : List PointerEvent) (t : PointerTracking) : Prop :=
  t.committed = immediate ps ∨
    immediate ps = none ∧ ∃ location, t.committed = some location ∧
      (location.surface = none ∨ StrayMotion (pointerGroup ps) ∧ settledSurface ps = some location.surface)

theorem strayMotion_concat_motion {g : List PointerEvent} (time : Nat) (x y : WlFixed)
    (h : lastSome PointerEvent.crossing g = some none) : StrayMotion (g ++ [.motion time x y]) := by
  rw [StrayMotion, lastSome_concat, lastSome_concat]
  exact ⟨h, rfl⟩

theorem PointerSettled.stray {ps : List PointerEvent} {t : PointerTracking} (h : PointerSettled ps t)
    (hstray : StrayMotion (pointerGroup ps)) :
    t.pendingPointerLeave = true ∧ ∃ location, t.committed = some location ∧
      settledSurface ps = some location.surface := by
  have hleave : t.pendingPointerLeave = true := by
    rw [h.leave]
    by_contra hno
    have hall : ∀ e ∈ pointerGroup ps, e.crossing ≠ some none := by
      intro e he hc
      refine hno (List.any_eq_true.mpr ⟨e, he, ?_⟩)
      cases e <;> first | rfl | cases hc
    obtain ⟨e, he, hc⟩ := List.exists_of_findSome?_eq_some hstray.1
    exact hall e (List.mem_reverse.mp he) hc
  refine ⟨hleave, ?_⟩
  have hsome := h.pending
  rw [hstray.2] at hsome
  obtain ⟨location, hlocation⟩ := Option.isSome_iff_exists.mp hsome
  refine ⟨location, by rw [PointerTracking.committed, if_pos hleave, hlocation], ?_⟩
  have hsurface := h.pending_surface location hlocation
  rwa [entered, hstray.1, Option.join_some, Option.none_or] at hsurface

/-- After the last leave of a group the immediate tracker is outside. -/
theorem immediate_of_stray {ps : List PointerEvent}
    (h : lastSome PointerEvent.crossing (pointerGroup ps) = some none) : immediate ps = none := by
  induction ps using List.reverseRecOn with
  | nil => rfl
  | append_singleton ps e ih =>
      rw [immediate_concat]
      by_cases hframe : e = .frame
      · rw [hframe, pointerGroup_concat_frame] at h
        cases h
      · have hf : e.isFrame = false := by cases e <;> first | rfl | exact absurd rfl hframe
        rw [pointerGroup_concat hf, lastSome_concat] at h
        cases e with
        | enter => cases h
        | leave => rfl
        | motion => rw [ih h]; rfl
        | button => exact ih h
        | frame => exact absurd rfl hframe

theorem Follows.step {ps : List PointerEvent} {t t' : PointerTracking} {e : PointerEvent} {ms : List Notification}
    (h : Follows ps t) (hs : PointerSettled ps t) (hstep : PointerStep t e t' none ms)
    (hframe : e = .frame → StrayMotion (pointerGroup ps) → settledSurface ps = some none) :
    Follows (ps ++ [e]) t' := by
  rcases h with h | ⟨hout, location, hcommitted, hsurface⟩
  · by_cases hmotion : (∃ time x y, e = .motion time x y) ∧ immediate ps = none
    · obtain ⟨⟨time, x, y, rfl⟩, hout⟩ := hmotion
      cases hstep with
      | @motion _ _ _ location hlocation =>
          -- a motion after a leave: the client moves on the surface it is leaving
          rw [hout] at h
          unfold PointerTracking.committed at h
          split at h
          · rename_i hleave
            rw [h, Option.none_or] at hlocation
            have hcrossing := (crossing_of_presence_false (hs.presence_false h hleave)).1
            refine Or.inr ⟨by simp [immediateStep, hout], { location with coordinates := (x, y) }, ?_, Or.inr ⟨?_, ?_⟩⟩
            · simp [PointerTracking.committed, hleave]
            · rw [pointerGroup_concat rfl]
              exact strayMotion_concat_motion time x y hcrossing
            · rw [settledSurface_concat rfl]
              exact hs.surface location hlocation
          · rw [hlocation] at h
            cases h
    · refine Or.inl (committed_step h hstep ?_)
      intro time x y he hout
      exact hmotion ⟨⟨time, x, y, he⟩, hout⟩
  · cases hstep with
    | enter => exact Or.inl (by simp [immediateStep, PointerTracking.committed])
    | leave => exact Or.inl (by simp [immediateStep, PointerTracking.committed])
    | @motion time x y moved hmoved =>
        have heq : moved = location := by
          unfold PointerTracking.committed at hcommitted
          split at hcommitted
          · rw [hcommitted] at hmoved
            exact (Option.some.inj hmoved).symm
          · rw [hcommitted] at hmoved
            exact (Option.some.inj hmoved).symm
        subst heq
        refine Or.inr ⟨by simp [immediateStep, hout], { moved with coordinates := (x, y) }, ?_, ?_⟩
        · simp [PointerTracking.committed]
        · rw [pointerGroup_concat rfl, settledSurface_concat rfl]
          exact hsurface.imp_right fun hstray => ⟨strayMotion_concat_motion time x y hstray.1.1, hstray.2⟩
    | button =>
        refine Or.inr ⟨by simp [immediateStep, hout], location, hcommitted, ?_⟩
        rw [pointerGroup_concat rfl, settledSurface_concat rfl, StrayMotion, lastSome_concat, lastSome_concat]
        exact hsurface
    | frame =>
        refine Or.inr ⟨by simp [immediateStep, hout], location, by simpa [PointerTracking.committed] using hcommitted,
          Or.inl ?_⟩
        rcases hsurface with hnull | ⟨hstray, hsettled⟩
        · exact hnull
        · rw [hframe rfl hstray] at hsettled
          exact (Option.some.inj hsettled).symm

/-! ## Runs -/

/-- No frame of the stream closes a group with a stray motion, unless the pointer was on the null surface. -/
def NoStrayMotion (ps : List PointerEvent) : Prop :=
  ∀ pre, pre ++ [.frame] <+: ps → StrayMotion (pointerGroup pre) → settledSurface pre = some none

theorem NoStrayMotion.restrict {ps qs : List PointerEvent} (h : NoStrayMotion qs) (hp : ps <+: qs) :
    NoStrayMotion ps := fun pre hpre => h pre (hpre.trans hp)

theorem quiet_follows {n : Notifiers} {es : List Event} (h : Quiet n es) (hstray : NoStrayMotion (pointerEvents es)) :
    Follows (pointerEvents es) (after n es).toPointerTracking := by
  refine (quiet_pointer_induction (P := fun ps t => NoStrayMotion ps → PointerSettled ps t ∧ Follows ps t)
    (fun _ => ⟨pointerSettled_nil, Or.inl rfl⟩) (fun ps e t t' ms ih hstep hno => ?_) h hstray).2
  obtain ⟨hs, hf⟩ := ih (hno.restrict (List.prefix_append _ _))
  refine ⟨hs.step hstep, hf.step hs hstep fun he hstray => ?_⟩
  exact hno _ (he ▸ List.prefix_refl _) hstray

theorem quietPointer_settled {n : Notifiers} {ps : List PointerEvent} (h : QuietPointer n ps) :
    PointerSettled ps (afterPointer n ps).toPointerTracking := by
  have := quiet_pointerSettled h
  rwa [pointerEvents_map_pointer] at this

theorem quietPointer_follows {n : Notifiers} {ps : List PointerEvent} (h : QuietPointer n ps)
    (hstray : NoStrayMotion ps) : Follows ps (afterPointer n ps).toPointerTracking := by
  have := quiet_follows h (by rwa [pointerEvents_map_pointer])
  rwa [pointerEvents_map_pointer] at this

theorem committed_frame {n : Notifiers} {ps : List PointerEvent} (h : QuietPointer n (ps ++ [.frame])) :
    (afterPointer n (ps ++ [.frame])).currentPointerLocation = (afterPointer n ps).committed := by
  have hstep := dispatchPointer_step (afterPointer n ps) .frame
  rw [h.failure] at hstep
  rw [afterPointer_concat]
  exact hstep.currentPointerLocation

/-- **Pointer tracking by frames refines immediate tracking** on the streams without a stray motion, and on no others:
on a stream on which no handler fails, the client reads like the immediate tracker after every frame exactly when no
frame closes a group that has a motion after its last leave with no enter in between, the pointer having been on a
surface that is not null. -/
theorem pointer_tracking_refines_iff (n : Notifiers) (ps : List PointerEvent) (h : QuietPointer n ps) :
    (∀ pre, pre ++ [.frame] <+: ps →
        SameReading (afterPointer n (pre ++ [.frame])) (immediate (pre ++ [.frame]))) ↔
      NoStrayMotion ps := by
  constructor
  · intro hsame pre hpre hstray
    have hq := h.restrict hpre
    have hs := quietPointer_settled (hq.restrict (List.prefix_append pre [.frame]))
    obtain ⟨-, location, hcommitted, hsettled⟩ := hs.stray hstray
    have hwindow := (hsame pre hpre).1
    rw [immediate_concat, immediate_of_stray hstray.1, Impl.windowUnderCursor, committed_frame hq,
      hcommitted] at hwindow
    rw [hsettled]
    exact congrArg some hwindow
  · intro hstray pre hpre
    have hq := h.restrict hpre
    have hbefore := List.prefix_append pre [PointerEvent.frame]
    have hf := quietPointer_follows (hq.restrict hbefore) (hstray.restrict (hbefore.trans hpre))
    have hcurrent := committed_frame hq
    rw [immediate_concat]
    unfold SameReading Impl.windowUnderCursor Impl.pointerPosition
    rw [hcurrent]
    rcases hf with hf | ⟨hout, location, hcommitted, hsurface⟩
    · rw [hf]
      refine ⟨?_, fun l hl => ?_⟩
      · cases immediate pre <;> rfl
      · change immediate pre = some l at hl
        rw [hl]
        rfl
    · have hnull : location.surface = none := by
        rcases hsurface with hnull | ⟨hst, hsettled⟩
        · exact hnull
        · rw [hstray pre hpre hst] at hsettled
          exact (Option.some.inj hsettled).symm
      rw [hcommitted, hout]
      refine ⟨hnull, fun l hl => ?_⟩
      cases hl

/-- The pointer comes to a surface, moves and leaves, each in a frame of its own. -/
def visitStream : List PointerEvent :=
  [.enter 1 (some 7) 0 0, .frame, .motion 2 3 3, .frame, .leave 3 (some 7), .frame]

theorem pointer_tracking_refines_iff_visit :
    QuietPointer {} visitStream ∧
      ∀ pre, pre ++ [.frame] <+: visitStream →
        SameReading (afterPointer {} (pre ++ [.frame])) (immediate (pre ++ [.frame])) := by
  have hq : QuietPointer {} visitStream := by decide
  refine ⟨hq, (pointer_tracking_refines_iff {} visitStream hq).mpr fun pre hpre hstray => ?_⟩
  have hnone : ∀ pre e, pre ++ [e] <+: visitStream → e = .frame → ¬ StrayMotion (pointerGroup pre) :=
    forall_concat_iff_take.mpr (by unfold StrayMotion; decide)
  exact absurd hstray (hnone pre .frame hpre rfl)

/-- The pointer leaves a surface, and a motion follows in the same frame. -/
def strayStream : List PointerEvent :=
  [.enter 1 (some 7) 0 0, .frame, .leave 2 (some 7), .motion 3 1 1, .frame]

/-- No handler fails on the stream, and after its last frame the client still has the pointer on the surface that it
has left. -/
theorem stray_motion_reenters :
    QuietPointer {} strayStream ∧
      (afterPointer {} strayStream).windowUnderCursor = some 7 ∧ immediate strayStream = none ∧
      ¬ ∀ pre, pre ++ [.frame] <+: strayStream →
        SameReading (afterPointer {} (pre ++ [.frame])) (immediate (pre ++ [.frame])) := by
  refine ⟨by decide, by decide, by decide, fun h => ?_⟩
  have hwindow := (h (strayStream.take 4) (List.prefix_refl _)).1
  exact absurd hwindow (by decide)

end Wlcs
