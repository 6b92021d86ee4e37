import Wlcs.Client.PointerTracking
import Wlcs.Client.TouchTracking
import Wlcs.Lib.Session

/-!
# What the client accepts and what it rejects

The handlers judge an event by the state that the last frame committed and by what is pending, so a listener may fail
on a stream that respects the protocol (`no_false_alarm_iff` says when) and may accept one that violates it
(`violation_caught_iff`). Both conditions are on the events alone.
-/

namespace Wlcs
open EventMachine History Session

/-! ## The order the protocol asks for -/

def PointerEvent.letter? : PointerEvent → Option (Letter SurfacePtr SurfacePtr)
  | .enter _ surface _ _ => some (.opens surface)
  | .motion .. => some .moves
  | .leave _ surface => some (.closes surface)
  | _ => none

def TouchEvent.letter? (i : Int) : TouchEvent → Option (Letter Unit Unit)
  | .down _ _ _ id _ _ => if id = i then some (.opens ()) else none
  | .motion _ id _ _ => if id = i then some .moves else none
  | .up _ _ id => if id = i then some (.closes ()) else none
  | .frame => none

/-- A leave names the surface that was entered, or comes out as null because the client has destroyed it. -/
def LeaveFits (entered left : SurfacePtr) : Prop := left = none ∨ left = entered

instance (entered left : SurfacePtr) : Decidable (LeaveFits entered left) :=
  inferInstanceAs (Decidable (left = none ∨ left = entered))

theorem leaveFits_self (entered : SurfacePtr) : ∃ left, LeaveFits entered left := ⟨entered, Or.inr rfl⟩

def pointerLetters (ps : List PointerEvent) : List (Letter SurfacePtr SurfacePtr) := ps.filterMap PointerEvent.letter?

def touchLetters (i : Int) (ts : List TouchEvent) : List (Letter Unit Unit) := ts.filterMap (TouchEvent.letter? i)

/-- The pointer events are a prefix of a word of `(enter(s) motion* leave(s))*`, and the events of each touch one of a
word of `(down motion* up)*`. The frames may fall anywhere. -/
def Legal (es : List Event) : Prop :=
  Orderly LeaveFits (pointerLetters (pointerEvents es)) ∧
    ∀ i, Orderly (fun _ _ => True) (touchLetters i (touchEvents es))

theorem Legal.restrict {es fs : List Event} (h : Legal fs) (hp : es <+: fs) : Legal es :=
  ⟨h.1.restrict ((hp.filterMap _).filterMap _), fun i => (h.2 i).restrict ((hp.filterMap _).filterMap _)⟩

/-- The touch is down, as the events have it so far. -/
def wireDown (i : Int) (ts : List TouchEvent) : Bool := (lastSome (TouchEvent.contact i) ts).join.isSome

/-- The event breaks the order, judged by the events before it as they arrived. -/
def OutOfOrder (es : List Event) : Event → Prop
  | .pointer (.enter ..) => (immediate (pointerEvents es)).isSome = true
  | .pointer (.leave _ surface) =>
    ¬ ∃ location ∈ immediate (pointerEvents es), LeaveFits location.surface surface
  | .pointer (.motion ..) => (immediate (pointerEvents es)).isSome = false
  | .touch (.down _ _ _ id _ _) => wireDown id (touchEvents es) = true
  | .touch (.up _ _ id) => wireDown id (touchEvents es) = false
  | .touch (.motion _ id _ _) => wireDown id (touchEvents es) = false
  | _ => False

theorem pointer_reads :
    Reads LeaveFits PointerEvent.letter? (fun ps => (immediate ps).map (·.surface))
      (fun ps e => OutOfOrder (ps.map .pointer) (.pointer e)) where
  closable := leaveFits_self
  nil := rfl
  skips ps e h := by
    cases e with
    | enter | leave | motion => cases h
    | button | frame => exact ⟨by simp [immediateStep], id⟩
  reads ps e l h := by
    cases e with
    | enter serial surface x y =>
        cases h
        cases hi : immediate ps with
        | none => exact Or.inr ⟨by simp [OutOfOrder, hi], by simp [next, immediateStep]⟩
        | some location => exact Or.inl ⟨by simp [OutOfOrder, hi], rfl⟩
    | leave serial surface =>
        cases h
        cases hi : immediate ps with
        | none => exact Or.inl ⟨by simp [OutOfOrder, hi], rfl⟩
        | some location =>
            by_cases hfit : LeaveFits location.surface surface
            · exact Or.inr ⟨by simp [OutOfOrder, hi, hfit], by simp [next, hfit, immediateStep]⟩
            · exact Or.inl ⟨by simp [OutOfOrder, hi, hfit], by simp [next, hfit]⟩
    | motion time x y =>
        cases h
        cases hi : immediate ps with
        | none => exact Or.inl ⟨by simp [OutOfOrder, hi], rfl⟩
        | some location => exact Or.inr ⟨by simp [OutOfOrder, hi], by simp [next, hi, immediateStep]⟩
    | button | frame => cases h

theorem touch_reads (i : Int) :
    Reads (fun _ _ => True) (TouchEvent.letter? i) (fun ts => (lastSome (TouchEvent.contact i) ts).join.map fun _ => ())
      (fun ts e => e.letter? i ≠ none ∧ OutOfOrder (ts.map .touch) (.touch e)) where
  closable := fun _ => ⟨(), trivial⟩
  nil := rfl
  skips ts e h := by
    refine ⟨?_, fun hbad => hbad.1 h⟩
    have hcontact : e.contact i = none := by
      cases e with
      | down serial time surface id x y =>
          have hid : id ≠ i := fun he => by simp [TouchEvent.letter?, he] at h
          simp [TouchEvent.contact, hid]
      | up serial time id =>
          have hid : id ≠ i := fun he => by simp [TouchEvent.letter?, he] at h
          simp [TouchEvent.contact, hid]
      | motion | frame => rfl
    rw [lastSome_concat, hcontact, Option.none_or]
  reads ts e l h := by
    rw [lastSome_concat]
    cases e with
    | down serial time surface id x y =>
        obtain ⟨rfl, rfl⟩ : id = i ∧ Letter.opens () = l := by simpa [TouchEvent.letter?] using h
        rcases hc : (lastSome (TouchEvent.contact id) ts).join with _ | s
        · exact Or.inr ⟨by simp [OutOfOrder, wireDown, hc], by simp [next, TouchEvent.contact]⟩
        · exact Or.inl ⟨by simp [OutOfOrder, wireDown, hc, h], rfl⟩
    | up serial time id =>
        obtain ⟨rfl, rfl⟩ : id = i ∧ Letter.closes () = l := by simpa [TouchEvent.letter?] using h
        rcases hc : (lastSome (TouchEvent.contact id) ts).join with _ | s
        · exact Or.inl ⟨by simp [OutOfOrder, wireDown, hc, h], rfl⟩
        · exact Or.inr ⟨by simp [OutOfOrder, wireDown, hc], by simp [next, TouchEvent.contact]⟩
    | motion time id x y =>
        obtain ⟨rfl, rfl⟩ : id = i ∧ Letter.moves = l := by simpa [TouchEvent.letter?] using h
        rcases hc : (lastSome (TouchEvent.contact id) ts).join with _ | s
        · exact Or.inl ⟨by simp [OutOfOrder, wireDown, hc, h], rfl⟩
        · exact Or.inr ⟨by simp [OutOfOrder, wireDown, hc], by simp [next, TouchEvent.contact, hc]⟩
    | frame => cases h

theorem outOfOrder_pointer (es : List Event) (e : PointerEvent) :
    OutOfOrder ((pointerEvents es).map .pointer) (.pointer e) ↔ OutOfOrder es (.pointer e) := by
  cases e <;> simp [OutOfOrder]

theorem outOfOrder_touch (es : List Event) (e : TouchEvent) :
    OutOfOrder ((touchEvents es).map .touch) (.touch e) ↔ OutOfOrder es (.touch e) := by
  cases e <;> simp [OutOfOrder]

/-- An event that is out of order belongs to some touch. -/
theorem OutOfOrder.letter {es : List Event} {e : TouchEvent} (h : OutOfOrder es (.touch e)) :
    ∃ i, e.letter? i ≠ none := by
  cases e with
  | down serial time surface id x y => exact ⟨id, by simp [TouchEvent.letter?]⟩
  | up serial time id => exact ⟨id, by simp [TouchEvent.letter?]⟩
  | motion time id x y => exact ⟨id, by simp [TouchEvent.letter?]⟩
  | frame => exact h.elim

/-- One more event keeps a stream legal exactly when it is in order. -/
theorem legal_concat {es : List Event} {e : Event} : Legal (es ++ [e]) ↔ Legal es ∧ ¬ OutOfOrder es e := by
  unfold Legal pointerLetters touchLetters
  cases e with
  | pointer e =>
      rw [pointerEvents_concat_pointer, touchEvents_concat_pointer, pointer_reads.orderly_concat, outOfOrder_pointer]
      tauto
  | touch e =>
      rw [pointerEvents_concat_touch, touchEvents_concat_touch]
      simp only [(touch_reads _).orderly_concat, outOfOrder_touch]
      constructor
      · rintro ⟨hp, ht⟩
        refine ⟨⟨hp, fun i => (ht i).1⟩, fun hbad => ?_⟩
        obtain ⟨i, hi⟩ := hbad.letter
        exact (ht i).2 ⟨hi, hbad⟩
      · rintro ⟨⟨hp, ht⟩, hok⟩
        exact ⟨hp, fun i => ⟨ht i, fun hbad => hok hbad.2⟩⟩

theorem legal_nil : Legal [] := ⟨⟨[], .nil, List.nil_prefix⟩, fun _ => ⟨[], .nil, List.nil_prefix⟩⟩

theorem Legal.in_order {es : List Event} (h : Legal es) (pre : List Event) (e : Event) (hp : pre ++ [e] <+: es) :
    ¬ OutOfOrder pre e :=
  (legal_concat.mp (h.restrict hp)).2

/-- The streams that are not legal are those with an event out of order. -/
theorem not_legal_iff {es : List Event} : ¬ Legal es ↔ ∃ pre e, pre ++ [e] <+: es ∧ OutOfOrder pre e := by
  constructor
  · intro h
    induction es using List.reverseRecOn with
    | nil => exact absurd legal_nil h
    | append_singleton es e ih =>
        by_cases hes : Legal es
        · exact ⟨es, e, List.prefix_refl _, by_contra fun hok => h (legal_concat.mpr ⟨hes, hok⟩)⟩
        · obtain ⟨pre, x, hp, hx⟩ := ih hes
          exact ⟨pre, x, hp.trans (List.prefix_append _ _), hx⟩
  · rintro ⟨pre, e, hp, hbad⟩ h
    exact h.in_order pre e hp hbad

theorem legal_iff_take {es : List Event} : Legal es ↔ ∀ k : Fin es.length, ¬ OutOfOrder (es.take k) (es.get k) := by
  constructor
  · intro h k
    refine h.in_order _ _ ?_
    rw [List.get_eq_getElem, List.take_append_getElem]
    exact List.take_prefix _ _
  · intro h
    by_contra hnot
    obtain ⟨pre, e, ⟨rest, rfl⟩, hbad⟩ := not_legal_iff.mp hnot
    refine h ⟨pre.length, by simp⟩ ?_
    simpa using hbad

instance (es : List Event) : DecidablePred (OutOfOrder es)
  | .pointer (.enter ..) => inferInstanceAs (Decidable ((immediate (pointerEvents es)).isSome = true))
  | .pointer (.leave _ surface) =>
    inferInstanceAs (Decidable (¬ ∃ location ∈ immediate (pointerEvents es), LeaveFits location.surface surface))
  | .pointer (.motion ..) => inferInstanceAs (Decidable ((immediate (pointerEvents es)).isSome = false))
  | .pointer (.button ..) => inferInstanceAs (Decidable False)
  | .pointer .frame => inferInstanceAs (Decidable False)
  | .touch (.down _ _ _ id _ _) => inferInstanceAs (Decidable (wireDown id (touchEvents es) = true))
  | .touch (.up _ _ id) => inferInstanceAs (Decidable (wireDown id (touchEvents es) = false))
  | .touch (.motion _ id _ _) => inferInstanceAs (Decidable (wireDown id (touchEvents es) = false))
  | .touch .frame => inferInstanceAs (Decidable False)

instance (es : List Event) : Decidable (Legal es) := decidable_of_iff _ legal_iff_take.symm

/-! ## When a handler fails -/

/-- The handler of the event fails in a client with these members. -/
def Rejects (p : PointerTracking) (t : TouchTracking) : Event → Prop
  | .pointer (.enter ..) => p.currentPointerLocation.isSome = true ∧ p.pendingPointerLeave = false
  | .pointer (.leave _ surface) =>
    ¬ ∃ current ∈ p.currentPointerLocation, LeaveFits current.surface surface
  | .pointer (.motion ..) => p.currentPointerLocation.isSome = false ∧ p.pendingPointerLocation.isSome = false
  | .pointer (.button ..) => False
  | .pointer .frame => p.pendingPointerLeave = true ∧ p.currentPointerLocation.isSome = false
  | .touch (.down _ _ _ id _ _) => t.currentTouches[id]?.isSome = true
  | .touch (.up _ _ id) => t.currentTouches[id]?.isSome = false
  | .touch (.motion _ id _ _) => t.currentTouches[id]?.isSome = false
  | .touch .frame => False

theorem PointerStep.failed_iff {t t' : PointerTracking} {e : PointerEvent} {f : Option Failure} {ms : List Notification}
    (h : PointerStep t e t' f ms) (touches : TouchTracking) : f.isSome ↔ Rejects t touches (.pointer e) := by
  cases h with
  | enterFailed hcurrent hleave => simp [Rejects, hcurrent, hleave]
  | enter hout => rcases hout with hout | hout <;> simp [Rejects, hout]
  | leaveOutside hcurrent => simp [Rejects, hcurrent]
  | leaveOther hcurrent hother => simp [Rejects, hcurrent, LeaveFits, hother]
  | leave hcurrent hsame =>
      simp only [Option.isSome_none, Bool.false_eq_true, Rejects, false_iff, not_not]
      exact ⟨_, hcurrent, hsame⟩
  | motionOutside hcurrent hpending => simp [Rejects, hcurrent, hpending]
  | motion hlocation =>
      simp only [Option.isSome_none, Bool.false_eq_true, Rejects, false_iff]
      rintro ⟨hcurrent, hpending⟩
      have := congrArg Option.isSome hlocation
      simp [Option.isSome_or, hcurrent, hpending] at this
  | button => simp [Rejects]
  | frameFailed hleave hcurrent => simp [Rejects, hleave, hcurrent]
  | frame hbuttons hinside =>
      simp only [Option.isSome_none, Bool.false_eq_true, Rejects, false_iff]
      rintro ⟨hleave, hcurrent⟩
      rw [hinside hleave] at hcurrent
      cases hcurrent

theorem TouchStep.failed_iff {t t' : TouchTracking} {e : TouchEvent} {f : Option Failure}
    (h : TouchStep t e t' f) (p : PointerTracking) : f.isSome ↔ Rejects p t (.touch e) := by
  cases h with
  | frame => simp [Rejects]
  | downFailed h | down h | upFailed h | up h | motionFailed h | motion h => simp [Rejects, h]

theorem failed_iff_rejects (me : Impl) (e : Event) :
    (me.dispatch e).2.Failed ↔ Rejects me.toPointerTracking me.toTouchTracking e := by
  cases e with
  | pointer e => exact (dispatchPointer_step me e).failed_iff me.toTouchTracking
  | touch e => exact (dispatchTouch_step me e).failed_iff me.toPointerTracking

/-! ## The touches the client holds -/

section Held
variable (i : Int)

/-- The last frame that lifts the touch loses the up: its group also moves the touch. -/
def lostUp (ts : List TouchEvent) : Bool :=
  (lastSome (fun g => if g.any (TouchEvent.isUp i) then some (g.any (TouchEvent.isMotion i)) else none)
    (closedGroups TouchEvent.isFrame ts)).getD false

/-- The touch was down when the last frame came. -/
def downAtFrame (ts : List TouchEvent) : Bool := wireDown i (closedPart TouchEvent.isFrame ts)

/-- The touch was down at the last frame, or its up was lost. -/
def heldAtFrame (ts : List TouchEvent) : Bool := downAtFrame i ts || lostUp i ts

end Held

section HeldAtFrame
variable {i : Int} {ts : List TouchEvent}

theorem lostUp_concat {e : TouchEvent} (h : e.isFrame = false) : lostUp i (ts ++ [e]) = lostUp i ts := by
  rw [lostUp, closedGroups_concat, h]
  rfl

theorem lostUp_concat_frame :
    lostUp i (ts ++ [.frame]) =
      if (touchGroup ts).any (TouchEvent.isUp i) then (touchGroup ts).any (TouchEvent.isMotion i)
      else lostUp i ts := by
  rw [lostUp, closedGroups_concat]
  simp only [TouchEvent.isFrame, if_true, lastSome_concat]
  cases (touchGroup ts).any (TouchEvent.isUp i) <;> rfl

theorem heldAtFrame_concat {e : TouchEvent} (h : e.isFrame = false) :
    heldAtFrame i (ts ++ [e]) = heldAtFrame i ts := by
  rw [heldAtFrame, downAtFrame, lostUp_concat h, closedPart_concat_of_not _ h]
  rfl

theorem heldAtFrame_concat_frame :
    heldAtFrame i (ts ++ [.frame]) =
      (((lastSome (TouchEvent.contact i) (touchGroup ts)).or
          (lastSome (TouchEvent.contact i) (closedPart TouchEvent.isFrame ts))).join.isSome ||
        if (touchGroup ts).any (TouchEvent.isUp i) then (touchGroup ts).any (TouchEvent.isMotion i)
        else lostUp i ts) := by
  rw [heldAtFrame, downAtFrame, wireDown, lostUp_concat_frame, closedPart_concat_mark _ rfl, ← lastSome_append,
    closedPart_append_openGroup, lastSome_concat]
  rfl

/-- A frame keeps the held touches those that it should keep, and those whose up it loses. -/
theorem TouchSettled.frame_held {t : TouchTracking} (h : TouchSettled i ts t)
    (hheld : t.currentTouches[i]?.isSome = heldAtFrame i ts) :
    (touchVerdict i (touchGroup ts)).getD (settledDown i ts) = heldAtFrame i (ts ++ [.frame]) := by
  rw [heldAtFrame_concat_frame, touchVerdict, ← h.settled, hheld]
  by_cases hup : (touchGroup ts).any (TouchEvent.isUp i) = true
  · -- the touch was held, so the group does not put it down again
    have hcurrent : t.currentTouches[i]? ≠ none := fun hfree => by simp [(h.lifted hfree).1] at hup
    have hdown := h.landed hcurrent
    rw [contact_of_up hup hdown]
    cases hmotion : (touchGroup ts).any (TouchEvent.isMotion i) with
    | true => simp [place_of_motion hmotion, hup]
    | false => simp [place_of_no_motion hmotion, landing_of_no_down hdown, hup]
  · have hup := Bool.eq_false_iff.mpr hup
    rw [contact_of_no_up hup]
    rcases hland : lastSome (TouchEvent.landing i) (touchGroup ts) with _ | surface
    · cases hmotion : (touchGroup ts).any (TouchEvent.isMotion i) with
      | true =>
          have hcurrent : t.currentTouches[i]? ≠ none := fun hfree => by simp [(h.lifted hfree).2] at hmotion
          have : heldAtFrame i ts = true := by rw [← hheld]; exact Option.isSome_iff_ne_none.mpr hcurrent
          simpa [place_of_motion hmotion, hup, heldAtFrame, downAtFrame, wireDown] using this.symm
      | false =>
          have hplace := place_of_no_motion hmotion
          rw [hland] at hplace
          simp [hplace, hup, heldAtFrame, downAtFrame, wireDown]
    · have hplace : (lastSome (TouchEvent.place i) (touchGroup ts)).isSome :=
        place_of_contact (by rw [contact_of_no_up hup, hland]; rfl)
      simp [hplace, hup]

end HeldAtFrame

theorem quiet_held {n : Notifiers} {es : List Event} (h : Quiet n es) (i : Int) :
    (after n es).currentTouches[i]?.isSome = heldAtFrame i (touchEvents es) := by
  refine (quiet_touch_induction (P := fun ts t => TouchSettled i ts t ∧ t.currentTouches[i]?.isSome = heldAtFrame i ts)
    ⟨touchSettled_nil i, rfl⟩ (fun ts e t t' ih hstep => ?_) h).2
  have hsettled := ih.1.step hstep
  refine ⟨hsettled, ?_⟩
  by_cases hframe : e = .frame
  · subst hframe
    rw [hsettled.settled, settledDown_concat_frame]
    exact ih.1.frame_held ih.2
  · have hf : e.isFrame = false := by cases e <;> first | rfl | exact absurd rfl hframe
    rw [hstep.currentTouches hf, heldAtFrame_concat hf]
    exact ih.2

/-! ## Violations that are caught -/

/-- The event contradicts what the frames before it have settled. -/
def Conflicts (es : List Event) : Event → Prop
  | .pointer (.enter ..) =>
    settledInside (pointerEvents es) = true ∧ (pointerGroup (pointerEvents es)).any PointerEvent.isLeave = false
  | .pointer (.leave _ surface) =>
    settledInside (pointerEvents es) = false ∨ surface ≠ none ∧ settledSurface (pointerEvents es) ≠ some surface
  | .pointer (.motion ..) =>
    settledInside (pointerEvents es) = false ∧
      lastSome PointerEvent.presence (pointerGroup (pointerEvents es)) ≠ some true
  | .touch (.down _ _ _ id _ _) => heldAtFrame id (touchEvents es) = true
  | .touch (.up _ _ id) => heldAtFrame id (touchEvents es) = false
  | .touch (.motion _ id _ _) => heldAtFrame id (touchEvents es) = false
  | _ => False

theorem PointerSettled.rejects_leave {ps : List PointerEvent} {p : PointerTracking} (h : PointerSettled ps p)
    (surface : SurfacePtr) :
    (¬ ∃ current ∈ p.currentPointerLocation, LeaveFits current.surface surface) ↔
      settledInside ps = false ∨ surface ≠ none ∧ settledSurface ps ≠ some surface := by
  rw [← h.inside]
  cases hcurrent : p.currentPointerLocation with
  | none => simp
  | some current =>
      rw [h.surface current hcurrent]
      simp [LeaveFits, eq_comm]

theorem quiet_rejects_iff {n : Notifiers} {es : List Event} (h : Quiet n es) (e : Event) :
    Rejects (after n es).toPointerTracking (after n es).toTouchTracking e ↔ Conflicts es e := by
  have hp := quiet_pointerSettled h
  rcases e with e | e
  · cases e with
    | enter serial surface x y => rw [Rejects, Conflicts, hp.inside, hp.leave]
    | leave serial surface => exact hp.rejects_leave surface
    | motion time x y =>
        rw [Rejects, Conflicts, hp.inside, hp.pending]
        rcases lastSome PointerEvent.presence (pointerGroup (pointerEvents es)) with _ | _ | _ <;> simp
    | button serial time button state => exact Iff.rfl
    | frame =>
        refine ⟨fun hfail => ?_, False.elim⟩
        rw [Rejects, hp.leave_inside hfail.1] at hfail
        cases hfail.2
  · cases e with
    | down serial time surface id x y => rw [Rejects, Conflicts, quiet_held h]
    | up serial time id => rw [Rejects, Conflicts, quiet_held h]
    | motion time id x y => rw [Rejects, Conflicts, quiet_held h]
    | frame => exact Iff.rfl

theorem quiet_iff_no_conflict (n : Notifiers) (es : List Event) :
    Quiet n es ↔ ∀ pre e, pre ++ [e] <+: es → ¬ Conflicts pre e := by
  refine Transducer.clean_iff_forall_step fun pre e _ hpre => ?_
  exact (failed_iff_rejects _ e).trans (quiet_rejects_iff hpre e)

/-- **A violation of the order is caught** by some handler exactly when the stream has an event that contradicts what
the frames before it have settled; what the open group says is looked at only where an enter follows a leave and where
a motion follows an enter. -/
theorem violation_caught_iff (n : Notifiers) (es : List Event) (h : ∃ pre e, pre ++ [e] <+: es ∧ OutOfOrder pre e) :
    ¬ Legal es ∧ (¬ Quiet n es ↔ ∃ pre e, pre ++ [e] <+: es ∧ Conflicts pre e) := by
  refine ⟨not_legal_iff.mpr h, ?_⟩
  rw [quiet_iff_no_conflict]
  push Not
  exact Iff.rfl

/-- A pointer that moves after it has left, before the frame. -/
def motionAfterLeave : List Event :=
  [.pointer (.enter 1 (some 7) 0 0), .pointer .frame, .pointer (.leave 2 (some 7)), .pointer (.motion 3 1 1),
    .pointer .frame]

def downOnce : Event := .touch (.down 1 0 (some 7) 0 0 0)

/-- A touch that goes down twice before the frame. -/
def downTwice : List Event := [downOnce, downOnce, .touch .frame]

/-- A touch that goes down again after the frame. -/
theorem violation_caught_iff_second_down :
    (∃ pre e, pre ++ [e] <+: [downOnce, .touch .frame, downOnce] ∧ OutOfOrder pre e) ∧
      ¬ Legal [downOnce, .touch .frame, downOnce] ∧
      (¬ Quiet {} [downOnce, .touch .frame, downOnce] ↔
        ∃ pre e, pre ++ [e] <+: [downOnce, .touch .frame, downOnce] ∧ Conflicts pre e) := by
  have hbad : ∃ pre e, pre ++ [e] <+: [downOnce, .touch .frame, downOnce] ∧ OutOfOrder pre e :=
    ⟨[downOnce, .touch .frame], downOnce, List.prefix_refl _, show wireDown 0 _ = true by decide⟩
  exact ⟨hbad, violation_caught_iff {} _ hbad⟩

/-- Neither stream is legal, and no handler fails on either. -/
theorem violations_missed :
    (¬ Legal motionAfterLeave ∧ Quiet {} motionAfterLeave) ∧ ¬ Legal downTwice ∧ Quiet {} downTwice := by
  decide

/-! ## Legal streams that raise an alarm -/

/-- The last frame has settled what the event builds on: the surface that a leave names is the one the pointer was on
when that frame came, an up or a motion is of a touch that was down then, and a down of one that was not and whose last
up was not lost. -/
def FramedApart (es : List Event) : Event → Prop
  | .pointer (.leave _ surface) =>
    ∃ location ∈ immediate (closedPart PointerEvent.isFrame (pointerEvents es)), LeaveFits location.surface surface
  | .touch (.down _ _ _ id _ _) => downAtFrame id (touchEvents es) = false ∧ lostUp id (touchEvents es) = false
  | .touch (.up _ _ id) => downAtFrame id (touchEvents es) = true
  | .touch (.motion _ id _ _) => downAtFrame id (touchEvents es) = true
  | _ => True

theorem immediate_concat_frame (ps : List PointerEvent) : immediate (ps ++ [.frame]) = immediate ps := by
  rw [immediate_concat]
  rfl

/-- On a legal stream a frame would commit the immediate location, and the last frame did. -/
theorem quiet_legal_pointer {n : Notifiers} {es : List Event} (h : Quiet n es) (hlegal : Legal es) :
    (after n es).committed = immediate (pointerEvents es) ∧
      (after n es).currentPointerLocation = immediate (closedPart PointerEvent.isFrame (pointerEvents es)) := by
  refine quiet_induction n (P := fun es me => Legal es → me.committed = immediate (pointerEvents es) ∧
    me.currentPointerLocation = immediate (closedPart PointerEvent.isFrame (pointerEvents es)))
    (fun _ => ⟨rfl, rfl⟩) (fun es e me ih hok hlegal => ?_) (fun es e me ih hok hlegal => ?_) h hlegal
  · obtain ⟨hbefore, hin⟩ := legal_concat.mp hlegal
    obtain ⟨hcommitted, hcurrent⟩ := ih hbefore
    have hstep := dispatchPointer_step me e
    rw [hok] at hstep
    rw [pointerEvents_concat_pointer]
    refine ⟨committed_step hcommitted hstep ?_, ?_⟩
    · rintro time x y rfl hout
      exact hin (by simp [OutOfOrder, hout])
    · rw [hstep.currentPointerLocation, closedPart_concat]
      split
      · rename_i hframe
        have he : e = .frame := by cases e <;> first | rfl | cases hframe
        rw [he, immediate_concat_frame, hcommitted]
      · exact hcurrent
  · rw [pointerEvents_concat_touch, (dispatch_touch_pointer me e).1]
    exact ih (legal_concat.mp hlegal).1

/-- A touch whose last up was lost stays up, since a further down would fail. -/
theorem quiet_lostUp {n : Notifiers} {es : List Event} (h : Quiet n es) (i : Int)
    (hlost : lostUp i (touchEvents es) = true) : wireDown i (touchEvents es) = false := by
  induction es using List.reverseRecOn with
  | nil => rfl
  | append_singleton es e ih =>
      obtain ⟨hes, hok⟩ := Transducer.clean_concat.mp h
      have ih := ih hes
      rcases e with e | e
      · rw [touchEvents_concat_pointer] at hlost ⊢
        exact ih hlost
      · rw [touchEvents_concat_touch] at hlost ⊢
        unfold wireDown at ih ⊢
        rw [lastSome_concat]
        cases e with
        | down serial time surface id x y =>
            rw [lostUp_concat rfl] at hlost
            have hfree : heldAtFrame id (touchEvents es) = false := by
              rw [← quiet_held hes id]
              exact Bool.eq_false_iff.mpr fun hheld => hok ((failed_iff_rejects _ _).mpr hheld)
            have hid : id ≠ i := by
              rintro rfl
              simp [heldAtFrame, hlost] at hfree
            simpa [TouchEvent.contact, hid] using ih hlost
        | up serial time id =>
            rw [lostUp_concat rfl] at hlost
            by_cases hid : id = i
            · simp [TouchEvent.contact, hid]
            · simpa [TouchEvent.contact, hid] using ih hlost
        | motion time id x y =>
            rw [lostUp_concat rfl] at hlost
            exact ih hlost
        | frame =>
            have hs := quiet_touchSettled hes i
            rw [lostUp_concat_frame] at hlost
            split at hlost
            · rename_i hup
              have hcurrent : (after n es).currentTouches[i]? ≠ none := fun hfree => by simp [(hs.lifted hfree).1] at hup
              rw [show TouchEvent.contact i .frame = none from rfl, Option.none_or, ← closedPart_append_openGroup TouchEvent.isFrame (touchEvents es),
                lastSome_append, contact_of_up hup (hs.landed hcurrent)]
              rfl
            · exact ih hlost

theorem legal_conflicts_iff {n : Notifiers} {es : List Event} {e : Event} (h : Quiet n es) (hlegal : Legal (es ++ [e])) :
    Rejects (after n es).toPointerTracking (after n es).toTouchTracking e ↔ ¬ FramedApart es e := by
  obtain ⟨hbefore, hin⟩ := legal_concat.mp hlegal
  obtain ⟨hcommitted, hcurrent⟩ := quiet_legal_pointer h hbefore
  have hp := quiet_pointerSettled h
  rcases e with e | e
  · cases e with
    | enter serial surface x y =>
        refine ⟨fun hfail => ?_, fun hno => absurd trivial hno⟩
        refine absurd ?_ hin
        rw [OutOfOrder, ← hcommitted, PointerTracking.committed, hfail.2]
        simp [hfail.1]
    | leave serial surface => rw [Rejects, FramedApart, hcurrent]
    | motion time x y =>
        refine ⟨fun hfail => ?_, fun hno => absurd trivial hno⟩
        refine absurd ?_ hin
        rw [OutOfOrder, ← hcommitted, PointerTracking.committed]
        split <;> simp [hfail.1, hfail.2]
    | button serial time button state => exact ⟨False.elim, fun hno => absurd trivial hno⟩
    | frame =>
        refine ⟨fun hfail => ?_, fun hno => absurd trivial hno⟩
        rw [Rejects, hp.leave_inside hfail.1] at hfail
        cases hfail.2
  · -- a touch that is down has no lost up, so it was held at the last frame only if it was down then
    have hmoves : ∀ id, wireDown id (touchEvents es) = true →
        (heldAtFrame id (touchEvents es) = false ↔ ¬ downAtFrame id (touchEvents es) = true) := by
      intro id hdown
      have hlost : lostUp id (touchEvents es) = false := by
        rw [← Bool.not_eq_true]
        intro hlost
        rw [quiet_lostUp h id hlost] at hdown
        cases hdown
      simp [heldAtFrame, hlost]
    cases e with
    | down serial time surface id x y =>
        rw [Rejects, FramedApart, quiet_held h id, heldAtFrame]
        cases downAtFrame id (touchEvents es) <;> simp
    | up serial time id =>
        rw [Rejects, FramedApart, quiet_held h id]
        exact hmoves id (by simpa [OutOfOrder] using hin)
    | motion time id x y =>
        rw [Rejects, FramedApart, quiet_held h id]
        exact hmoves id (by simpa [OutOfOrder] using hin)
    | frame => exact ⟨False.elim, fun hno => absurd trivial hno⟩

/-- **No false alarms on legal streams that are framed apart**, and on no others: no handler fails on a legal stream
exactly when each leave, down, up and motion of it builds only on what the last frame has settled. -/
theorem no_false_alarm_iff (n : Notifiers) (es : List Event) (h : Legal es) :
    Quiet n es ↔ ∀ pre e, pre ++ [e] <+: es → FramedApart pre e := by
  have hstep : Quiet n es ↔ ∀ pre e, pre ++ [e] <+: es → ¬ ¬ FramedApart pre e :=
    Transducer.clean_iff_forall_step fun pre e hp hpre =>
      (failed_iff_rejects _ e).trans (legal_conflicts_iff hpre (h.restrict hp))
  simp only [not_not] at hstep
  exact hstep

/-- A visit of the pointer and a tap, the whole of each within one frame. -/
def quickVisit : List Event := [.pointer (.enter 1 (some 7) 0 0), .pointer (.leave 2 (some 7)), .pointer .frame]

def quickTap : List Event := [downOnce, .touch (.up 2 0 0), .touch .frame]

/-- A tap with its down, motion and up in three frames. -/
def slowTap : List Event :=
  [downOnce, .touch .frame, .touch (.motion 0 0 1 1), .touch .frame, .touch (.up 2 0 0), .touch .frame]

theorem no_false_alarm_iff_slowTap :
    Legal slowTap ∧ (Quiet {} slowTap ↔ ∀ pre e, pre ++ [e] <+: slowTap → FramedApart pre e) := by
  have hlegal : Legal slowTap := by decide
  exact ⟨hlegal, no_false_alarm_iff {} slowTap hlegal⟩

/-- Both streams are legal, and a handler fails on each. -/
theorem false_alarms : (Legal quickVisit ∧ ¬ Quiet {} quickVisit) ∧ Legal quickTap ∧ ¬ Quiet {} quickTap := by
  decide

end Wlcs
