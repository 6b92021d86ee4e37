import Mathlib.Data.List.Nodup
import Wlcs.Client.PointerNotifications
import Wlcs.Client.PointerTracking
import Wlcs.Lib.OrdMap

/-!
# Button events and button notifiers

`pointer_button` keeps the button events of a frame in a map by button, so that a second event of a button takes the
place of the first. `clicker` is the client with its button notifiers known one by one, so that the calls of each can be
told; `no_button_lost_iff` says when a notifier that stays registered is told of every event.
-/

namespace Wlcs
open EventMachine History

/-- A `wl_pointer.button` event, and a call of a button notifier. -/
structure Click where
  serial : Nat
  button : Nat
  pressed : Bool
deriving DecidableEq, Repr

structure ButtonCall where
  notifier : Nat
  click : Click
deriving DecidableEq, Repr

def PointerEvent.click? : PointerEvent → Option Click
  | .button serial _ code state => some ⟨serial, code, state == Impl.pointerButtonStatePressed⟩
  | _ => none

/-- The button events since the last frame, in the order of their arrival. -/
def clicksReceived (ps : List PointerEvent) : List Click := (pointerGroup ps).filterMap PointerEvent.click?

/-- The entries of `pending_buttons`, in the order of the map. -/
def pendingClicks (me : Impl) : List Click := me.pendingButtons.toList.map fun e => ⟨e.2.1, e.1, e.2.2⟩

/-! ## The notifiers, one by one -/

section Clicker
variable (answer : Nat → PointerButtonNotifier)

/-- The loops of `notify_of_pointer_buttons` over the notifiers of the numbers `ids`: the notifiers that are left, and
every call. -/
def invokeButtons : List Nat → List Click → List Nat × List ButtonCall
  | ids, [] => (ids, [])
  | ids, click :: clicks =>
    let (left, calls) := invokeButtons
      (ids.filter fun id => answer id click.serial click.button click.pressed) clicks
    (left, ids.map (fun id => ⟨id, click⟩) ++ calls)

/-- The client, with the numbers of the button notifiers that are registered. -/
structure Clicking where
  me : Impl
  ids : List Nat

def Clicking.step (c : Clicking) (e : PointerEvent) : Clicking × List ButtonCall :=
  let dispatched := c.me.dispatchPointer e
  if e.isFrame && dispatched.2.failure.isNone then
    let (left, calls) := invokeButtons answer c.ids (pendingClicks c.me)
    (⟨dispatched.1, left⟩, calls)
  else
    (⟨dispatched.1, c.ids⟩, [])

def clicker : Transducer Clicking PointerEvent (List ButtonCall) where
  step := Clicking.step answer

end Clicker

/-- The notifier of a number. -/
def Notifiers.button (n : Notifiers) (id : Nat) : PointerButtonNotifier :=
  n.buttonNotifiers.getD id fun _ _ _ => true

/-- A client that has received no input, its button notifiers numbered in the order of their registration. -/
def Clicking.fresh (n : Notifiers) : Clicking := ⟨Impl.fresh n, List.range n.buttonNotifiers.length⟩

def clickingAfter (n : Notifiers) (ps : List PointerEvent) : Clicking :=
  (clicker n.button).run (Clicking.fresh n) ps

/-- What an event tells a notifier, after the events `ps`. -/
def told (n : Notifiers) (id : Nat) (ps : List PointerEvent) (e : PointerEvent) : List Click :=
  ((((clickingAfter n ps).step n.button e).2).filter (·.notifier = id)).map ButtonCall.click

theorem clickingAfter_concat (n : Notifiers) (ps : List PointerEvent) (e : PointerEvent) :
    clickingAfter n (ps ++ [e]) = ((clickingAfter n ps).step n.button e).1 :=
  (clicker n.button).run_concat _ ps e

theorem clickingAfter_me (n : Notifiers) (ps : List PointerEvent) : (clickingAfter n ps).me = afterPointer n ps := by
  induction ps using List.reverseRecOn with
  | nil => rfl
  | append_singleton ps e ih =>
      rw [clickingAfter_concat, afterPointer_concat, ← ih]
      unfold Clicking.step
      dsimp only
      split <;> rfl

/-- No frame fails, whatever came before it. -/
theorem frame_not_failed (n : Notifiers) (ps : List PointerEvent) :
    ((afterPointer n ps).dispatchPointer .frame).2.failure = none :=
  (pointerFrame_pending _ _ _ _ _ (afterPointer_bracketed n ps) (pointerFrame_step (afterPointer n ps))).1

theorem step_frame (n : Notifiers) (ps : List PointerEvent) :
    ((clickingAfter n ps).step n.button .frame).2 =
      (invokeButtons n.button (clickingAfter n ps).ids (pendingClicks (afterPointer n ps))).2 := by
  unfold Clicking.step
  rw [clickingAfter_me]
  dsimp only
  rw [frame_not_failed]
  rfl

theorem step_other (n : Notifiers) (ps : List PointerEvent) {e : PointerEvent} (h : e.isFrame = false) :
    ((clickingAfter n ps).step n.button e).2 = [] := by
  unfold Clicking.step
  rw [h]
  rfl

/-! ## A notifier that always answers `true` -/

section Loyal
variable {n : Notifiers} {id : Nat}

theorem invokeButtons_sublist (answer : Nat → PointerButtonNotifier) (ids : List Nat) (clicks : List Click) :
    (invokeButtons answer ids clicks).1.Sublist ids := by
  induction clicks generalizing ids with
  | nil => exact List.Sublist.refl _
  | cons click clicks ih => exact (ih _).trans List.filter_sublist

/-- A registered notifier that answers `true` stays, and is called once for each button. -/
theorem invokeButtons_loyal {answer : Nat → PointerButtonNotifier} {ids : List Nat} (hids : ids.Nodup) (hid : id ∈ ids)
    (hloyal : ∀ serial button pressed, answer id serial button pressed = true) (clicks : List Click) :
    id ∈ (invokeButtons answer ids clicks).1 ∧
      ((invokeButtons answer ids clicks).2.filter (·.notifier = id)).map ButtonCall.click = clicks := by
  induction clicks generalizing ids with
  | nil => exact ⟨hid, rfl⟩
  | cons click clicks ih =>
      have hstays : id ∈ ids.filter fun i => answer i click.serial click.button click.pressed :=
        List.mem_filter.mpr ⟨hid, hloyal click.serial click.button click.pressed⟩
      obtain ⟨hleft, hcalls⟩ := ih (hids.sublist List.filter_sublist) hstays
      refine ⟨hleft, ?_⟩
      have honce : ((ids.map fun i => (⟨i, click⟩ : ButtonCall)).filter (·.notifier = id)).map ButtonCall.click =
          [click] := by
        have hone : ids.filter (fun i => decide (i = id)) = [id] := by
          rw [List.filter_eq, List.count_eq_one_of_mem hids hid]
          rfl
        rw [List.filter_map, List.map_map]
        show (ids.filter fun i => decide (i = id)).map _ = [click]
        rw [hone]
        rfl
      rw [invokeButtons]
      dsimp only
      rw [List.filter_append, List.map_append, honce, hcalls]
      rfl

theorem ids_nodup (n : Notifiers) (ps : List PointerEvent) : (clickingAfter n ps).ids.Nodup := by
  induction ps using List.reverseRecOn with
  | nil => exact List.nodup_range
  | append_singleton ps e ih =>
      rw [clickingAfter_concat]
      unfold Clicking.step
      dsimp only
      split
      · exact ih.sublist (invokeButtons_sublist _ _ _)
      · exact ih

theorem loyal_stays (hid : id < n.buttonNotifiers.length)
    (hloyal : ∀ serial button pressed, n.button id serial button pressed = true) (ps : List PointerEvent) :
    id ∈ (clickingAfter n ps).ids := by
  induction ps using List.reverseRecOn with
  | nil => exact List.mem_range.mpr hid
  | append_singleton ps e ih =>
      rw [clickingAfter_concat]
      unfold Clicking.step
      dsimp only
      split
      · exact (invokeButtons_loyal (ids_nodup n ps) ih hloyal _).1
      · exact ih

theorem told_frame (hid : id < n.buttonNotifiers.length)
    (hloyal : ∀ serial button pressed, n.button id serial button pressed = true) (ps : List PointerEvent) :
    told n id ps .frame = pendingClicks (afterPointer n ps) := by
  unfold told
  rw [step_frame]
  exact (invokeButtons_loyal (ids_nodup n ps) (loyal_stays hid hloyal ps) hloyal _).2

end Loyal

/-! ## The numbered notifiers are those of the client -/

section Numbered
variable {me : Impl} {answer : Nat → PointerButtonNotifier}

theorem frameLeave_buttons {me' : Impl} {ns : List Notification} (h : me.frameLeave = .ok (me', ns)) :
    me'.buttonNotifiers = me.buttonNotifiers ∧ me'.pendingButtons = me.pendingButtons := by
  unfold Impl.frameLeave at h
  split at h
  · split at h
    · cases h
    · cases h
      exact ⟨rfl, rfl⟩
  · cases h
    exact ⟨rfl, rfl⟩

theorem frameLocation_buttons (me : Impl) :
    me.frameLocation.1.buttonNotifiers = me.buttonNotifiers ∧ me.frameLocation.1.pendingButtons = me.pendingButtons := by
  unfold Impl.frameLocation
  split
  · exact ⟨rfl, rfl⟩
  · dsimp only
    split <;> exact ⟨rfl, rfl⟩

/-- Each notifier is asked about each button, as long as it answers `true`. -/
theorem filter_invokeButtons (ids : List Nat) (es : List (Nat × Nat × Bool)) :
    es.foldl (fun notifiers e => notifiers.filter fun (notifier : PointerButtonNotifier) => notifier e.2.1 e.1 e.2.2)
        (ids.map answer) =
      (invokeButtons answer ids (es.map fun e => ⟨e.2.1, e.1, e.2.2⟩)).1.map answer := by
  induction es generalizing ids with
  | nil => rfl
  | cons e es ih =>
      rw [List.foldl_cons, List.filter_map, ih]
      rfl

theorem frameButtons_buttonNotifiers {ids : List Nat} (h : me.buttonNotifiers = ids.map answer) :
    me.frameButtons.1.buttonNotifiers = (invokeButtons answer ids (pendingClicks me)).1.map answer := by
  unfold Impl.frameButtons
  split
  case isTrue hempty =>
      have : me.pendingButtons.toList = [] := by
        rwa [← List.isEmpty_iff, Std.TreeMap.isEmpty_toList]
      rw [pendingClicks, this, h]
      rfl
  case isFalse =>
      unfold pendingClicks Impl.notifyOfPointerButtons
      rw [← filter_invokeButtons, ← h, Std.TreeMap.foldl_eq_foldl_toList]

theorem step_buttonNotifiers {c : Clicking} (h : c.me.buttonNotifiers = c.ids.map answer) (e : PointerEvent) :
    (c.step answer e).1.me.buttonNotifiers = (c.step answer e).1.ids.map answer := by
  obtain ⟨me, ids⟩ := c
  unfold Clicking.step
  cases e with
  | enter serial surface x y =>
      simp only [PointerEvent.isFrame, Bool.false_and, Bool.false_eq_true, if_false, Impl.dispatchPointer,
        Impl.pointerEnter]
      split <;> exact h
  | leave serial surface =>
      simp only [PointerEvent.isFrame, Bool.false_and, Bool.false_eq_true, if_false, Impl.dispatchPointer,
        Impl.pointerLeave]
      split
      · exact h
      · split <;> exact h
  | motion time x y =>
      simp only [PointerEvent.isFrame, Bool.false_and, Bool.false_eq_true, if_false, Impl.dispatchPointer,
        Impl.pointerMotion]
      split <;> exact h
  | button serial time button state => exact h
  | frame =>
      simp only [PointerEvent.isFrame, Bool.true_and, Impl.dispatchPointer, Impl.pointerFrame]
      cases hleave : me.frameLeave with
      | error f => exact h
      | ok left =>
          obtain ⟨me', ns⟩ := left
          obtain ⟨hnotifiers, hpending⟩ := frameLeave_buttons hleave
          obtain ⟨hnotifiers', hpending'⟩ := frameLocation_buttons me'
          have hsame : pendingClicks me'.frameLocation.1 = pendingClicks me := by
            unfold pendingClicks
            rw [hpending', hpending]
          show me'.frameLocation.1.frameButtons.1.buttonNotifiers =
            (invokeButtons answer ids (pendingClicks me)).1.map answer
          rw [← hsame]
          exact frameButtons_buttonNotifiers (hnotifiers'.trans (hnotifiers.trans h))

end Numbered

theorem buttonNotifiers_eq (n : Notifiers) (ps : List PointerEvent) :
    (afterPointer n ps).buttonNotifiers = (clickingAfter n ps).ids.map n.button := by
  rw [← clickingAfter_me]
  induction ps using List.reverseRecOn with
  | nil =>
      show n.buttonNotifiers = (List.range n.buttonNotifiers.length).map n.button
      apply List.ext_getElem
      · simp
      · intro i hi _
        simp [Notifiers.button, hi]
  | append_singleton ps e ih =>
      rw [clickingAfter_concat]
      exact step_buttonNotifiers ih e

/-! ## What is pending -/

/-- What the events since the last frame say of a button. -/
def PointerEvent.press? (button : Nat) (e : PointerEvent) : Option (Nat × Bool) :=
  (e.click?.filter (·.button = button)).map fun click => (click.serial, click.pressed)

theorem pendingButtons_concat {t t' : PointerTracking} {e : PointerEvent} {f : Option Failure} {ms : List Notification}
    (h : PointerStep t e t' f ms) (he : e.isFrame = false) (button : Nat) :
    t'.pendingButtons[button]? = (e.press? button).or t.pendingButtons[button]? := by
  cases h with
  | @button serial time code state =>
      show (t.pendingButtons.insert code _)[button]? = _
      rw [Std.TreeMap.getElem?_insert]
      by_cases hcode : code = button <;> simp [hcode, PointerEvent.press?, PointerEvent.click?, Option.filter]
  | frameFailed | frame => cases he
  | enterFailed | enter | leaveOutside | leaveOther | leave | motionOutside | motion => rfl

theorem pendingButtons_eq (n : Notifiers) (ps : List PointerEvent) (button : Nat) :
    (afterPointer n ps).pendingButtons[button]? = lastSome (PointerEvent.press? button) (pointerGroup ps) := by
  induction ps using List.reverseRecOn with
  | nil => rfl
  | append_singleton ps e ih =>
      rw [afterPointer_concat]
      cases he : e.isFrame with
      | false =>
          rw [pointerGroup_concat he, lastSome_concat, ← ih]
          exact pendingButtons_concat (dispatchPointer_step _ e) he button
      | true =>
          obtain rfl : e = .frame := by
            cases e <;> first | rfl | cases he
          have hempty := (pointerFrame_pending _ _ _ _ _ (afterPointer_bracketed n ps)
            (pointerFrame_step (afterPointer n ps))).2.2.2
          rw [pointerGroup_concat_frame]
          exact Std.TreeMap.getElem?_of_isEmpty hempty

/-- The entry of a button, and the events of it that have arrived. -/
theorem pendingClicks_filter (n : Notifiers) (ps : List PointerEvent) (button : Nat) :
    (pendingClicks (afterPointer n ps)).filter (·.button = button) =
      ((clicksReceived ps).filter (·.button = button)).getLast?.toList := by
  have hpress : (pointerGroup ps).filterMap (PointerEvent.press? button) =
      ((clicksReceived ps).filter (·.button = button)).map fun click => (click.serial, click.pressed) := by
    unfold clicksReceived
    rw [List.filter_filterMap, List.map_filterMap]
    rfl
  have hclick : ∀ click ∈ (clicksReceived ps).filter (·.button = button), click.button = button := by
    intro click hmem
    simpa using (List.mem_filter.mp hmem).2
  unfold pendingClicks
  rw [List.filter_map]
  show ((afterPointer n ps).pendingButtons.toList.filter fun e => decide (e.1 = button)).map _ = _
  rw [OrdMap.filter_toList, pendingButtons_eq, lastSome_eq_getLast?, hpress, List.getLast?_map]
  cases hlast : ((clicksReceived ps).filter (·.button = button)).getLast? with
  | none => rfl
  | some click =>
      have := hclick click (List.mem_of_getLast? hlast)
      simp [← this]

/-! ## Every event -/

/-- A frame tells the notifier of the button events since the last frame, each once, and those of one button in the
order in which they came. -/
def ToldOfAll (n : Notifiers) (id : Nat) (ps : List PointerEvent) : Prop :=
  (told n id ps .frame).Perm (clicksReceived ps) ∧
    ∀ button, (told n id ps .frame).filter (·.button = button) = (clicksReceived ps).filter (·.button = button)

/-- No two button events since the last frame are of the same button. -/
def ButtonsDistinct (ps : List PointerEvent) : Prop := ((clicksReceived ps).map Click.button).Nodup

instance (ps : List PointerEvent) : Decidable (ButtonsDistinct ps) :=
  inferInstanceAs (Decidable ((clicksReceived ps).map Click.button).Nodup)

theorem pendingClicks_nodup (me : Impl) : ((pendingClicks me).map Click.button).Nodup := by
  unfold pendingClicks
  rw [List.map_map]
  apply List.pairwise_map.mpr
  exact OrdMap.toList_distinct me.pendingButtons

/-- One entry for each button is one for each event, if the events are of different buttons. -/
theorem filter_of_distinct {ps : List PointerEvent} (h : ButtonsDistinct ps) (button : Nat) :
    ((clicksReceived ps).filter (·.button = button)).getLast?.toList =
      (clicksReceived ps).filter (·.button = button) := by
  have hnodup : (((clicksReceived ps).filter (·.button = button)).map Click.button).Nodup :=
    h.sublist (List.filter_sublist.map _)
  have hall : ∀ b ∈ ((clicksReceived ps).filter (·.button = button)).map Click.button, b = button := by
    intro b hb
    obtain ⟨click, hclick, rfl⟩ := List.mem_map.mp hb
    simpa using (List.mem_filter.mp hclick).2
  rw [List.eq_replicate_of_mem hall, List.nodup_replicate, List.length_map] at hnodup
  generalize (clicksReceived ps).filter (·.button = button) = clicks at hnodup
  match clicks with
  | [] => rfl
  | [click] => rfl
  | click :: click' :: rest => simp at hnodup

theorem perm_of_filter_eq {cs ds : List Click}
    (h : ∀ button, cs.filter (·.button = button) = ds.filter (·.button = button)) : cs.Perm ds := by
  rw [List.perm_iff_count]
  intro click
  have hself : ∀ es : List Click, (es.filter (·.button = click.button)).count click = es.count click :=
    fun es => List.count_filter (by simp)
  rw [← hself cs, ← hself ds, h]

/-- **No button event is lost**: at every frame of a stream, a notifier that always answers `true` is told of the button
events since the last one, exactly when no two of these are of the same button. Nothing is told between frames, and
nothing is pending after one, in any case. -/
theorem no_button_lost_iff (n : Notifiers) (id : Nat) (hid : id < n.buttonNotifiers.length)
    (hloyal : ∀ serial button pressed, n.button id serial button pressed = true) (ps : List PointerEvent) :
    ((∀ pre, pre ++ [.frame] <+: ps → ToldOfAll n id pre) ∧
      (∀ pre e, pre ++ [e] <+: ps → e ≠ .frame → told n id pre e = []) ∧
      ∀ pre, pre ++ [.frame] <+: ps → (afterPointer n (pre ++ [.frame])).pendingButtons.isEmpty = true) ↔
    ∀ pre, pre ++ [.frame] <+: ps → ButtonsDistinct pre := by
  constructor
  · rintro ⟨htold, -, -⟩ pre hpre
    have hperm := (htold pre hpre).1
    rw [told_frame hid hloyal] at hperm
    exact (hperm.map Click.button).nodup_iff.mp (pendingClicks_nodup _)
  · intro hdistinct
    refine ⟨fun pre hpre => ?_, fun pre e _ he => ?_, fun pre _ => ?_⟩
    · have hfilter : ∀ button, (told n id pre .frame).filter (·.button = button) =
          (clicksReceived pre).filter (·.button = button) := by
        intro button
        rw [told_frame hid hloyal, pendingClicks_filter, filter_of_distinct (hdistinct pre hpre)]
      exact ⟨perm_of_filter_eq hfilter, hfilter⟩
    · unfold told
      rw [step_other n pre (by cases e <;> first | rfl | exact absurd rfl he)]
      rfl
    · rw [afterPointer_concat]
      exact (pointerFrame_pending _ _ _ _ _ (afterPointer_bracketed n pre)
        (pointerFrame_step (afterPointer n pre))).2.2.2

theorem no_button_lost_iff_twoButtons :
    (∀ serial button pressed, Notifiers.button { buttonNotifiers := [fun _ _ _ => true] } 0 serial button pressed = true) ∧
      ∀ pre, pre ++ [.frame] <+: [PointerEvent.button 1 0 272 1, .button 2 0 273 1, .frame] →
        ToldOfAll { buttonNotifiers := [fun _ _ _ => true] } 0 pre := by
  have hloyal : ∀ serial button pressed,
      Notifiers.button { buttonNotifiers := [fun _ _ _ => true] } 0 serial button pressed = true := fun _ _ _ => rfl
  have hdistinct : ∀ pre e, pre ++ [e] <+: [PointerEvent.button 1 0 272 1, .button 2 0 273 1, .frame] →
      e = .frame → ButtonsDistinct pre := forall_concat_iff_take.mpr (by decide)
  exact ⟨hloyal, ((no_button_lost_iff _ 0 (by decide) hloyal _).mpr fun pre hpre => hdistinct pre _ hpre rfl).1⟩

/-- A button is pressed and released in one frame: the notifier is told of the release only. -/
theorem press_lost :
    told { buttonNotifiers := [fun _ _ _ => true] } 0 [.button 1 0 272 1, .button 2 0 272 0] .frame =
        [⟨2, 272, false⟩] ∧
      clicksReceived [.button 1 0 272 1, .button 2 0 272 0] = [⟨1, 272, true⟩, ⟨2, 272, false⟩] ∧
      ¬ ToldOfAll { buttonNotifiers := [fun _ _ _ => true] } 0 [.button 1 0 272 1, .button 2 0 272 0] := by
  have htold : told { buttonNotifiers := [fun _ _ _ => true] } 0 [.button 1 0 272 1, .button 2 0 272 0] .frame =
      [⟨2, 272, false⟩] := by decide
  refine ⟨htold, by decide, fun h => ?_⟩
  have := h.1.length_eq
  rw [htold] at this
  exact absurd this (by decide)

end Wlcs
