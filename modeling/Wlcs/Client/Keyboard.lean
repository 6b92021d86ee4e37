import Wlcs.Client.Seat
import Wlcs.Lib.History

/-!
# The keyboard focus

`keyboard_enter` and `keyboard_leave` keep the surface that has the keyboard. A leave arrives without its surface if the
client has destroyed the proxy in the meantime, and `keyboard_leave` compares what arrives with what it keeps:
`keyboard_focus_iff`.
-/

namespace Wlcs
open EventMachine History

def SeatClient.keyboardFocusedWindow (me : SeatClient) : SurfacePtr := me.keyboardFocusedSurface

inductive FocusEvent
  /-- an event as it arrives at the listener -/
  | keyboard (e : KeyboardEvent)
  /-- the client destroys the proxy of a surface -/
  | destroy (surface : Nat)
deriving DecidableEq, Repr

def focusTracker : Transducer SeatClient FocusEvent Unit where
  step me
    | .keyboard e => (me.dispatchKeyboard e, ())
    | .destroy _ => (me, ())

/-- A client after a stream of keyboard events and destructions of its surfaces. -/
def afterFocus (es : List FocusEvent) : SeatClient := focusTracker.run {} es

theorem afterFocus_concat (es : List FocusEvent) (e : FocusEvent) :
    afterFocus (es ++ [e]) = (focusTracker.step (afterFocus es) e).1 :=
  focusTracker.run_concat _ es e

/-! ## The streams -/

/-- An enter gives the keyboard to its surface, a leave takes it away. -/
def FocusEvent.change : FocusEvent → Option (Option SurfacePtr)
  | .keyboard (.enter _ surface) => some (some surface)
  | .keyboard (.leave _ _) => some none
  | _ => none

def FocusEvent.isEnter : FocusEvent → Bool
  | .keyboard (.enter _ _) => true
  | _ => false

/-- The surface of the last enter, if no leave has followed it. -/
def focusEntered (es : List FocusEvent) : Option SurfacePtr := (lastSome FocusEvent.change es).join

/-- The surface that has the keyboard has been destroyed since it got it. -/
def FocusDestroyed (es : List FocusEvent) : Prop :=
  ∃ surface, focusEntered es = some (some surface) ∧ .destroy surface ∈ openGroup FocusEvent.isEnter es

instance (es : List FocusEvent) : Decidable (FocusDestroyed es) :=
  match h : focusEntered es with
  | some (some surface) =>
    decidable_of_iff (.destroy surface ∈ openGroup FocusEvent.isEnter es) (by simp [FocusDestroyed, h])
  | some none => isFalse (by simp [FocusDestroyed, h])
  | none => isFalse (by simp [FocusDestroyed, h])

/-- The events come in protocol order. A leave arrives with the surface of the enter before it, or with null if that
has been destroyed. -/
def FocusFollows (es : List FocusEvent) : FocusEvent → Prop
  | .keyboard (.enter _ _) => focusEntered es = none
  | .keyboard (.leave _ surface) =>
    ∃ s, focusEntered es = some s ∧ (FocusDestroyed es ∧ surface = none ∨ ¬ FocusDestroyed es ∧ surface = s)
  | _ => True

instance (es : List FocusEvent) : DecidablePred (FocusFollows es)
  | .keyboard (.enter _ _) => inferInstanceAs (Decidable (focusEntered es = none))
  | .keyboard (.leave _ surface) =>
    match h : focusEntered es with
    | some s =>
      decidable_of_iff (FocusDestroyed es ∧ surface = none ∨ ¬ FocusDestroyed es ∧ surface = s)
        (by simp [FocusFollows, h])
    | none => isFalse (by simp [FocusFollows, h])
  | .keyboard (.keymap _) | .keyboard (.key ..) | .keyboard .modifiers | .keyboard .repeatInfo | .destroy _ => isTrue trivial

def FocusOrdered (es : List FocusEvent) : Prop := ∀ pre e, pre ++ [e] <+: es → FocusFollows pre e

/-- The surface that has the keyboard, and null if none has. -/
def focusOf (es : List FocusEvent) : SurfacePtr := (focusEntered es).join

/-! ## One event -/

theorem focusEntered_concat (es : List FocusEvent) (e : FocusEvent) :
    focusEntered (es ++ [e]) = (e.change.or (lastSome FocusEvent.change es)).join := by
  unfold focusEntered
  rw [lastSome_concat]

/-- An event that is no leave keeps the client right. -/
theorem focus_of_not_leave {es : List FocusEvent} {e : FocusEvent}
    (h : (afterFocus es).keyboardFocusedWindow = focusOf es) (he : ∀ serial surface, e ≠ .keyboard (.leave serial surface)) :
    (afterFocus (es ++ [e])).keyboardFocusedWindow = focusOf (es ++ [e]) := by
  unfold focusOf at h ⊢
  rw [focusEntered_concat, afterFocus_concat]
  cases e with
  | destroy surface => exact h
  | keyboard e =>
      cases e with
      | enter serial surface => rfl
      | leave serial surface => exact absurd rfl (he serial surface)
      | keymap fd => exact h
      | key serial time key state => exact h
      | modifiers => exact h
      | repeatInfo => exact h

theorem focus_of_leave {es : List FocusEvent} {serial : Nat} {surface : SurfacePtr}
    (h : (afterFocus es).keyboardFocusedWindow = focusOf es)
    (hfollows : FocusFollows es (.keyboard (.leave serial surface))) :
    (afterFocus (es ++ [.keyboard (.leave serial surface)])).keyboardFocusedWindow =
      focusOf (es ++ [.keyboard (.leave serial surface)]) ↔ ¬ FocusDestroyed es := by
  obtain ⟨s, hs, hsurface⟩ := hfollows
  have hfocus : (afterFocus es).keyboardFocusedSurface = s := by
    rw [← SeatClient.keyboardFocusedWindow, h, focusOf, hs]
    rfl
  have hnone : focusOf (es ++ [.keyboard (.leave serial surface)]) = none := by
    unfold focusOf
    rw [focusEntered_concat]
    rfl
  rw [hnone, afterFocus_concat]
  show ((afterFocus es).keyboardLeave serial surface).keyboardFocusedSurface = none ↔ _
  unfold SeatClient.keyboardLeave
  rw [hfocus]
  rcases hsurface with ⟨hdestroyed, rfl⟩ | ⟨hkept, rfl⟩
  · have hd := hdestroyed
    obtain ⟨x, hx, -⟩ := hdestroyed
    obtain rfl : s = some x := Option.some.inj (hs.symm.trans hx)
    simp [hfocus, hd]
  · simp [hkept]

/-- **The keyboard focus is tracked**, on every stream in protocol order, exactly when no leave comes after the client has
destroyed the surface that is left: such a leave arrives without a surface, and `keyboard_leave` passes over it. -/
theorem keyboard_focus_iff {es : List FocusEvent} (hordered : FocusOrdered es) :
    (∀ pre, pre <+: es → (afterFocus pre).keyboardFocusedWindow = focusOf pre) ↔
      ∀ pre e, pre ++ [e] <+: es → ∀ serial surface, e = .keyboard (.leave serial surface) → ¬ FocusDestroyed pre := by
  apply forall_prefix_iff
  · rfl
  · intro pre e hpre h
    by_cases he : ∃ serial surface, e = .keyboard (.leave serial surface)
    · obtain ⟨serial, surface, rfl⟩ := he
      rw [focus_of_leave h (hordered pre _ hpre)]
      exact ⟨fun hkept _ _ _ => hkept, fun hkept => hkept serial surface rfl⟩
    · have hother : ∀ serial surface, e ≠ .keyboard (.leave serial surface) :=
        fun serial surface heq => he ⟨serial, surface, heq⟩
      exact ⟨fun _ serial surface heq => absurd heq (hother serial surface), fun _ => focus_of_not_leave h hother⟩

theorem keyboard_focus_iff_destroyedLater :
    FocusOrdered [.keyboard (.enter 1 (some 7)), .keyboard (.key 2 0 30 1), .keyboard (.leave 3 (some 7)), .destroy 7,
        .keyboard (.enter 4 (some 8))] ∧
      ∀ pre, pre <+: [.keyboard (.enter 1 (some 7)), .keyboard (.key 2 0 30 1), .keyboard (.leave 3 (some 7)),
          .destroy 7, .keyboard (.enter 4 (some 8))] →
        (afterFocus pre).keyboardFocusedWindow = focusOf pre := by
  have hordered : FocusOrdered [.keyboard (.enter 1 (some 7)), .keyboard (.key 2 0 30 1), .keyboard (.leave 3 (some 7)),
      .destroy 7, .keyboard (.enter 4 (some 8))] := forall_concat_iff_take.mpr (by decide)
  refine ⟨hordered, (keyboard_focus_iff hordered).mpr ?_⟩
  intro pre e hpre serial surface he
  have hkept : ∀ pre e, pre ++ [e] <+: [FocusEvent.keyboard (.enter 1 (some 7)), .keyboard (.key 2 0 30 1),
      .keyboard (.leave 3 (some 7)), .destroy 7, .keyboard (.enter 4 (some 8))] →
      e = .keyboard (.leave 3 (some 7)) → ¬ FocusDestroyed pre := forall_concat_iff_take.mpr (by decide)
  refine hkept pre e hpre ?_
  have hmem := hpre.subset (List.mem_append_right pre List.mem_cons_self)
  rw [he] at hmem ⊢
  simpa using hmem

/-- The client destroys the surface that has the keyboard: it goes on reporting it when the keyboard has left. -/
theorem left_surface_focused :
    FocusOrdered [.keyboard (.enter 1 (some 7)), .destroy 7, .keyboard (.leave 2 none)] ∧
      (afterFocus [.keyboard (.enter 1 (some 7)), .destroy 7, .keyboard (.leave 2 none)]).keyboardFocusedWindow =
        some 7 ∧
      focusOf [.keyboard (.enter 1 (some 7)), .destroy 7, .keyboard (.leave 2 none)] = none :=
  ⟨forall_concat_iff_take.mpr (by decide), rfl, rfl⟩

end Wlcs
