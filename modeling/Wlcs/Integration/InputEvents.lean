import Mathlib.Logic.Function.Basic
import Wlcs.Lib.History
import Wlcs.Lib.Machine

/-!
# Waiting for a fake input event

`emit_mir_event` stamps an event with the time, has the listener expect an event of that time, hands the event to Mir and
waits until the listener has seen it. The listener keeps the signals to raise by their times, and takes no second one for a
time that it already expects.

* `inputEvents` : any number of calls, which may overlap, and their events, which are dispatched in any order;
* `signalled_iff` : which signals are raised in a run, and that a call with a time of its own waits for its own event.
-/

namespace Wlcs.Integration
open EventMachine History

/-- Where a call of `emit_mir_event` is; `T` are the times. -/
inductive EmitPc (T : Type)
  | idle
  /-- the listener has been told, and the event is about to be emitted -/
  | expecting (eventTime : T)
  | waiting (eventTime : T)
  | returned (eventTime : T) (sent : Bool)
deriving DecidableEq, Repr

namespace EmitPc
variable {T : Type}

def eventTime? : EmitPc T → Option T
  | .idle => none
  | .expecting eventTime | .waiting eventTime | .returned eventTime _ => some eventTime

end EmitPc

/-- The calls are numbered, and a number also stands for the event and the signal of its call. -/
structure InputEvents (T : Type) where
  expectedEvents : T → Option Nat := fun _ => none
  calls : Nat → EmitPc T := fun _ => .idle
  /-- the events that Mir has not dispatched yet -/
  inFlight : List Nat := []
  raised : List Nat := []

inductive InputAction (T : Type)
  | expect (i : Nat) (eventTime : T)
  | emit (i : Nat)
  /-- `seat_dispatch_event` -/
  | dispatch (i : Nat) (eventTime : T)
  | wait (i : Nat)
  | timeout (i : Nat)
deriving DecidableEq, Repr

namespace InputEvents
variable {T : Type} [DecidableEq T]

/-- `std::unordered_map::insert` -/
def expectEventWithTime (me : InputEvents T) (i : Nat) (eventTime : T) : InputEvents T :=
  if me.expectedEvents eventTime = none then
    { me with expectedEvents := Function.update me.expectedEvents eventTime (some i) }
  else me

def seatDispatchEvent (me : InputEvents T) (eventTime : T) : InputEvents T :=
  match me.expectedEvents eventTime with
  | some i =>
      { me with
        raised := me.raised ++ [i]
        expectedEvents := Function.update me.expectedEvents eventTime none }
  | none => me

def goTo (me : InputEvents T) (i : Nat) (pc : EmitPc T) : InputEvents T :=
  { me with calls := Function.update me.calls i pc }

def step (me : InputEvents T) : InputAction T → Option (InputEvents T)
  | .expect i eventTime =>
      if me.calls i = .idle then some ((me.expectEventWithTime i eventTime).goTo i (.expecting eventTime)) else none
  | .emit i =>
      match me.calls i with
      | .expecting eventTime => some ({ me with inFlight := me.inFlight ++ [i] }.goTo i (.waiting eventTime))
      | _ => none
  | .dispatch i eventTime =>
      if i ∈ me.inFlight ∧ (me.calls i).eventTime? = some eventTime then
        some ({ me with inFlight := me.inFlight.erase i }.seatDispatchEvent eventTime)
      else none
  | .wait i =>
      match me.calls i with
      | .waiting eventTime => if i ∈ me.raised then some (me.goTo i (.returned eventTime true)) else none
      | _ => none
  | .timeout i =>
      match me.calls i with
      | .waiting eventTime => if i ∈ me.raised then none else some (me.goTo i (.returned eventTime false))
      | _ => none

end InputEvents

def inputEvents {T : Type} [DecidableEq T] : Guarded (InputEvents T) (InputAction T) := ⟨InputEvents.step⟩

/-! ## What is expected -/

section Runs
variable {T : Type} [DecidableEq T] {s : InputEvents T} {as : List (InputAction T)}

/-- What an action has to do with one time: the call that expects it, or `none` for an event of that time. -/
def mark (eventTime : T) : InputAction T → Option (Option Nat)
  | .expect i t => if t = eventTime then some (some i) else none
  | .dispatch _ t => if t = eventTime then some none else none
  | _ => none

def marks (eventTime : T) (as : List (InputAction T)) : List (Option Nat) := as.filterMap (mark eventTime)

theorem marks_concat (eventTime : T) (as : List (InputAction T)) (a : InputAction T) :
    marks eventTime (as ++ [a]) = marks eventTime as ++ (mark eventTime a).toList := by
  rw [marks, List.filterMap_append, marks, List.filterMap_cons, List.filterMap_nil]
  cases mark eventTime a with
  | none => rfl
  | some m => rfl

/-- The steps with their guards. -/
inductive InputStep (s : InputEvents T) : InputAction T → InputEvents T → Prop
  | expect {i : Nat} {eventTime : T} (hidle : s.calls i = .idle) :
      InputStep s (.expect i eventTime) ((s.expectEventWithTime i eventTime).goTo i (.expecting eventTime))
  | emit {i : Nat} {eventTime : T} (hpc : s.calls i = .expecting eventTime) :
      InputStep s (.emit i) ({ s with inFlight := s.inFlight ++ [i] }.goTo i (.waiting eventTime))
  | dispatch {i : Nat} {eventTime : T} (hflight : i ∈ s.inFlight) (htime : (s.calls i).eventTime? = some eventTime) :
      InputStep s (.dispatch i eventTime) ({ s with inFlight := s.inFlight.erase i }.seatDispatchEvent eventTime)
  | wait {i : Nat} {eventTime : T} (hpc : s.calls i = .waiting eventTime) (hraised : i ∈ s.raised) :
      InputStep s (.wait i) (s.goTo i (.returned eventTime true))
  | timeout {i : Nat} {eventTime : T} (hpc : s.calls i = .waiting eventTime) (hraised : i ∉ s.raised) :
      InputStep s (.timeout i) (s.goTo i (.returned eventTime false))

theorem inputEvents_step_inv {a : InputAction T} {t : InputEvents T} (h : inputEvents.step s a = some t) :
    InputStep s a t := by
  cases a with
  | expect i eventTime =>
      simp only [inputEvents, InputEvents.step] at h
      split at h
      case isTrue hidle =>
        obtain rfl := Option.some.inj h
        exact .expect hidle
      case isFalse => cases h
  | emit i =>
      simp only [inputEvents, InputEvents.step] at h
      split at h
      case h_1 eventTime hpc =>
        obtain rfl := Option.some.inj h
        exact .emit hpc
      case h_2 => cases h
  | dispatch i eventTime =>
      simp only [inputEvents, InputEvents.step] at h
      split at h
      case isTrue hguard =>
        obtain rfl := Option.some.inj h
        exact .dispatch hguard.1 hguard.2
      case isFalse => cases h
  | wait i =>
      simp only [inputEvents, InputEvents.step] at h
      split at h
      case h_1 eventTime hpc =>
        split at h
        case isTrue hraised =>
          obtain rfl := Option.some.inj h
          exact .wait hpc hraised
        case isFalse => cases h
      case h_2 => cases h
  | timeout i =>
      simp only [inputEvents, InputEvents.step] at h
      split at h
      case h_1 eventTime hpc =>
        split at h
        case isTrue => cases h
        case isFalse hraised =>
          obtain rfl := Option.some.inj h
          exact .timeout hpc hraised
      case h_2 => cases h

theorem expectEventWithTime_expectedEvents (me : InputEvents T) (i : Nat) (t u : T) :
    (me.expectEventWithTime i t).expectedEvents u =
      if u = t then (me.expectedEvents t).or (some i) else me.expectedEvents u := by
  unfold InputEvents.expectEventWithTime
  cases h : me.expectedEvents t with
  | none =>
      rw [if_pos rfl]
      exact Function.update_apply _ _ _ _
  | some j =>
      rw [if_neg (Option.some_ne_none j)]
      split
      case isTrue hut => rw [hut, h, Option.some_or]
      case isFalse => rfl

@[simp] theorem expectEventWithTime_raised (me : InputEvents T) (i : Nat) (t : T) :
    (me.expectEventWithTime i t).raised = me.raised := by
  unfold InputEvents.expectEventWithTime
  split <;> rfl

@[simp] theorem expectEventWithTime_calls (me : InputEvents T) (i : Nat) (t : T) :
    (me.expectEventWithTime i t).calls = me.calls := by
  unfold InputEvents.expectEventWithTime
  split <;> rfl

@[simp] theorem expectEventWithTime_inFlight (me : InputEvents T) (i : Nat) (t : T) :
    (me.expectEventWithTime i t).inFlight = me.inFlight := by
  unfold InputEvents.expectEventWithTime
  split <;> rfl

theorem seatDispatchEvent_expectedEvents (me : InputEvents T) (t u : T) :
    (me.seatDispatchEvent t).expectedEvents u = if u = t then none else me.expectedEvents u := by
  unfold InputEvents.seatDispatchEvent
  cases h : me.expectedEvents t with
  | none =>
      by_cases hut : u = t
      · rw [if_pos hut, hut]
        exact h
      · rw [if_neg hut]
  | some i => exact Function.update_apply _ _ _ _

theorem seatDispatchEvent_raised (me : InputEvents T) (t : T) :
    (me.seatDispatchEvent t).raised = me.raised ++ (me.expectedEvents t).toList := by
  unfold InputEvents.seatDispatchEvent
  cases me.expectedEvents t with
  | none => exact (List.append_nil _).symm
  | some i => rfl

@[simp] theorem seatDispatchEvent_calls (me : InputEvents T) (t : T) : (me.seatDispatchEvent t).calls = me.calls := by
  unfold InputEvents.seatDispatchEvent
  cases me.expectedEvents t with
  | none => rfl
  | some i => rfl

@[simp] theorem seatDispatchEvent_inFlight (me : InputEvents T) (t : T) :
    (me.seatDispatchEvent t).inFlight = me.inFlight := by
  unfold InputEvents.seatDispatchEvent
  cases me.expectedEvents t with
  | none => rfl
  | some i => rfl

/-- The calls that expect a time since the last event of that time; the first of them has its signal in the map. -/
def waitingFor (eventTime : T) (as : List (InputAction T)) : List (Option Nat) :=
  openGroup Option.isNone (marks eventTime as)

/-- A call was the first to expect its time, and an event of that time came. -/
def Signalled (i : Nat) (as : List (InputAction T)) : Prop :=
  ∃ eventTime, ∃ group ∈ closedGroups Option.isNone (marks eventTime as), group.head? = some (some i)

structure Listening (as : List (InputAction T)) (s : InputEvents T) : Prop where
  expected : ∀ eventTime, s.expectedEvents eventTime = (waitingFor eventTime as).head?.join
  raised : ∀ i, i ∈ s.raised ↔ Signalled i as

theorem head_concat {group : List (Option Nat)} (h : ∀ m ∈ group, m.isNone = false) (i : Nat) :
    (group ++ [some i]).head?.join = group.head?.join.or (some i) := by
  cases group with
  | nil => rfl
  | cons m group =>
      cases m with
      | none => exact absurd (h none List.mem_cons_self) (by decide)
      | some j => rfl

theorem listening_of_mark_none {a : InputAction T} {t : InputEvents T} (h : Listening as s)
    (ha : ∀ eventTime, mark eventTime a = none) (hexpected : t.expectedEvents = s.expectedEvents)
    (hraised : t.raised = s.raised) : Listening (as ++ [a]) t := by
  have hmarks : ∀ eventTime, marks eventTime (as ++ [a]) = marks eventTime as := by
    intro eventTime
    rw [marks_concat, ha, Option.toList_none, List.append_nil]
  refine ⟨fun eventTime => ?_, fun i => ?_⟩
  · rw [hexpected, h.expected, waitingFor, waitingFor, hmarks]
  · rw [hraised, h.raised, Signalled, Signalled]
    simp only [hmarks]

theorem signalled_dispatch (as : List (InputAction T)) (i : Nat) (t : T) (j : Nat) :
    Signalled j (as ++ [.dispatch i t]) ↔ Signalled j as ∨ (waitingFor t as).head? = some (some j) := by
  have hgroups : ∀ u, closedGroups Option.isNone (marks u (as ++ [.dispatch i t])) =
      closedGroups Option.isNone (marks u as) ++ if t = u then [waitingFor u as] else [] := by
    intro u
    rw [marks_concat, mark]
    split
    · rw [Option.toList_some, closedGroups_concat, if_pos Option.isNone_none]
      rfl
    · rw [Option.toList_none, List.append_nil, List.append_nil]
  constructor
  · rintro ⟨u, group, hgroup, hhead⟩
    rw [hgroups, List.mem_append] at hgroup
    rcases hgroup with hgroup | hgroup
    · exact Or.inl ⟨u, group, hgroup, hhead⟩
    · split at hgroup
      case isTrue htu =>
        rw [List.mem_singleton.mp hgroup, ← htu] at hhead
        exact Or.inr hhead
      case isFalse => cases hgroup
  · rintro (⟨u, group, hgroup, hhead⟩ | hhead)
    · refine ⟨u, group, ?_, hhead⟩
      rw [hgroups]
      exact List.mem_append_left _ hgroup
    · refine ⟨t, waitingFor t as, ?_, hhead⟩
      rw [hgroups, if_pos rfl]
      exact List.mem_append_right _ (List.mem_singleton_self _)

theorem Listening.step {a : InputAction T} {t : InputEvents T} (h : Listening as s) (ht : InputStep s a t) :
    Listening (as ++ [a]) t := by
  cases ht with
  | emit hpc => exact listening_of_mark_none h (fun _ => rfl) rfl rfl
  | wait hpc hraised => exact listening_of_mark_none h (fun _ => rfl) rfl rfl
  | timeout hpc hraised => exact listening_of_mark_none h (fun _ => rfl) rfl rfl
  | @expect i t hidle =>
      have hmarks : ∀ u, marks u (as ++ [.expect i t]) = marks u as ++ if t = u then [some i] else [] := by
        intro u
        rw [marks_concat, mark]
        split <;> rfl
      have hgroups : ∀ u, closedGroups Option.isNone (marks u (as ++ [.expect i t])) =
          closedGroups Option.isNone (marks u as) := by
        intro u
        rw [hmarks]
        split
        · rw [closedGroups_concat, Option.isNone_some, if_neg Bool.false_ne_true]
        · rw [List.append_nil]
      refine ⟨fun u => ?_, fun j => ?_⟩
      · have hnew : (((s.expectEventWithTime i t).goTo i (.expecting t))).expectedEvents u =
            (s.expectEventWithTime i t).expectedEvents u := rfl
        rw [hnew, expectEventWithTime_expectedEvents, h.expected, h.expected, waitingFor, waitingFor, waitingFor, hmarks]
        by_cases hut : u = t
        · subst hut
          rw [if_pos rfl, if_pos rfl, openGroup_concat, Option.isNone_some, if_neg Bool.false_ne_true]
          exact (head_concat (fun m hm => mark_of_mem_openGroup _ hm) i).symm
        · rw [if_neg hut, if_neg (Ne.symm hut), List.append_nil]
      · have hnew : ((s.expectEventWithTime i t).goTo i (.expecting t)).raised = s.raised :=
          expectEventWithTime_raised s i t
        rw [hnew, h.raised, Signalled, Signalled]
        simp only [hgroups]
  | @dispatch i t hflight htime =>
      have hmarks : ∀ u, marks u (as ++ [.dispatch i t]) = marks u as ++ if t = u then [none] else [] := by
        intro u
        rw [marks_concat, mark]
        split <;> rfl
      refine ⟨fun u => ?_, fun j => ?_⟩
      · rw [seatDispatchEvent_expectedEvents, waitingFor, hmarks]
        by_cases hut : u = t
        · subst hut
          rw [if_pos rfl, if_pos rfl, openGroup_concat, if_pos Option.isNone_none]
          rfl
        · rw [if_neg hut, if_neg (Ne.symm hut), List.append_nil]
          exact h.expected u
      · rw [signalled_dispatch, ← h.raised, seatDispatchEvent_raised, List.mem_append, Option.mem_toList]
        refine or_congr_right ?_
        rw [← Option.join_eq_some_iff, ← h.expected]

theorem listening_run (h : inputEvents.exec {} as = some s) : Listening as s := by
  refine inputEvents.exec_induction (P := Listening) ?_ ?_ as s h
  · exact ⟨fun _ => rfl, fun i => iff_of_false List.not_mem_nil fun ⟨_, _, hgroup, _⟩ => by cases hgroup⟩
  · intro as u a t _ ih ht
    exact ih.step (inputEvents_step_inv ht)

/-! ## Calls with a time of their own -/

/-- What the state says of the actions so far. -/
structure Calling (as : List (InputAction T)) (s : InputEvents T) : Prop where
  time : ∀ i t, (s.calls i).eventTime? = some t ↔ .expect i t ∈ as
  dispatched : ∀ i t, .dispatch i t ∈ as → .expect i t ∈ as
  expected : ∀ i t, s.expectedEvents t = some i → .expect i t ∈ as
  raised : ∀ i ∈ s.raised, ∃ t, .expect i t ∈ as

omit [DecidableEq T] in
/-- An action that is not about the expectations, and leaves the time of every call as it is. -/
theorem calling_of_other {a : InputAction T} {t : InputEvents T} (h : Calling as s)
    (ha : ∀ i u, a ≠ .expect i u ∧ a ≠ .dispatch i u) (hcalls : ∀ i, (t.calls i).eventTime? = (s.calls i).eventTime?)
    (hexpected : t.expectedEvents = s.expectedEvents) (hraised : t.raised = s.raised) : Calling (as ++ [a]) t := by
  have hmem : ∀ i u, (.expect i u ∈ as ++ [a] ↔ .expect i u ∈ as) ∧ (.dispatch i u ∈ as ++ [a] ↔ .dispatch i u ∈ as) := by
    intro i u
    obtain ⟨hne, hne'⟩ := ha i u
    rw [List.mem_append, List.mem_append, List.mem_singleton, List.mem_singleton]
    exact ⟨or_iff_left (Ne.symm hne), or_iff_left (Ne.symm hne')⟩
  refine ⟨fun i u => ?_, fun i u hd => ?_, fun i u he => ?_, fun i hi => ?_⟩
  · rw [hcalls, h.time, (hmem i u).1]
  · exact (hmem i u).1.mpr (h.dispatched i u ((hmem i u).2.mp hd))
  · rw [hexpected] at he
    exact (hmem i u).1.mpr (h.expected i u he)
  · rw [hraised] at hi
    obtain ⟨u, hu⟩ := h.raised i hi
    exact ⟨u, (hmem i u).1.mpr hu⟩

omit [DecidableEq T] in
theorem eventTime_goTo (s : InputEvents T) (i : Nat) (pc : EmitPc T) (hsame : pc.eventTime? = (s.calls i).eventTime?)
    (j : Nat) : ((s.goTo i pc).calls j).eventTime? = (s.calls j).eventTime? := by
  simp only [InputEvents.goTo, Function.update_apply]
  split
  case isTrue hji => rw [hsame, hji]
  case isFalse => rfl

theorem Calling.step {a : InputAction T} {t : InputEvents T} (h : Calling as s) (ht : InputStep s a t) :
    Calling (as ++ [a]) t := by
  cases ht with
  | @emit i u hpc =>
      refine calling_of_other h (fun _ _ => ⟨nofun, nofun⟩) (eventTime_goTo _ i _ ?_) rfl rfl
      rw [show ({ s with inFlight := s.inFlight ++ [i] } : InputEvents T).calls i = .expecting u from hpc]
      rfl
  | @wait i u hpc hraised =>
      refine calling_of_other h (fun _ _ => ⟨nofun, nofun⟩) (eventTime_goTo _ i _ ?_) rfl rfl
      rw [hpc]
      rfl
  | @timeout i u hpc hraised =>
      refine calling_of_other h (fun _ _ => ⟨nofun, nofun⟩) (eventTime_goTo _ i _ ?_) rfl rfl
      rw [hpc]
      rfl
  | @expect i u hidle =>
      have hmem : ∀ j v, .expect j v ∈ as ++ [InputAction.expect i u] ↔ .expect j v ∈ as ∨ (j = i ∧ v = u) := by
        intro j v
        rw [List.mem_append, List.mem_singleton, InputAction.expect.injEq]
      refine ⟨fun j v => ?_, fun j v hd => ?_, fun j v he => ?_, fun j hj => ?_⟩
      · rw [hmem, ← h.time]
        simp only [InputEvents.goTo, Function.update_apply, expectEventWithTime_calls]
        by_cases hji : j = i
        · rw [if_pos hji, hji, hidle]
          simp [EmitPc.eventTime?, eq_comm]
        · rw [if_neg hji]
          simp [hji]
      · rcases List.mem_append.mp hd with hd | hd
        · exact List.mem_append_left _ (h.dispatched j v hd)
        · cases List.mem_singleton.mp hd
      · have he' : (s.expectEventWithTime i u).expectedEvents v = some j := he
        rw [expectEventWithTime_expectedEvents] at he'
        rw [hmem]
        split at he'
        case isTrue hvu =>
          cases hold : s.expectedEvents u with
          | none =>
              rw [hold] at he'
              exact Or.inr ⟨(Option.some.inj he').symm, hvu⟩
          | some k =>
              rw [hold, Option.some_or] at he'
              rw [hvu]
              refine Or.inl (h.expected j u ?_)
              rw [hold, he']
        case isFalse => exact Or.inl (h.expected j v he')
      · have hj' : j ∈ (s.expectEventWithTime i u).raised := hj
        rw [expectEventWithTime_raised] at hj'
        obtain ⟨v, hv⟩ := h.raised j hj'
        exact ⟨v, List.mem_append_left _ hv⟩
  | @dispatch i u hflight htime =>
      have hmem : ∀ j v, .expect j v ∈ as ++ [InputAction.dispatch i u] ↔ .expect j v ∈ as := by
        intro j v
        rw [List.mem_append, List.mem_singleton]
        exact or_iff_left nofun
      refine ⟨fun j v => ?_, fun j v hd => ?_, fun j v he => ?_, fun j hj => ?_⟩
      · rw [hmem, ← h.time, seatDispatchEvent_calls]
      · rw [hmem]
        rcases List.mem_append.mp hd with hd | hd
        · exact h.dispatched j v hd
        · cases List.mem_singleton.mp hd
          exact (h.time i u).mp htime
      · rw [seatDispatchEvent_expectedEvents] at he
        rw [hmem]
        split at he
        · cases he
        · exact h.expected j v he
      · rw [seatDispatchEvent_raised, List.mem_append, Option.mem_toList] at hj
        simp only [hmem]
        rcases hj with hj | hj
        · exact h.raised j hj
        · exact ⟨u, h.expected j u hj⟩

theorem calling_run (h : inputEvents.exec {} as = some s) : Calling as s := by
  refine inputEvents.exec_induction (P := Calling) ?_ ?_ as s h
  · exact ⟨fun _ _ => iff_of_false nofun List.not_mem_nil, nofun, nofun, nofun⟩
  · intro as u a t _ ih ht
    exact ih.step (inputEvents_step_inv ht)

/-- No other call has the time of this one. -/
def Unshared (i : Nat) (as : List (InputAction T)) : Prop := ∀ j t, .expect i t ∈ as → .expect j t ∈ as → j = i

/-- The signal of a call waits for the event of the call. -/
def Exact (i : Nat) (as : List (InputAction T)) (s : InputEvents T) : Prop :=
  ∀ t, .expect i t ∈ as →
    (.dispatch i t ∈ as ∧ i ∈ s.raised) ∨ (.dispatch i t ∉ as ∧ s.expectedEvents t = some i ∧ i ∉ s.raised)

theorem Exact.step {i : Nat} {a : InputAction T} {t : InputEvents T} (hcalling : Calling as s) (h : Exact i as s)
    (hown : Unshared i (as ++ [a])) (ht : InputStep s a t) : Exact i (as ++ [a]) t := by
  have hexpects : ∀ j v, .expect j v ∈ as → .expect j v ∈ as ++ [a] := fun j v => List.mem_append_left _
  have hold : ∀ b, b ∈ as ++ [a] → b ≠ a → b ∈ as := fun b hb hne =>
    (List.mem_append.mp hb).resolve_right fun hb => hne (List.mem_singleton.mp hb)
  cases ht with
  | emit hpc | wait hpc hraised | timeout hpc hraised =>
      intro v hv
      rcases h v (hold _ hv nofun) with ⟨hd, hr⟩ | ⟨hd, he, hr⟩
      · exact Or.inl ⟨List.mem_append_left _ hd, hr⟩
      · exact Or.inr ⟨fun hd' => hd (hold _ hd' nofun), he, hr⟩
  | @expect j u hidle =>
      intro v hv
      have hd : ∀ k w, .dispatch k w ∈ as ++ [InputAction.expect j u] ↔ .dispatch k w ∈ as := by
        intro k w
        rw [List.mem_append, List.mem_singleton]
        exact or_iff_left nofun
      have hraised : ((s.expectEventWithTime j u).goTo j (.expecting u)).raised = s.raised :=
        expectEventWithTime_raised s j u
      have hexpected : ((s.expectEventWithTime j u).goTo j (.expecting u)).expectedEvents v =
          (s.expectEventWithTime j u).expectedEvents v := rfl
      rw [hd, hraised, hexpected, expectEventWithTime_expectedEvents]
      by_cases hji : j = i
      · -- the call has not expected anything before, and nobody else expects its time
        subst hji
        have hfresh : ∀ w, .expect j w ∉ as := by
          intro w hw
          rw [← hcalling.time, hidle] at hw
          cases hw
        have hvu : v = u := by
          rcases List.mem_append.mp hv with hv | hv
          · exact absurd hv (hfresh v)
          · rw [List.mem_singleton, InputAction.expect.injEq] at hv
            exact hv.2
        have hnone : s.expectedEvents u = none := by
          cases hk : s.expectedEvents u with
          | none => rfl
          | some k =>
              have hmem := hcalling.expected k u hk
              rw [hvu] at hv
              rw [hown k u hv (hexpects k u hmem)] at hmem
              exact absurd hmem (hfresh u)
        refine Or.inr ⟨fun hdisp => hfresh v (hcalling.dispatched j v hdisp), ?_, fun hr => ?_⟩
        · rw [if_pos hvu, hnone, Option.none_or]
        · obtain ⟨w, hw⟩ := hcalling.raised j hr
          exact hfresh w hw
      · have hbefore : .expect i v ∈ as := by
          refine hold _ hv fun heq => hji ?_
          rw [InputAction.expect.injEq] at heq
          exact heq.1.symm
        have hvu : v ≠ u := by
          rintro rfl
          exact hji (hown j v hv (List.mem_append_right _ (List.mem_singleton_self _)))
        rw [if_neg hvu]
        exact h v hbefore
  | @dispatch j u hflight htime =>
      intro v hv
      have hbefore : .expect i v ∈ as := hold _ hv nofun
      have hju : .expect j u ∈ as := (hcalling.time j u).mp htime
      simp only [seatDispatchEvent_raised, seatDispatchEvent_expectedEvents, List.mem_append, Option.mem_toList,
        List.mem_singleton, InputAction.dispatch.injEq]
      by_cases hji : j = i
      · subst hji
        have hvu : v = u := by
          have hboth := (hcalling.time j v).mpr hbefore
          rw [htime] at hboth
          exact (Option.some.inj hboth).symm
        rcases h v hbefore with ⟨-, hr⟩ | ⟨-, he, -⟩
        · exact Or.inl ⟨Or.inr ⟨rfl, hvu⟩, Or.inl hr⟩
        · rw [hvu] at he
          exact Or.inl ⟨Or.inr ⟨rfl, hvu⟩, Or.inr he⟩
      · have hvu : v ≠ u := by
          rintro rfl
          exact hji (hown j v hv (hexpects j v hju))
        rcases h v hbefore with ⟨hd, hr⟩ | ⟨hd, he, hr⟩
        · exact Or.inl ⟨Or.inl hd, Or.inl hr⟩
        · refine Or.inr ⟨fun hd' => ?_, ?_, fun hr' => ?_⟩
          · rcases hd' with hd' | ⟨hij, -⟩
            · exact hd hd'
            · exact hji hij.symm
          · rw [if_neg hvu]
            exact he
          · rcases hr' with hr' | hu
            · exact hr hr'
            · -- the signal of the call is in the map under its own time only
              have hboth := (hcalling.time i u).mpr (hcalling.expected i u hu)
              rw [(hcalling.time i v).mpr hbefore] at hboth
              exact hvu (Option.some.inj hboth)

theorem exact_run {i : Nat} (h : inputEvents.exec {} as = some s) (hown : Unshared i as) : Exact i as s := by
  refine inputEvents.exec_induction (P := fun as s => Unshared i as → Exact i as s) ?_ ?_ as s h hown
  · exact fun _ _ hmem => absurd hmem List.not_mem_nil
  · intro as u a t hu ih ht hown
    have hbefore : Unshared i as := fun j v hi hj => hown j v (List.mem_append_left _ hi) (List.mem_append_left _ hj)
    exact Exact.step (calling_run hu) (ih hbefore) hown (inputEvents_step_inv ht)

/-- A call of `emit_mir_event` is signalled if and only if it is the first to expect its time since the last event of that
time, and another one comes. So a call waits for its own event, however the calls and the events of the others overlap, as
long as no other call has the same time; the second of two overlapping calls with one time waits in vain. -/
theorem signalled_iff (h : inputEvents.exec {} as = some s) (i : Nat) :
    (i ∈ s.raised ↔ Signalled i as) ∧ (Unshared i as → (i ∈ s.raised ↔ ∃ t, .dispatch i t ∈ as)) := by
  refine ⟨(listening_run h).raised i, fun hown => ?_⟩
  have hexact := exact_run h hown
  constructor
  · intro hraised
    obtain ⟨t, ht⟩ := (calling_run h).raised i hraised
    rcases hexact t ht with ⟨hd, -⟩ | ⟨-, -, hr⟩
    · exact ⟨t, hd⟩
    · exact absurd hraised hr
  · rintro ⟨t, hd⟩
    rcases hexact t ((calling_run h).dispatched i t hd) with ⟨-, hr⟩ | ⟨hnot, -, -⟩
    · exact hr
    · exact absurd hd hnot

/-- Two calls at one time. -/
theorem signalled_iff_sameTime :
    ∃ s, inputEvents.exec {} [.expect 0 5, .expect 1 5, .emit 1, .emit 0, .dispatch 1 5, .wait 0, .dispatch 0 5, .timeout 1] =
        some s ∧
      0 ∈ s.raised ∧ ¬ Signalled 1 [InputAction.expect 0 5, .expect 1 5, .emit 1, .emit 0, .dispatch 1 5, .wait 0,
        .dispatch 0 5, .timeout 1] :=
  ⟨_, rfl, by decide, fun h => absurd ((signalled_iff rfl 1).1.mpr h) (by decide)⟩

end Runs

end Wlcs.Integration
