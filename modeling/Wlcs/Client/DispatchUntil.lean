import Mathlib.Algebra.Order.Ring.Int
import Wlcs.Lib.Machine

/-!
# `dispatch_until`

`dispatch_until` dispatches events until a predicate of the client holds, or a timeout has passed. `loop` is one call of
it, as a machine whose actions carry what the calls into libwayland and the kernel return; the clock advances between
them. Events that are waiting when the call is made are dispatched before the deadline is looked at, those that are read
later after it.

* `satisfied_timeout_iff` : when a call may time out although the predicate holds;
* `read_intent_balanced_iff` : when a call leaves a reader registered;
* `never_early` : a call never gives up early.
-/

namespace Wlcs.DispatchUntil
open EventMachine

inductive Outcome
  | returned
  /-- `Timeout{"Timeout waiting for condition"}` -/
  | timeout
  /-- `system_error{errno, system_category(), "Failed to wait for Wayland event"}` -/
  | systemError (errno : Nat)
  /-- what `throw_wayland_error` throws -/
  | waylandError
deriving DecidableEq, Repr

/-- What the call does next. -/
inductive Pc
  | condition
  | prepareRead
  /-- the `wl_display_dispatch_pending` of the inner loop -/
  | drain
  | flush
  | deadline
  | poll (wait : Int)
  | readEvents
  | dispatch
  | exited (outcome : Outcome)
deriving DecidableEq, Repr

/-- A call; the times are in nanoseconds. -/
structure Call (σ ε : Type) where
  pc : Pc := .condition
  client : σ
  /-- the events that have been read and not dispatched -/
  queue : List ε
  now : Int
  endTime : Int
  /-- what the clock said when the call last read it -/
  lastRead : Int := now
  /-- the calls of `wl_display_prepare_read` that returned 0 -/
  prepares : Nat := 0
  reads : Nat := 0
  cancels : Nat := 0
deriving DecidableEq, Repr

inductive Action (ε : Type)
  | elapse (time : Int)
  | evaluate
  | prepareRead (result : Int)
  /-- the first `count` events of the queue are dispatched -/
  | dispatchPending (count : Nat) (result : Int)
  | flush
  | checkDeadline
  | poll (result : Int) (errno : Nat)
  | readEvents (arrived : List ε) (result : Int)
deriving DecidableEq, Repr

/-- `duration_cast<milliseconds>(time_left) + 1ms` -/
def maximumWaitMs (timeLeft : Int) : Int := timeLeft.tdiv 1000000 + 1

/-- The conversion of a `long` to the `int` that `poll` takes. -/
def toInt (n : Int) : Int := n.bmod (2 ^ 32)

section Loop
variable {σ ε : Type} (predicate : σ → Bool) (handle : σ → ε → σ)

/-- `timeout` is in seconds. -/
def enter (client : σ) (queue : List ε) (start timeout : Int) : Call σ ε where
  client := client
  queue := queue
  now := start
  endTime := start + timeout * 1000000000

def Call.dispatchPending (s : Call σ ε) (count : Nat) : Call σ ε :=
  { s with client := (s.queue.take count).foldl handle s.client, queue := s.queue.drop count }

def Call.checkDeadline (s : Call σ ε) : Call σ ε :=
  let timeLeft := s.endTime - s.now
  if timeLeft < 0 then { s with pc := .exited .timeout, lastRead := s.now }
  else { s with pc := .poll (toInt (maximumWaitMs timeLeft)), lastRead := s.now }

def step (s : Call σ ε) (a : Action ε) : Option (Call σ ε) :=
  match s.pc, a with
  | _, .elapse time => some { s with now := time }
  | .condition, .evaluate =>
    some { s with pc := if predicate s.client then .exited .returned else .prepareRead }
  | .prepareRead, .prepareRead result =>
    if result ≠ 0 then some { s with pc := .drain }
    else some { s with pc := .flush, prepares := s.prepares + 1 }
  | .drain, .dispatchPending count result =>
    some { s.dispatchPending handle count with pc := if result < 0 then .exited .waylandError else .prepareRead }
  | .flush, .flush => some { s with pc := .deadline }
  | .deadline, .checkDeadline => some s.checkDeadline
  | .poll _, .poll result errno =>
    if result < 0 then some { s with pc := .exited (.systemError errno), cancels := s.cancels + 1 }
    else if result = 0 then some { s with pc := .exited .timeout, cancels := s.cancels + 1 }
    else some { s with pc := .readEvents }
  | .readEvents, .readEvents arrived result =>
    if result < 0 then some { s with pc := .exited .waylandError, reads := s.reads + 1 }
    else some { s with pc := .dispatch, queue := s.queue ++ arrived, reads := s.reads + 1 }
  | .dispatch, .dispatchPending count result =>
    some { s.dispatchPending handle count with pc := if result < 0 then .exited .waylandError else .condition }
  | _, _ => none

def loop : Guarded (Call σ ε) (Action ε) where
  step := step predicate handle

/-! ## Steps -/

/-- What a step can do. -/
inductive Step (s : Call σ ε) : Action ε → Call σ ε → Prop
  | elapse (time : Int) : Step s (.elapse time) { s with now := time }
  | satisfied (hpc : s.pc = .condition) (h : predicate s.client = true) :
      Step s .evaluate { s with pc := .exited .returned }
  | unsatisfied (hpc : s.pc = .condition) (h : predicate s.client = false) :
      Step s .evaluate { s with pc := .prepareRead }
  | busy {result : Int} (hpc : s.pc = .prepareRead) (h : result ≠ 0) :
      Step s (.prepareRead result) { s with pc := .drain }
  | prepared (hpc : s.pc = .prepareRead) :
      Step s (.prepareRead 0) { s with pc := .flush, prepares := s.prepares + 1 }
  | drained {count : Nat} {result : Int} (hpc : s.pc = .drain) (h : 0 ≤ result) :
      Step s (.dispatchPending count result) { s.dispatchPending handle count with pc := .prepareRead }
  | dispatched {count : Nat} {result : Int} (hpc : s.pc = .dispatch) (h : 0 ≤ result) :
      Step s (.dispatchPending count result) { s.dispatchPending handle count with pc := .condition }
  | dispatchFails {count : Nat} {result : Int} (hpc : s.pc = .drain ∨ s.pc = .dispatch) (h : result < 0) :
      Step s (.dispatchPending count result) { s.dispatchPending handle count with pc := .exited .waylandError }
  | flush (hpc : s.pc = .flush) : Step s .flush { s with pc := .deadline }
  | expired (hpc : s.pc = .deadline) (h : s.endTime < s.now) :
      Step s .checkDeadline { s with pc := .exited .timeout, lastRead := s.now }
  | wait (hpc : s.pc = .deadline) (h : s.now ≤ s.endTime) :
      Step s .checkDeadline { s with pc := .poll (toInt (maximumWaitMs (s.endTime - s.now))), lastRead := s.now }
  | pollFails {wait result : Int} {errno : Nat} (hpc : s.pc = .poll wait) (h : result < 0) :
      Step s (.poll result errno) { s with pc := .exited (.systemError errno), cancels := s.cancels + 1 }
  | pollTimesOut {wait : Int} {errno : Nat} (hpc : s.pc = .poll wait) :
      Step s (.poll 0 errno) { s with pc := .exited .timeout, cancels := s.cancels + 1 }
  | ready {wait result : Int} {errno : Nat} (hpc : s.pc = .poll wait) (h : 0 < result) :
      Step s (.poll result errno) { s with pc := .readEvents }
  | readFails {arrived : List ε} {result : Int} (hpc : s.pc = .readEvents) (h : result < 0) :
      Step s (.readEvents arrived result) { s with pc := .exited .waylandError, reads := s.reads + 1 }
  | read {arrived : List ε} {result : Int} (hpc : s.pc = .readEvents) (h : 0 ≤ result) :
      Step s (.readEvents arrived result)
        { s with pc := .dispatch, queue := s.queue ++ arrived, reads := s.reads + 1 }

variable {predicate handle}

theorem step_inv {s t : Call σ ε} {a : Action ε} (h : (loop predicate handle).step s a = some t) :
    Step predicate handle s a t := by
  simp only [loop, step] at h
  split at h
  · obtain rfl := Option.some.inj h
    exact .elapse _
  · rename_i hpc
    obtain rfl := Option.some.inj h
    cases hp : predicate s.client with
    | true => simpa [hp] using Step.satisfied hpc hp
    | false => simpa [hp] using Step.unsatisfied hpc hp
  · rename_i result hpc
    split at h
    · rename_i hresult
      obtain rfl := Option.some.inj h
      exact .busy hpc hresult
    · rename_i hresult
      obtain rfl := Option.some.inj h
      obtain rfl := not_not.mp hresult
      exact .prepared hpc
  · rename_i count result hpc
    obtain rfl := Option.some.inj h
    split
    · rename_i hresult
      exact .dispatchFails (Or.inl hpc) hresult
    · rename_i hresult
      exact .drained hpc (not_lt.mp hresult)
  · rename_i hpc
    obtain rfl := Option.some.inj h
    exact .flush hpc
  · rename_i hpc
    obtain rfl := Option.some.inj h
    simp only [Call.checkDeadline]
    split
    · exact .expired hpc (by omega)
    · exact .wait hpc (by omega)
  · rename_i wait result errno hpc
    split at h
    · rename_i hresult
      obtain rfl := Option.some.inj h
      exact .pollFails hpc hresult
    · split at h
      · rename_i hresult
        obtain rfl := Option.some.inj h
        subst hresult
        exact .pollTimesOut hpc
      · obtain rfl := Option.some.inj h
        exact .ready hpc (by omega)
  · rename_i arrived result hpc
    split at h
    · rename_i hresult
      obtain rfl := Option.some.inj h
      exact .readFails hpc hresult
    · rename_i hresult
      obtain rfl := Option.some.inj h
      exact .read hpc (not_lt.mp hresult)
  · rename_i count result hpc
    obtain rfl := Option.some.inj h
    split
    · rename_i hresult
      exact .dispatchFails (Or.inr hpc) hresult
    · rename_i hresult
      exact .dispatched hpc (not_lt.mp hresult)
  · cases h

/-! ## libwayland and the kernel -/

/-- `wl_display_prepare_read` refuses exactly when there are events to dispatch, and `wl_display_dispatch_pending`
dispatches them all. -/
def Libwayland (s : Call σ ε) : Action ε → Prop
  | .prepareRead result => result ≠ 0 ↔ s.queue ≠ []
  | .dispatchPending count result => 0 ≤ result → s.queue.length ≤ count
  | _ => True

/-- The clock is steady. -/
def Steady (s : Call σ ε) (a : Action ε) : Prop := ∀ time, a = .elapse time → s.now ≤ time

/-- `poll` returns 0 only after it has waited for as long as it was told to. -/
def WaitsOut (s : Call σ ε) (a : Action ε) : Prop :=
  ∀ wait errno, s.pc = .poll wait → a = .poll 0 errno → s.lastRead + wait * 1000000 ≤ s.now

/-! ## Timing out on a condition that holds -/

/-- Where the call has looked at the predicate and dispatched nothing since, it does not hold. -/
def Unsatisfied (predicate : σ → Bool) (handle : σ → ε → σ) (s : Call σ ε) : Prop :=
  match s.pc with
  | .condition => predicate s.client = true ∨ predicate (s.queue.foldl handle s.client) = false
  | .prepareRead | .drain => predicate (s.queue.foldl handle s.client) = false
  | .flush | .deadline | .poll _ | .exited .timeout => predicate s.client = false
  | _ => True

theorem Call.dispatchPending_all {s : Call σ ε} {count : Nat} (h : s.queue.length ≤ count) :
    s.dispatchPending handle count = { s with client := s.queue.foldl handle s.client, queue := [] } := by
  unfold Call.dispatchPending
  rw [List.take_of_length_le h, List.drop_of_length_le h]

theorem Unsatisfied.step {s t : Call σ ε} {a : Action ε} (h : Unsatisfied predicate handle s) (hlaw : Libwayland s a)
    (hstep : Step predicate handle s a t) : Unsatisfied predicate handle t := by
  unfold Unsatisfied at h ⊢
  cases hstep with
  | elapse time => exact h
  | satisfied hpc hp => trivial
  | unsatisfied hpc hp =>
      rw [hpc] at h
      exact h.resolve_left (by simp [hp])
  | busy hpc hresult =>
      rw [hpc] at h
      exact h
  | prepared hpc =>
      have hqueue : s.queue = [] := by
        by_contra hne
        exact hlaw.mpr hne rfl
      simpa [hpc, hqueue] using h
  | drained hpc hresult =>
      rw [hpc] at h
      rw [Call.dispatchPending_all (hlaw hresult)]
      exact h
  | dispatched hpc hresult =>
      rw [Call.dispatchPending_all (hlaw hresult)]
      exact (Bool.eq_false_or_eq_true _)
  | dispatchFails hpc hresult => trivial
  | flush hpc =>
      rw [hpc] at h
      exact h
  | expired hpc hlate =>
      rw [hpc] at h
      exact h
  | wait hpc htime =>
      rw [hpc] at h
      exact h
  | pollFails hpc hresult => trivial
  | pollTimesOut hpc =>
      rw [hpc] at h
      exact h
  | ready hpc hresult => trivial
  | readFails hpc hresult => trivial
  | read hpc hresult => trivial

/-- The events that wait at entry are dispatched. -/
def drainQueue (queue : List ε) : List (Action ε) :=
  [.evaluate, .prepareRead 1, .dispatchPending queue.length queue.length, .prepareRead 0, .flush]

/-- The deadline passes meanwhile. -/
def lateDrain (queue : List ε) (time : Int) : List (Action ε) := drainQueue queue ++ [.elapse time, .checkDeadline]

section LateDrain
variable {client : σ} {queue : List ε} {start timeout time : Int}

theorem step_unsatisfied (hp : predicate client = false) :
    (loop predicate handle).step (enter client queue start timeout) .evaluate =
      some { enter client queue start timeout with pc := .prepareRead } := by
  simp only [loop, step, enter, hp, Bool.false_eq_true, if_false]

theorem step_drained :
    (loop predicate handle).step { enter client queue start timeout with pc := .drain }
        (.dispatchPending queue.length queue.length) =
      some { enter (queue.foldl handle client) [] start timeout with pc := .prepareRead } := by
  have hresult : ¬ (queue.length : Int) < 0 := by omega
  simp only [loop, step, enter, Call.dispatchPending, List.take_length, List.drop_length, hresult, if_false]

theorem exec_drainQueue (hp : predicate client = false) :
    (loop predicate handle).exec (enter client queue start timeout) (drainQueue queue) =
      some { enter (queue.foldl handle client) [] start timeout with pc := .deadline, prepares := 1 } := by
  rw [drainQueue, Guarded.exec_step _ (step_unsatisfied hp), Guarded.exec_step _ rfl, Guarded.exec_step _ step_drained]
  rfl

theorem exec_lateDrain (handle : σ → ε → σ) (queue : List ε) (hp : predicate client = false)
    (hlate : start + timeout * 1000000000 < time) :
    ∃ s, (loop predicate handle).exec (enter client queue start timeout) (lateDrain queue time) = some s ∧
      s.pc = .exited .timeout ∧ s.client = queue.foldl handle client := by
  unfold lateDrain
  rw [Guarded.exec_append, exec_drainQueue hp]
  refine ⟨_, rfl, ?_⟩
  simp only [Call.checkDeadline]
  rw [if_pos (by simp only [enter]; omega)]
  exact ⟨rfl, rfl⟩

/-- The steps of the drain, for what is to hold of each. -/
theorem along_drainQueue {P : Call σ ε → Action ε → Prop} (hp : predicate client = false) (as : List (Action ε)) :
    (loop predicate handle).Along P (enter client queue start timeout) (drainQueue queue ++ as) ↔
      P (enter client queue start timeout) .evaluate ∧
      P { enter client queue start timeout with pc := .prepareRead } (.prepareRead 1) ∧
      P { enter client queue start timeout with pc := .drain } (.dispatchPending queue.length queue.length) ∧
      P { enter (queue.foldl handle client) [] start timeout with pc := .prepareRead } (.prepareRead 0) ∧
      P { enter (queue.foldl handle client) [] start timeout with pc := .flush, prepares := 1 } .flush ∧
      (loop predicate handle).Along P
        { enter (queue.foldl handle client) [] start timeout with pc := .deadline, prepares := 1 } as := by
  rw [drainQueue, List.cons_append, Guarded.along_step _ (step_unsatisfied hp), List.cons_append,
    Guarded.along_step _ rfl, List.cons_append, Guarded.along_step _ step_drained, List.cons_append,
    Guarded.along_step _ rfl, List.cons_append, Guarded.along_step _ rfl]
  rfl

theorem libwayland_lateDrain (hp : predicate client = false) (hqueue : queue ≠ []) :
    (loop predicate handle).Along Libwayland (enter client queue start timeout) (lateDrain queue time) := by
  unfold lateDrain
  rw [along_drainQueue hp]
  refine ⟨trivial, ?_, ?_, ?_, trivial, ?_⟩
  · simpa [Libwayland, enter] using hqueue
  · intro _
    exact Nat.le_refl _
  · simp [Libwayland, enter]
  · rw [Guarded.along_cons]
    refine ⟨trivial, fun t _ => ?_⟩
    rw [Guarded.along_cons]
    exact ⟨trivial, fun _ _ => Guarded.along_nil _⟩

end LateDrain

/-- **Timing out on a condition that holds**: whatever arrives and however the clock advances, a call does not time out
in a state in which the predicate holds, exactly when the events that are waiting at its entry do not make the predicate
true. Those are dispatched in the inner loop, after which the call looks at the clock and not at the predicate. -/
theorem satisfied_timeout_iff (predicate : σ → Bool) (handle : σ → ε → σ) (client : σ) (queue : List ε)
    (start timeout : Int) :
    (∀ as s, (loop predicate handle).Along Libwayland (enter client queue start timeout) as →
      (loop predicate handle).exec (enter client queue start timeout) as = some s → s.pc = .exited .timeout →
        predicate s.client = false) ↔
      (predicate client = true ∨ predicate (queue.foldl handle client) = false) := by
  constructor
  · intro h
    by_contra hcondition
    rw [not_or, Bool.not_eq_true, Bool.not_eq_false] at hcondition
    obtain ⟨hp, hdrained⟩ := hcondition
    have hqueue : queue ≠ [] := by
      rintro rfl
      rw [List.foldl_nil, hp] at hdrained
      cases hdrained
    obtain ⟨s, hexec, hpc, hclient⟩ := exec_lateDrain handle queue hp (Int.lt_succ (start + timeout * 1000000000))
    have hfalse := h _ s (libwayland_lateDrain hp hqueue) hexec hpc
    rw [hclient, hdrained] at hfalse
    cases hfalse
  · intro hcondition as s hlaw hexec hpc
    have hunsatisfied : Unsatisfied predicate handle s :=
      (loop predicate handle).along_induction (I := Unsatisfied predicate handle)
        (show Unsatisfied predicate handle (enter client queue start timeout) from hcondition)
        (fun u a t hu ha ht => hu.step ha (step_inv ht)) hlaw hexec
    unfold Unsatisfied at hunsatisfied
    rw [hpc] at hunsatisfied
    exact hunsatisfied

/-- The events that wait at entry are dispatched, and no more arrive. -/
def idleAfterDrain : List (Action Unit) := drainQueue [()] ++ [.checkDeadline, .elapse 1001000000, .poll 0 0]

/-- The frame of a surface is done, but the event has not been dispatched: a call that waits for it dispatches the event,
waits for as long as it may and then times out. -/
theorem rendered_and_timed_out :
    (loop id fun (_ : Bool) (_ : Unit) => true).Along Libwayland (enter false [()] 0 1) idleAfterDrain ∧
      (loop id fun (_ : Bool) (_ : Unit) => true).Along Steady (enter false [()] 0 1) idleAfterDrain ∧
      (loop id fun (_ : Bool) (_ : Unit) => true).Along WaitsOut (enter false [()] 0 1) idleAfterDrain ∧
      ∃ s, (loop id fun (_ : Bool) (_ : Unit) => true).exec (enter false [()] 0 1) idleAfterDrain = some s ∧
        s.pc = .exited .timeout ∧ id s.client = true := by
  have hwait : toInt (maximumWaitMs 1000000000) = 1001 := by decide
  unfold idleAfterDrain
  refine ⟨?_, ?_, ?_, _, rfl, rfl, rfl⟩
  · rw [along_drainQueue rfl]
    simp [Guarded.along_cons, Guarded.along_nil, loop, step, enter, Call.checkDeadline, Libwayland]
  · rw [along_drainQueue rfl]
    simp [Guarded.along_cons, Guarded.along_nil, loop, step, enter, Call.checkDeadline, Steady]
  · rw [along_drainQueue rfl]
    simp [Guarded.along_cons, Guarded.along_nil, loop, step, enter, Call.checkDeadline, WaitsOut, hwait]

/-! ## Readers -/

/-- The call has a reader registered. -/
def Pc.reading : Pc → Bool
  | .flush | .deadline | .poll _ | .readEvents => true
  | _ => false

/-- The clock has not passed the end when the call looks at it. -/
def InTime (s : Call σ ε) (a : Action ε) : Prop := a = .checkDeadline → s.now ≤ s.endTime

/-- Every reader is accounted for, except the one with which the call gives up at the deadline. -/
def ReadersAccounted (inTime : Prop) (s : Call σ ε) : Prop :=
  (inTime ∧ s.prepares = s.reads + s.cancels + s.pc.reading.toNat) ∨
    (¬ inTime ∧ s.pc = .exited .timeout ∧ s.prepares = s.reads + s.cancels + 1)

theorem readers_step {s t : Call σ ε} {a : Action ε} (hin : InTime s a)
    (hreaders : s.prepares = s.reads + s.cancels + s.pc.reading.toNat) (hstep : Step predicate handle s a t) :
    t.prepares = t.reads + t.cancels + t.pc.reading.toNat := by
  cases hstep with
  | elapse time => exact hreaders
  | expired hpc hlate => exact absurd (hin rfl) (not_le.mpr hlate)
  | dispatchFails hpc hresult =>
      rcases hpc with hpc | hpc
      · rw [hpc] at hreaders
        exact hreaders
      · rw [hpc] at hreaders
        exact hreaders
  | _ hpc =>
      rw [hpc] at hreaders
      simp only [Pc.reading, Call.dispatchPending, Bool.toNat_true, Bool.toNat_false] at hreaders ⊢
      omega

theorem readersAccounted {client : σ} {queue : List ε} {start timeout : Int} {as : List (Action ε)} {s : Call σ ε}
    (h : (loop predicate handle).exec (enter client queue start timeout) as = some s) :
    ReadersAccounted ((loop predicate handle).Along InTime (enter client queue start timeout) as) s := by
  refine (loop predicate handle).exec_induction (P := fun as s =>
    ReadersAccounted ((loop predicate handle).Along InTime (enter client queue start timeout) as) s)
    (Or.inl ⟨Guarded.along_nil _, rfl⟩) ?_ as s h
  intro as u a t hu hreaders ht
  have hstep := step_inv ht
  have hin : (loop predicate handle).Along InTime (enter client queue start timeout) (as ++ [a]) ↔
      (loop predicate handle).Along InTime (enter client queue start timeout) as ∧ InTime u a := by
    rw [Guarded.along_concat, hu]
    simp only [Option.some.injEq, forall_eq']
  unfold ReadersAccounted at hreaders ⊢
  rw [hin]
  rcases hreaders with ⟨has, hreaders⟩ | ⟨has, hpc, hreaders⟩
  · by_cases ha : InTime u a
    · exact Or.inl ⟨⟨has, ha⟩, readers_step ha hreaders hstep⟩
    · refine Or.inr ⟨fun hboth => ha hboth.2, ?_⟩
      -- only the check of the deadline can be late
      obtain ⟨rfl, hlate⟩ : a = .checkDeadline ∧ ¬ u.now ≤ u.endTime := by simpa [InTime] using ha
      cases hstep with
      | expired hpc _ =>
          rw [hpc] at hreaders
          exact ⟨rfl, hreaders⟩
      | wait hpc htime => exact absurd htime hlate
  · -- the call is over, and only the clock goes on
    refine Or.inr ⟨fun hboth => has hboth.1, ?_⟩
    cases hstep with
    | elapse time => exact ⟨hpc, hreaders⟩
    | dispatchFails hother _ =>
        rw [hpc] at hother
        rcases hother with hother | hother
        · cases hother
        · cases hother
    | _ hother =>
        rw [hpc] at hother
        cases hother

/-- **Readers**: when a call is over, by whatever exit, each reader that it registered has been used or cancelled exactly
when the clock had not passed the end at any check of the deadline. There the call throws without
`wl_display_cancel_read`. -/
theorem read_intent_balanced_iff (predicate : σ → Bool) (handle : σ → ε → σ) (client : σ) (queue : List ε)
    (start timeout : Int) (as : List (Action ε)) (s : Call σ ε) (outcome : Outcome)
    (h : (loop predicate handle).exec (enter client queue start timeout) as = some s) (hexit : s.pc = .exited outcome) :
    s.prepares = s.reads + s.cancels ↔
      (loop predicate handle).Along InTime (enter client queue start timeout) as := by
  rcases readersAccounted h with ⟨hin, hreaders⟩ | ⟨hlate, -, hreaders⟩
  · rw [hexit] at hreaders
    exact iff_of_true hreaders hin
  · exact iff_of_false (by omega) hlate

/-- An event arrives and makes the predicate true. -/
theorem read_intent_balanced_iff_arrival :
    ∃ s, (loop id fun (_ : Bool) (_ : Unit) => true).exec (enter false [] 0 1)
        [.evaluate, .prepareRead 0, .flush, .checkDeadline, .poll 1 0, .readEvents [()] 0, .dispatchPending 1 1,
          .evaluate] = some s ∧ s.pc = .exited .returned ∧
      (s.prepares = s.reads + s.cancels ↔ (loop id fun (_ : Bool) (_ : Unit) => true).Along InTime (enter false [] 0 1)
        [.evaluate, .prepareRead 0, .flush, .checkDeadline, .poll 1 0, .readEvents [()] 0, .dispatchPending 1 1,
          .evaluate]) :=
  ⟨_, rfl, rfl, read_intent_balanced_iff id _ false [] 0 1 _ _ .returned rfl rfl⟩

/-- A call that gives up at the deadline leaves its reader behind. -/
theorem reader_left_registered :
    ∃ s, (loop id fun (_ : Bool) (_ : Unit) => true).exec (enter false [] 0 1)
        [.evaluate, .prepareRead 0, .flush, .elapse 1000000001, .checkDeadline] = some s ∧
      s.pc = .exited .timeout ∧ s.prepares = 1 ∧ ¬ s.prepares = s.reads + s.cancels :=
  ⟨_, rfl, rfl, rfl, by decide⟩

/-! ## Giving up early -/

/-- What is known of the clock. -/
structure Timed (start timeout : Int) (s : Call σ ε) : Prop where
  endTime_eq : s.endTime = start + timeout * 1000000000
  start_le : start ≤ s.lastRead
  lastRead_le : s.lastRead ≤ s.now
  waits : ∀ wait, s.pc = .poll wait → 0 < wait ∧ s.endTime - s.lastRead < wait * 1000000
  expired : s.pc = .exited .timeout → s.endTime ≤ s.now

theorem maximumWaitMs_spec {timeLeft : Int} (h : 0 ≤ timeLeft) :
    0 < maximumWaitMs timeLeft ∧ timeLeft < maximumWaitMs timeLeft * 1000000 ∧
      (maximumWaitMs timeLeft - 1) * 1000000 ≤ timeLeft := by
  unfold maximumWaitMs
  rw [Int.tdiv_eq_ediv_of_nonneg h]
  omega

theorem toInt_eq {n : Int} (hlow : -2 ^ 31 ≤ n) (hhigh : n < 2 ^ 31) : toInt n = n := by
  unfold toInt
  apply Int.bmod_eq_of_le
  · omega
  · omega

theorem Timed.step {start timeout : Int} {s t : Call σ ε} {a : Action ε} (hfit : timeout * 1000 + 1 < 2 ^ 31)
    (h : Timed start timeout s) (hsteady : Steady s a) (hwaits : WaitsOut s a) (hstep : Step predicate handle s a t) :
    Timed start timeout t := by
  obtain ⟨hend, hstart, hread, hwait, hexpired⟩ := h
  cases hstep with
  | elapse time =>
      have htime := hsteady time rfl
      refine ⟨hend, hstart, hread.trans htime, hwait, fun hpc => (hexpired hpc).trans htime⟩
  | expired hpc hlate =>
      exact ⟨hend, hstart.trans hread, Int.le_refl _, fun wait hpoll => (by cases hpoll), fun _ => Int.le_of_lt hlate⟩
  | wait hpc htime =>
      obtain ⟨hpos, hlonger, hms⟩ := maximumWaitMs_spec (Int.sub_nonneg_of_le htime)
      have harg : toInt (maximumWaitMs (s.endTime - s.now)) = maximumWaitMs (s.endTime - s.now) :=
        toInt_eq (by omega) (by omega)
      refine ⟨hend, hstart.trans hread, Int.le_refl _, fun wait hpoll => ?_, fun hexit => (by cases hexit)⟩
      obtain rfl := Pc.poll.inj hpoll
      rw [harg]
      exact ⟨hpos, hlonger⟩
  | pollTimesOut hpc =>
      have hlong := (hwait _ hpc).2
      have hover := hwaits _ _ hpc rfl
      have hpast : s.endTime ≤ s.now := by omega
      exact ⟨hend, hstart, hread, fun wait hpoll => (by cases hpoll), fun _ => hpast⟩
  | _ => exact ⟨hend, hstart, hread, fun wait hpoll => (by cases hpoll), fun hexit => (by cases hexit)⟩

theorem returned_step {s t : Call σ ε} {a : Action ε}
    (h : s.pc = .exited .returned → predicate s.client = true) (hstep : Step predicate handle s a t) :
    t.pc = .exited .returned → predicate t.client = true := by
  cases hstep with
  | elapse time => exact h
  | satisfied hpc hp => exact fun _ => hp
  | _ => exact fun hexit => by cases hexit

/-- **Never early**: a call that times out has let its whole timeout pass, it always tells `poll` to wait for longer than
what is left and never forever, and it returns only when the predicate holds. -/
theorem never_early (predicate : σ → Bool) (handle : σ → ε → σ) (client : σ) (queue : List ε) (start timeout : Int)
    (hfit : timeout * 1000 + 1 < 2 ^ 31) (as : List (Action ε)) (s : Call σ ε)
    (hsteady : (loop predicate handle).Along Steady (enter client queue start timeout) as)
    (hwaits : (loop predicate handle).Along WaitsOut (enter client queue start timeout) as)
    (h : (loop predicate handle).exec (enter client queue start timeout) as = some s) :
    (s.pc = .exited .timeout → start + timeout * 1000000000 ≤ s.now) ∧
      (∀ wait, s.pc = .poll wait → 0 < wait ∧ start + timeout * 1000000000 - s.lastRead < wait * 1000000) ∧
      (s.pc = .exited .returned → predicate s.client = true) := by
  have htimed : Timed start timeout s := by
    refine (loop predicate handle).exec_induction (P := fun as s =>
      (loop predicate handle).Along Steady (enter client queue start timeout) as →
      (loop predicate handle).Along WaitsOut (enter client queue start timeout) as → Timed start timeout s)
      ?_ ?_ as s h hsteady hwaits
    · intro _ _
      exact ⟨rfl, Int.le_refl _, Int.le_refl _, fun wait hpoll => (by cases hpoll), fun hexit => (by cases hexit)⟩
    · intro as u a t hu ih ht hsteady hwaits
      rw [Guarded.along_concat] at hsteady hwaits
      exact (ih hsteady.1 hwaits.1).step hfit (hsteady.2 u hu) (hwaits.2 u hu) (step_inv ht)
  refine ⟨fun hexit => ?_, fun wait hpoll => ?_, ?_⟩
  · rw [← htimed.endTime_eq]
    exact htimed.expired hexit
  · rw [← htimed.endTime_eq]
    exact htimed.waits wait hpoll
  · exact (loop predicate handle).exec_induction (P := fun _ s => s.pc = .exited .returned → predicate s.client = true)
      (fun hexit => by cases hexit) (fun as u a t _ ih ht => returned_step ih (step_inv ht)) as s h

/-- A last wait of a millisecond for the 500 nanoseconds that are left. -/
def lastWait : List (Action Unit) :=
  [.evaluate, .prepareRead 0, .flush, .elapse 999999500, .checkDeadline, .elapse 1000999500, .poll 0 0]

/-- The steps of the last wait, for what is to hold of each. -/
theorem along_lastWait {P : Call Bool Unit → Action Unit → Prop} :
    (loop id fun (_ : Bool) (_ : Unit) => true).Along P (enter false [] 0 1) lastWait ↔
      P (enter false [] 0 1) .evaluate ∧
      P { enter false [] 0 1 with pc := .prepareRead } (.prepareRead 0) ∧
      P { enter false [] 0 1 with pc := .flush, prepares := 1 } .flush ∧
      P { enter false [] 0 1 with pc := .deadline, prepares := 1 } (.elapse 999999500) ∧
      P { enter false [] 0 1 with pc := .deadline, now := 999999500, prepares := 1 } .checkDeadline ∧
      P { enter false [] 0 1 with pc := .poll 1, now := 999999500, lastRead := 999999500, prepares := 1 }
        (.elapse 1000999500) ∧
      P { enter false [] 0 1 with pc := .poll 1, now := 1000999500, lastRead := 999999500, prepares := 1 }
        (.poll 0 0) := by
  rw [lastWait, Guarded.along_step _ rfl, Guarded.along_step _ rfl, Guarded.along_step _ rfl, Guarded.along_step _ rfl,
    Guarded.along_step _ rfl, Guarded.along_step _ rfl, Guarded.along_step _ rfl, iff_true_intro (Guarded.along_nil _),
    and_true]
  rfl

theorem never_early_lastWait :
    ∃ s, (loop id fun (_ : Bool) (_ : Unit) => true).exec (enter false [] 0 1) lastWait = some s ∧
      s.pc = .exited .timeout ∧ 0 + 1 * 1000000000 ≤ s.now := by
  have hsteady : (loop id fun (_ : Bool) (_ : Unit) => true).Along Steady (enter false [] 0 1) lastWait := by
    rw [along_lastWait]
    simp [Steady, enter]
  have hwaits : (loop id fun (_ : Bool) (_ : Unit) => true).Along WaitsOut (enter false [] 0 1) lastWait := by
    rw [along_lastWait]
    simp [WaitsOut]
  exact ⟨_, rfl, rfl, (never_early id _ false [] 0 1 (by decide) lastWait _ hsteady hwaits rfl).1 rfl⟩

end Loop

end Wlcs.DispatchUntil
