import Wlcs.ThreadProxy.Pipeline
import Mathlib.Algebra.BigOperators.Group.Finset.Basic

/-!
# `ThreadProxy` is a faithful remote call

In a run in which no socket call fails and whose handler table the opcodes still reach, the calls run their own handlers
one after the other in the order in which they got `message_serialiser`, exactly as they would through `NullProxy`
(`Faithful`), and every call comes to its end within seven steps of the proxy (`Completes`). With one operation more the
opcode of a thunk becomes that of the destructor (`wrapped_opcode`).
-/

namespace Wlcs.ThreadProxy
open EventMachine

variable {T : Type} {σ : Type} {s s' : System T σ} {a : Action T σ}

/-- The step is not a failed socket call. -/
def Action.reliable : Action T σ → Bool
  | .sendFails _ _ | .recvFails _ => false
  | _ => true

/-! ## Calls and requests -/

/-- The call for which a thread is about to send. -/
def Pc.locked? : Pc T σ → Option (Call T σ)
  | .locked c => some c
  | _ => none

/-- Without failures each call that got the mutex sends its request before the next one gets it, and returns with what
the last receive gave. -/
structure Sending (s : System T σ) : Prop where
  acquired : s.acquired = s.requested ++ s.holderPc.locked?.toList
  returning : ∀ c outcome, s.holderPc = .returning c outcome →
    ∃ answer, s.answered.getLast? = some answer ∧ answer.call = c ∧ answer.outcome = outcome

theorem sending_fresh (server : σ) : Sending (System.fresh server : System T σ) :=
  ⟨rfl, fun _ _ h => (by cases h)⟩

theorem Sending.congr (h : Sending s) (hacquired : s'.acquired = s.acquired) (hrequested : s'.requested = s.requested)
    (hanswered : s'.answered = s.answered) (hpc : s'.holderPc = s.holderPc) : Sending s' := by
  refine ⟨?_, ?_⟩
  · rw [hacquired, hrequested, hpc, h.acquired]
  · rw [hpc, hanswered]
    exact h.returning

section Steps
variable [DecidableEq T]

theorem Sending.step (h : Sending s) (hz : Serialised s) (hs : Step s a s') (ha : a.reliable = true) : Sending s' := by
  cases hs with
  | register => exact h.congr rfl rfl rfl rfl
  | @call c k hpc hthunk =>
      have hholder := hz.holderPc_goto_outside (by rw [hpc]; rfl) (.calling c)
      exact h.congr rfl rfl rfl hholder
  | @lock t c hpc hfree =>
      have hbefore := h.acquired
      rw [holderPc_free hfree] at hbefore
      refine ⟨?_, fun d outcome hret => ?_⟩
      · simp [System.holderPc, System.goto, Pc.locked?, hbefore]
      · simp [System.holderPc, System.goto] at hret
  | @send t c hpc =>
      have hin : (s.threads t).inside = true := by
        rw [hpc]
        rfl
      have hbefore := h.acquired
      rw [hz.holderPc_eq hin, hpc] at hbefore
      have hholder := hz.holderPc_goto hin (.waiting c s.requested.length)
      refine ⟨?_, fun d outcome hret => ?_⟩
      · change s.acquired = (s.requested ++ [c]) ++
          (s.goto t (.waiting c s.requested.length)).holderPc.locked?.toList
        rw [hholder, hbefore]
        simp [Pc.locked?]
      · cases hholder.symm.trans hret
  | sendFails | recvFails => cases ha
  | @recv t c request reply toClient hpc hpop =>
      have hin : (s.threads t).inside = true := by
        rw [hpc]
        rfl
      have hbefore := h.acquired
      rw [hz.holderPc_eq hin, hpc] at hbefore
      have hholder := hz.holderPc_goto hin (.returning c (waitForReply c.thunk.callable reply))
      refine ⟨?_, fun d outcome hret => ?_⟩
      · change s.acquired = s.requested ++
          (s.goto t (.returning c (waitForReply c.thunk.callable reply))).holderPc.locked?.toList
        rw [hholder, hbefore]
        rfl
      · obtain ⟨rfl, rfl⟩ := Pc.returning.inj (hholder.symm.trans hret)
        exact ⟨_, List.getLast?_concat, rfl, rfl⟩
  | @unlock t c outcome hpc =>
      have hbefore := h.acquired
      rw [hz.holderPc_eq (by rw [hpc]; rfl), hpc] at hbefore
      exact ⟨hbefore, fun d outcome hret => (by cases hret)⟩
  | loopRecv | sendReply => exact h.congr rfl rfl rfl rfl
  | @dispatch buffer hloop =>
      obtain ⟨server, loop, invoked, heq⟩ := dispatch_frame s buffer
      rw [heq]
      exact h.congr rfl rfl rfl rfl

/-- An invariant of the runs without failures. -/
structure ReliableInv (server : σ) (s : System T σ) : Prop extends Inv server 0 s where
  sending : Sending s

theorem ReliableInv.step {server : σ} (h : ReliableInv server s) (hfit : s.handlers.length ≤ 2 ^ 32) (hs : Step s a s')
    (ha : a.reliable = true) : ReliableInv server s' := by
  have hnot : a.isRecvFails = false := by
    cases a with
    | recvFails => cases ha
    | _ => rfl
  have hinv := h.toInv.step hfit hs
  rw [hnot] at hinv
  exact ⟨hinv, h.sending.step h.serialised hs ha⟩

theorem run_reliableInv {server : σ} {as : List (Action T σ)} (h : proxy.exec (System.fresh server) as = some s)
    (hreliable : ∀ a ∈ as, a.reliable = true) (hfit : s.handlers.length ≤ 2 ^ 32) : ReliableInv server s := by
  refine proxy.exec_induction (P := fun as s => (∀ a ∈ as, a.reliable = true) → s.handlers.length ≤ 2 ^ 32 →
    ReliableInv server s) (fun _ _ => ⟨inv_fresh server, sending_fresh server⟩)
    (fun as u a t _ ih hstep hreliable hfit => ?_) as s h hreliable hfit
  have hs := step_inv hstep
  have hbefore := Nat.le_trans hs.handlers_le hfit
  exact (ih (fun b hb => hreliable b (List.mem_append_left _ hb)) hbefore).step hbefore hs (hreliable a (by simp))

end Steps

/-! ## What the calls do -/

/-- The calls run their own handlers, each once and in the order in which they got the mutex, and receive what these
returned. -/
structure Faithful (server : σ) (s : System T σ) : Prop where
  /-- The handlers run and their arguments are those of the calls, one by one. -/
  invoked : s.invoked.map Invocation.job <+: s.acquired.map Call.job
  /-- The `k`-th call to receive is the `k`-th that got the mutex, and it receives what its handler returned. -/
  answered : ∀ (k : Nat) (answer : Answer T σ), s.answered[k]? = some answer → s.acquired[k]? = some answer.call ∧
    ∃ i, s.invoked[k]? = some i ∧ answer.outcome = .ok i.value
  /-- A call returns what it has received. -/
  returning : ∀ t c outcome, s.threads t = .returning c outcome →
    ∃ answer, s.answered.getLast? = some answer ∧ answer.call = c ∧ answer.outcome = outcome
  in_flight : s.toWayland.queue.length + s.toClient.queue.length ≤ 1
  opcodes : ∀ request ∈ s.toWayland.queue, ∃ opcode data, readOpcode request = some (opcode, data) ∧
    opcode.toNat < s.handlers.length ∧ opcode ≠ 0
  /-- Through `NullProxy`, in the same order, the handlers would have been called alike. -/
  sequential : nullProxy server ((s.acquired.map Call.job).take s.invoked.length) =
    (s.invoked.map Invocation.value, s.server)

section Faithful
variable [DecidableEq T] {server : σ}

theorem ReliableInv.requested_le (h : ReliableInv server s) : s.requested.length ≤ s.answered.length + 1 := by
  cases hpc : s.holderPc with
  | waiting c r =>
      obtain ⟨-, hlast, hr⟩ := h.answering.waiting c r hpc
      omega
  | idle | calling | locked | returning =>
      have hlen := h.answering.between (by rw [hpc]; rfl)
      omega

theorem ReliableInv.in_flight (h : ReliableInv server s) :
    s.toWayland.queue.length + s.toClient.queue.length ≤ 1 := by
  have hone := h.requested_le
  have hsent : s.toWayland.sent.length = s.requested.length := by rw [h.pipeline.requests, List.length_map]
  have htaken := h.answering.taken
  have hbehind := h.pipeline.loop.replies_le
  have := s.toWayland.taken_le
  have := s.toClient.taken_le
  rw [Fifo.length_queue, Fifo.length_queue]
  omega

theorem ReliableInv.opcode (h : ReliableInv server s) (hfit : s.handlers.length ≤ 2 ^ 32) {request : Bytes}
    (hmem : request ∈ s.toWayland.queue) : ∃ opcode data, readOpcode request = some (opcode, data) ∧
      opcode.toNat < s.handlers.length ∧ opcode ≠ 0 := by
  have hsent := List.mem_of_mem_drop hmem
  rw [h.pipeline.requests] at hsent
  obtain ⟨c, hc, rfl⟩ := List.mem_map.mp hsent
  obtain ⟨hlookup, hzero⟩ := h.registered.lookup hfit (h.booked.requested c hc)
  exact ⟨_, _, readOpcode_message _ _, (List.getElem?_eq_some_iff.mp hlookup).1, hzero⟩

theorem ReliableInv.faithful (h : ReliableInv server s) (hfit : s.handlers.length ≤ 2 ^ 32) : Faithful server s := by
  have hmore : s.requested <+: s.acquired := ⟨_, h.sending.acquired.symm⟩
  have hjobs := h.pipeline.jobs.trans (hmore.map Call.job)
  refine ⟨hjobs, fun k answer hk => ?_, fun t c outcome ht => ?_, h.in_flight, fun _ => h.opcode hfit, ?_⟩
  · obtain ⟨hreply, hle, hlag, hrequest, -⟩ := h.answering.answers k answer hk
    have heq : answer.request = k := by omega
    obtain ⟨-, i, hi, -, hout⟩ := h.own_reply (List.mem_of_getElem? hk) (hreply.trans heq.symm)
    rw [heq] at hrequest hi
    refine ⟨?_, i, hi, hout⟩
    obtain ⟨rest, hrest⟩ := hmore
    rw [← hrest, List.getElem?_append_left (List.getElem?_eq_some_iff.mp hrequest).1, hrequest]
  · refine h.sending.returning c outcome ?_
    rw [h.serialised.holderPc_eq (by rw [ht]; rfl), ht]
  · have htake := List.prefix_iff_eq_take.mp hjobs
    rw [List.length_map] at htake
    rw [← htake]
    exact h.pipeline.values

end Faithful

/-! ## Every call comes to its end -/

/-- A step that the proxy takes by itself: not a call, a registration or a failure. -/
def Action.internal : Action T σ → Bool
  | .lock _ | .send _ | .recv _ | .unlock _ | .loopRecv | .dispatch | .sendReply => true
  | _ => false

/-- A step of the event loop thread. -/
def Action.onLoop : Action T σ → Bool
  | .loopRecv | .dispatch | .sendReply => true
  | _ => false

/-- In the run only the event loop thread invokes handlers. -/
def InvokedOnLoop [DecidableEq T] (server : σ) (as : List (Action T σ)) : Prop :=
  ∀ pre a u v, pre ++ [a] <+: as → proxy.exec (System.fresh server) pre = some u →
    proxy.exec (System.fresh server) (pre ++ [a]) = some v → v.invoked = u.invoked ∨ a.onLoop = true

/-- The steps that a thread has still to take for its call. -/
def Pc.work : Pc T σ → Nat
  | .idle => 0
  | .calling _ => 7
  | .locked _ => 6
  | .waiting _ _ => 2
  | .returning _ _ => 1

def Loop.work : Loop → Nat
  | .dispatching _ => 2
  | .replying _ => 1
  | _ => 0

theorem Action.reliable_of_internal (h : a.internal = true) : a.reliable = true := by
  cases a with
  | sendFails | recvFails => cases h
  | _ => rfl

section Completion
variable [Fintype T]

/-- The steps that the proxy has still to take; a request in the socket is worth the three steps of the loop. -/
def System.work (s : System T σ) : Nat := ∑ t, (s.threads t).work + 3 * s.toWayland.queue.length + s.loop.work

variable [DecidableEq T]

theorem sum_work_update (threads : T → Pc T σ) (t : T) (pc : Pc T σ) :
    ∑ u, (Function.update threads t pc u).work + (threads t).work = ∑ u, (threads u).work + pc.work := by
  have hrest : ∑ u ∈ Finset.univ.erase t, (Function.update threads t pc u).work =
      ∑ u ∈ Finset.univ.erase t, (threads u).work := by
    refine Finset.sum_congr rfl fun u hu => ?_
    rw [Function.update_of_ne (Finset.ne_of_mem_erase hu)]
  rw [← Finset.add_sum_erase _ (fun u => (Function.update threads t pc u).work) (Finset.mem_univ t),
    ← Finset.add_sum_erase _ (fun u => (threads u).work) (Finset.mem_univ t), hrest]
  simp only [Function.update_self]
  omega

variable {server : σ}

theorem ReliableInv.work_step (h : ReliableInv server s) (hfit : s.handlers.length ≤ 2 ^ 32) (hs : Step s a s')
    (ha : a.internal = true) : s'.work + 1 = s.work := by
  unfold System.work
  cases hs with
  | register | call | sendFails | recvFails => cases ha
  | @lock t c hpc hfree =>
      have hsum := sum_work_update s.threads t (.locked c)
      rw [hpc] at hsum
      simp only [System.goto, Pc.work] at hsum ⊢
      omega
  | @send t c hpc =>
      have hsum := sum_work_update s.threads t (.waiting c s.requested.length)
      have hle := s.toWayland.taken_le
      rw [hpc] at hsum
      simp only [System.goto, Pc.work, Fifo.length_queue, Fifo.sent_push, Fifo.taken_push, List.length_append,
        List.length_singleton] at hsum ⊢
      omega
  | @recv t c request reply toClient hpc hpop =>
      have hsum := sum_work_update s.threads t (.returning c (waitForReply c.thunk.callable reply))
      rw [hpc] at hsum
      simp only [System.goto, Pc.work] at hsum ⊢
      omega
  | @unlock t c outcome hpc =>
      have hsum := sum_work_update s.threads t .idle
      rw [hpc] at hsum
      simp only [System.goto, Pc.work] at hsum ⊢
      omega
  | @loopRecv request toWayland hloop hpop =>
      obtain ⟨hrequest, hsent, htaken⟩ := Fifo.pop_eq_some.mp hpop
      have hlt := (List.getElem?_eq_some_iff.mp hrequest).1
      simp only [Fifo.length_queue, hsent, htaken, hloop, Loop.work]
      omega
  | @dispatch buffer hloop =>
      obtain ⟨c, -, heq⟩ := h.pipeline.dispatch_eq h.registered h.booked hfit hloop
      rw [heq]
      simp only [hloop, Loop.work]
  | @sendReply reply hloop =>
      simp only [hloop, Loop.work]

omit [Fintype T] in
/-- While a thread waits, its request is in the socket, in the loop, or its reply is in the socket. -/
theorem ReliableInv.progress_waiting (h : ReliableInv server s) {t : T} {c : Call T σ} {r : Nat}
    (hpc : s.threads t = .waiting c r) : ∃ a s', Action.internal a = true ∧ proxy.step s a = some s' := by
  have hholder := h.serialised.holderPc_eq (t := t) (by rw [hpc]; rfl)
  obtain ⟨-, hlast, hr⟩ := h.answering.waiting c r (hholder.trans hpc)
  have htaken := h.answering.taken
  have hsent : s.toWayland.sent.length = s.requested.length := by rw [h.pipeline.requests, List.length_map]
  have hat := h.pipeline.loop
  cases hloop : s.loop with
  | idle =>
      rw [hloop] at hat
      cases hat with
      | idle hserved hreplies =>
          have hlen : s.toClient.sent.length = s.invoked.length := by rw [hreplies, List.length_map]
          by_cases hmore : s.toWayland.taken < s.toWayland.sent.length
          · obtain ⟨request, toWayland, hpop⟩ := Fifo.pop_isSome hmore
            exact ⟨.loopRecv, _, rfl, by simp [proxy, System.step, hloop, hpop]; rfl⟩
          · obtain ⟨reply, toClient, hpop⟩ := Fifo.pop_isSome (f := s.toClient) (by omega)
            exact ⟨.recv t, _, rfl, by simp [proxy, System.step, hpc, hpop]; rfl⟩
  | dispatching buffer => exact ⟨.dispatch, _, rfl, by simp [proxy, System.step, hloop]; rfl⟩
  | replying reply => exact ⟨.sendReply, _, rfl, by simp [proxy, System.step, hloop]; rfl⟩
  | removed | faulted =>
      rw [hloop] at hat
      cases hat

omit [Fintype T] in
/-- As long as a thread is in a call, the proxy can take a step. -/
theorem ReliableInv.progress (h : ReliableInv server s) {t : T} (ht : s.threads t ≠ .idle) :
    ∃ a s', Action.internal a = true ∧ proxy.step s a = some s' := by
  cases hholder : s.messageSerialiser with
  | none =>
      cases hpc : s.threads t with
      | idle => exact absurd hpc ht
      | calling c => exact ⟨.lock t, _, rfl, by simp [proxy, System.step, hpc, hholder]; rfl⟩
      | locked | waiting | returning =>
          have hin := (h.serialised t).mp (by rw [hpc]; rfl)
          rw [hholder] at hin
          cases hin
  | some u =>
      have hin := (h.serialised u).mpr hholder
      have heq := h.serialised.holderPc_eq hin
      cases hpc : s.threads u with
      | idle | calling =>
          rw [hpc] at hin
          cases hin
      | locked c => exact ⟨.send u, _, rfl, by simp [proxy, System.step, hpc]; rfl⟩
      | returning c outcome => exact ⟨.unlock u, _, rfl, by simp [proxy, System.step, hpc]; rfl⟩
      | waiting c r => exact h.progress_waiting hpc

omit [Fintype T] in
/-- When no thread is in a call, everything that was requested has been answered. -/
theorem ReliableInv.rest (h : ReliableInv server s) (hidle : ∀ t, s.threads t = .idle) :
    s.holderPc = .idle ∧ s.requested.length = s.answered.length ∧ s.invoked.length = s.answered.length ∧
      s.toWayland.taken = s.requested.length ∧ s.toClient.sent.length = s.answered.length := by
  have hholder : s.holderPc = .idle := by
    cases hmutex : s.messageSerialiser with
    | none => exact holderPc_free hmutex
    | some t =>
        have hin := (h.serialised t).mpr hmutex
        rw [hidle t] at hin
        cases hin
  have hlen := h.answering.between (by rw [hholder]; rfl)
  have hsent : s.toWayland.sent.length = s.requested.length := by rw [h.pipeline.requests, List.length_map]
  have hbehind := h.pipeline.loop.replies_le
  have htaken := h.answering.taken
  have := s.toWayland.taken_le
  have := s.toClient.taken_le
  refine ⟨hholder, ?_, ?_, ?_, ?_⟩ <;> omega

theorem ReliableInv.work_eq_zero (h : ReliableInv server s) : s.work = 0 ↔ ∀ t, s.threads t = .idle := by
  constructor
  · intro hwork t
    have hsum : ∑ t, (s.threads t).work = 0 := by
      unfold System.work at hwork
      omega
    have hzero := Finset.sum_eq_zero_iff.mp hsum t (Finset.mem_univ t)
    cases hpc : s.threads t with
    | idle => rfl
    | calling | locked | waiting | returning =>
        rw [hpc] at hzero
        cases hzero
  · intro hidle
    obtain ⟨-, hrequested, hinvoked, htaken, hreplies⟩ := h.rest hidle
    have hsum : ∑ t, (s.threads t).work = 0 := by
      refine Finset.sum_eq_zero fun t _ => ?_
      rw [hidle t]
      rfl
    have hsent : s.toWayland.sent.length = s.requested.length := by rw [h.pipeline.requests, List.length_map]
    have hloop : s.loop.work = 0 := by
      have hat := h.pipeline.loop
      cases hloop : s.loop with
      | idle | removed | faulted => rfl
      | dispatching buffer =>
          rw [hloop] at hat
          cases hat with
          | dispatching htaken' hreplies' hc => omega
      | replying reply =>
          rw [hloop] at hat
          cases hat with
          | replying htaken' hreplies' =>
              have hlen := congrArg List.length hreplies'
              rw [List.length_append, List.length_singleton, List.length_map] at hlen
              omega
    unfold System.work
    rw [hsum, hloop, Fifo.length_queue, hsent, htaken]
    omega

/-- Every call made has got the mutex, in the order in which its thread made it, and has been invoked and answered. -/
structure Settled (s : System T σ) : Prop where
  idle : ∀ t, s.threads t = .idle
  called : ∀ t, callsOf t s.called = callsOf t s.acquired
  invoked : s.invoked.length = s.acquired.length
  answered : s.answered.length = s.acquired.length

/-- The proxy left to itself settles every call, whatever order its steps come in. -/
structure Completes (s : System T σ) : Prop where
  settles : ∃ as s', (∀ a ∈ as, Action.internal a = true) ∧ proxy.exec s as = some s' ∧ s'.called = s.called ∧ Settled s'
  bounded : ∀ as s', (∀ a ∈ as, Action.internal a = true) → proxy.exec s as = some s' → as.length ≤ s.work

omit [Fintype T] in
theorem ReliableInv.settled (h : ReliableInv server s) (hidle : ∀ t, s.threads t = .idle) : Settled s := by
  obtain ⟨hholder, hrequested, hinvoked, -⟩ := h.rest hidle
  have hacquired := h.sending.acquired
  rw [hholder] at hacquired
  have hlen : s.acquired.length = s.requested.length := by
    rw [hacquired, List.length_append]
    rfl
  refine ⟨hidle, fun t => ?_, by omega, by omega⟩
  have hcalled := h.booked.called t
  rw [hidle t] at hcalled
  rw [hcalled]
  exact List.append_nil _

omit [Fintype T] in
theorem Step.internal_frame (hs : Step s a s') (ha : a.internal = true) :
    s'.called = s.called ∧ s'.handlers = s.handlers := by
  cases hs with
  | register | call => cases ha
  | @dispatch buffer hloop =>
      obtain ⟨server, loop, invoked, heq⟩ := dispatch_frame s buffer
      rw [heq]
      exact ⟨rfl, rfl⟩
  | _ => exact ⟨rfl, rfl⟩

theorem ReliableInv.completes (h : ReliableInv server s) (hfit : s.handlers.length ≤ 2 ^ 32) : Completes s := by
  -- the invariant of the run that finishes the calls of `s`
  let I := fun u : System T σ => ReliableInv server u ∧ u.handlers.length ≤ 2 ^ 32 ∧ u.called = s.called
  have hI : ∀ u a v, I u → Action.internal a = true → proxy.step u a = some v → I v := by
    rintro u a v ⟨hu, hfu, hcu⟩ ha hstep
    have hs := step_inv hstep
    obtain ⟨hcalled, hhandlers⟩ := hs.internal_frame ha
    refine ⟨hu.step hfu hs (Action.reliable_of_internal ha), ?_, hcalled.trans hcu⟩
    rw [hhandlers]
    exact hfu
  have hwork : ∀ u a v, I u → Action.internal a = true → proxy.step u a = some v → v.work + 1 = u.work :=
    fun u a v hu ha hstep => hu.1.work_step hu.2.1 (step_inv hstep) ha
  have hprogress : ∀ u, I u → u.work ≠ 0 → ∃ a v, Action.internal a = true ∧ proxy.step u a = some v := by
    rintro u ⟨hu, -, -⟩ hne
    rw [ne_eq, hu.work_eq_zero, not_forall] at hne
    obtain ⟨t, ht⟩ := hne
    exact hu.progress ht
  have hs : I s := ⟨h, hfit, rfl⟩
  refine ⟨?_, fun as s' has hrun => ?_⟩
  · obtain ⟨as, s', has, hrun, hzero⟩ := Guarded.exec_to_rest hI hwork hprogress hs
    obtain ⟨⟨hinv, -, hcalled⟩, -⟩ := Guarded.exec_length hI hwork hs has hrun
    exact ⟨as, s', has, hrun, hcalled, hinv.settled (hinv.work_eq_zero.mp hzero)⟩
  · obtain ⟨-, hlen⟩ := Guarded.exec_length hI hwork hs has hrun
    omega

omit [Fintype T] in
theorem Step.invoked (hs : Step s a s') (ha : a.onLoop = false) : s'.invoked = s.invoked := by
  cases hs with
  | loopRecv | dispatch | sendReply => cases ha
  | _ => rfl

omit [Fintype T] in
theorem invokedOnLoop (server : σ) (as : List (Action T σ)) : InvokedOnLoop server as := by
  intro pre a u v _ hu hv
  rw [proxy.exec_concat, hu, Option.bind_some] at hv
  cases ha : a.onLoop with
  | true => exact Or.inr rfl
  | false => exact Or.inl ((step_inv hv).invoked ha)

/-- **`ThreadProxy` is a faithful remote call**: in every run without a failed socket call and with no more operations
than the opcodes can tell apart, whatever the interleaving of the threads, the calls run their own handlers on the loop
thread, each once, and get their values back, as they would through `NullProxy` in the order in which they got
`message_serialiser`; and every call comes to its end. -/
theorem thread_proxy_faithful (server : σ) (as : List (Action T σ)) (s : System T σ)
    (h : proxy.exec (System.fresh server) as = some s) (hreliable : ∀ a ∈ as, a.reliable = true)
    (hfit : s.handlers.length ≤ 2 ^ 32) : Faithful server s ∧ InvokedOnLoop server as ∧ Completes s := by
  have hinv := run_reliableInv h hreliable hfit
  exact ⟨hinv.faithful hfit, invokedOnLoop server as, hinv.completes hfit⟩

end Completion

/-- Does nothing and returns nothing. -/
def ping : Callable Unit where
  args := []
  returns := none
  run := fun _ s => ([], s)
  args_fit := noArguments_fit
  returns_fit := void_fit
  run_size := fun _ _ => rfl

/-- Two threads call at once, and the second gets the mutex first. -/
def twoPings : List (Action Bool Unit) :=
  [.register ping, .call false 0 [], .call true 0 [], .lock true, .send true, .loopRecv, .dispatch, .sendReply,
    .recv true, .unlock true, .lock false, .send false, .loopRecv]

theorem thread_proxy_faithful_twoPings :
    ∃ s, proxy.exec (System.fresh ()) twoPings = some s ∧ (∀ a ∈ twoPings, a.reliable = true) ∧
      s.handlers.length ≤ 2 ^ 32 ∧ s.answered.length = 1 ∧
      (Faithful () s ∧ InvokedOnLoop () twoPings ∧ Completes s) := by
  have hreliable : ∀ a ∈ twoPings, a.reliable = true := by simp [twoPings, Action.reliable]
  exact ⟨_, rfl, hreliable, by decide, rfl, thread_proxy_faithful () twoPings _ rfl hreliable (by decide)⟩

/-! ## One operation too many -/

theorem exec_register (n : Nat) (s : System Unit Unit) :
    proxy.exec s (List.replicate n (.register ping)) = some { s with
      handlers := s.handlers ++ List.replicate n (.op ping)
      thunks := s.thunks ++ (List.range n).map fun k => ⟨UInt32.ofNat (s.handlers.length + k), ping⟩ } := by
  induction n with
  | zero => simp
  | succ n ih =>
      rw [List.replicate_succ', proxy.exec_concat, ih]
      simp [proxy, System.step, System.registerOp, List.range_succ, List.replicate_succ']

/-- A thread of a proxy at rest calls a thunk and sends its request. -/
theorem exec_request {s : System Unit Unit} {k : Nat} {opcode : UInt32} (hpc : s.threads () = .idle)
    (hfree : s.messageSerialiser = none) (hthunk : s.thunks[k]? = some ⟨opcode, ping⟩) :
    ∃ s', proxy.exec s [.call () k [], .lock (), .send ()] = some s' ∧
      s'.toWayland = s.toWayland.push (message opcode []) ∧ s'.handlers = s.handlers ∧ s'.loop = s.loop ∧
      s'.invoked = s.invoked := by
  have hfit : ([] : List Bytes).map List.length = ping.args := rfl
  simp only [Guarded.exec, proxy, System.step, hpc, hthunk, hfit, System.goto, Function.update_self, hfree,
    Option.bind_some, dite_true]
  exact ⟨_, rfl, rfl, rfl, rfl, rfl⟩

/-- The last of `n` operations sends the opcode `n`, narrowed to 32 bits. -/
theorem request_of_last (n : Nat) (hn : 0 < n) :
    ∃ s, proxy.exec (System.fresh ()) (List.replicate n (.register ping) ++
        [.call () (n - 1) [], .lock (), .send ()]) = some s ∧
      s.toWayland = Fifo.empty.push (message (UInt32.ofNat n) []) ∧ s.handlers[0]? = some .destructor ∧
      s.loop = .idle ∧ s.invoked = [] := by
  rw [proxy.exec_append, exec_register, Option.bind_some]
  have hthunk : ((List.range n).map fun k => (⟨UInt32.ofNat (1 + k), ping⟩ : Thunk Unit))[n - 1]? =
      some ⟨UInt32.ofNat n, ping⟩ := by
    rw [List.getElem?_map, List.getElem?_range (by omega), Option.map_some, show 1 + (n - 1) = n by omega]
  obtain ⟨s, hs, hqueue, hhandlers, hloop, hinvoked⟩ :=
    exec_request (s := { System.fresh () with
      handlers := [.destructor] ++ List.replicate n (.op ping)
      thunks := (List.range n).map fun k => ⟨UInt32.ofNat (1 + k), ping⟩ }) rfl rfl hthunk
  refine ⟨s, hs, hqueue, ?_, hloop, hinvoked⟩
  rw [hhandlers]
  rfl

/-- With 2 ^ 32 operations the thunk of the last one sends the opcode of the destructor, and the loop removes its event
source instead of running the handler. -/
theorem wrapped_opcode :
    ∃ s s', proxy.exec (System.fresh ()) (List.replicate (2 ^ 32) (.register ping) ++
        [.call () (2 ^ 32 - 1) [], .lock (), .send ()]) = some s ∧
      s.toWayland.queue.map readOpcode = [some (0, [])] ∧ ¬ Faithful () s ∧
      proxy.exec s [.loopRecv, .dispatch] = some s' ∧ s'.loop = .removed ∧ s'.invoked = [] := by
  obtain ⟨s, hs, hsocket, hdestructor, hloop, hinvoked⟩ := request_of_last (2 ^ 32) (by decide)
  have hread : readOpcode (message (UInt32.ofNat (2 ^ 32)) []) = some (0, []) := by
    rw [readOpcode_message]
    rfl
  have hqueue : s.toWayland.queue = [message (UInt32.ofNat (2 ^ 32)) []] := by
    rw [hsocket]
    rfl
  obtain ⟨request, toWayland, hpop⟩ := Fifo.pop_isSome (f := s.toWayland) (by rw [hsocket]; decide)
  have hrequest : request.take maxMessageSize = message (UInt32.ofNat (2 ^ 32)) [] := by
    have hfirst := (Fifo.pop_eq_some.mp hpop).1
    rw [hsocket] at hfirst
    rw [← Option.some.inj hfirst]
    rfl
  refine ⟨s, { s with toWayland := toWayland, loop := .removed }, hs, ?_, fun h => ?_, ?_, rfl, hinvoked⟩
  · rw [hqueue, List.map_singleton, hread]
  · obtain ⟨opcode, data, hop, -, hne⟩ := h.opcodes _ (by rw [hqueue]; exact List.mem_singleton.mpr rfl)
    rw [hread] at hop
    exact hne (Prod.mk.inj (Option.some.inj hop)).1.symm
  · simp [Guarded.exec, proxy, System.step, hloop, hpop, System.dispatch, hrequest, readOpcode_message, hdestructor]

end Wlcs.ThreadProxy
