import Wlcs.ThreadProxy.Steps

/-!
# Requests, invocations and replies go through in order

The socket and the loop are one pipeline: the loop runs the requests in the order in which they were sent and its
replies come back in that order (`Pipeline`). A call in `recv` takes the oldest reply there is, and how far that one is
behind the call's own request is the number of receives that have failed so far (`Answering`).

Everything here is about a table that the opcodes still reach, `handlers.length ≤ 2 ^ 32`.
-/

namespace Wlcs.ThreadProxy
open EventMachine

variable {T : Type} {σ : Type} {s s' : System T σ} {a : Action T σ}

/-- Where the loop is in the stream of requests: how many it has `taken`, what it has `invoked` and the replies it has
sent. -/
inductive LoopAt (taken : Nat) (requested : List (Call T σ)) (invoked : List (Invocation σ)) (replies : List Bytes) :
    Loop → Prop
  | idle (htaken : taken = invoked.length) (hreplies : replies = invoked.map Invocation.reply) :
      LoopAt taken requested invoked replies .idle
  | dispatching {c : Call T σ} (htaken : taken = invoked.length + 1)
      (hreplies : replies = invoked.map Invocation.reply) (hc : requested[invoked.length]? = some c) :
      LoopAt taken requested invoked replies (.dispatching (c.request.take maxMessageSize))
  | replying {reply : Bytes} (htaken : taken = invoked.length)
      (hreplies : replies ++ [reply] = invoked.map Invocation.reply) :
      LoopAt taken requested invoked replies (.replying reply)

structure Pipeline (server : σ) (s : System T σ) : Prop where
  requests : s.toWayland.sent = s.requested.map Call.request
  loop : LoopAt s.toWayland.taken s.requested s.invoked s.toClient.sent s.loop
  jobs : s.invoked.map Invocation.job <+: s.requested.map Call.job
  values : nullProxy server (s.invoked.map Invocation.job) = (s.invoked.map Invocation.value, s.server)
  replies : ∀ i ∈ s.invoked, waitForReply i.job.callable i.reply = .ok i.value

theorem pipeline_fresh (server : σ) : Pipeline server (System.fresh server : System T σ) :=
  ⟨rfl, .idle rfl rfl, List.nil_prefix, rfl, fun _ h => (by cases h)⟩

/-- The loop runs the handler of a request with the arguments of the call. -/
theorem dispatch_request {c : Call T σ} (h : s.handlers[c.thunk.opcode.toNat]? = some (.op c.thunk.callable)) :
    s.dispatch (c.request.take maxMessageSize) =
      { s with
        server := (c.thunk.callable.run c.args s.server).2
        loop := .replying (c.thunk.callable.reply (c.thunk.callable.run c.args s.server).1)
        invoked := s.invoked ++ [⟨c.job, (c.thunk.callable.run c.args s.server).1⟩] } := by
  rw [Call.request, List.take_of_length_le (length_message_le c.thunk.callable _ c.fits)]
  unfold System.dispatch
  simp only [readOpcode_message, h, ← c.fits, tupleFromBuffer_packBuffer]
  rfl

theorem LoopAt.replies_prefix {taken : Nat} {requested : List (Call T σ)} {invoked : List (Invocation σ)}
    {replies : List Bytes} {loop : Loop} (h : LoopAt taken requested invoked replies loop) :
    replies <+: invoked.map Invocation.reply := by
  cases h with
  | idle htaken hreplies => exact hreplies ▸ List.prefix_refl _
  | dispatching htaken hreplies hc => exact hreplies ▸ List.prefix_refl _
  | replying htaken hreplies => exact ⟨_, hreplies⟩

/-- The loop is never ahead of the requests it has taken, nor its replies of what it has invoked. -/
theorem LoopAt.replies_le {taken : Nat} {requested : List (Call T σ)} {invoked : List (Invocation σ)}
    {replies : List Bytes} {loop : Loop} (h : LoopAt taken requested invoked replies loop) :
    replies.length ≤ invoked.length ∧ invoked.length ≤ taken := by
  have hle := h.replies_prefix.length_le
  rw [List.length_map] at hle
  cases h <;> omega

theorem LoopAt.send {taken : Nat} {requested : List (Call T σ)} {invoked : List (Invocation σ)}
    {replies : List Bytes} {loop : Loop} (h : LoopAt taken requested invoked replies loop) (c : Call T σ) :
    LoopAt taken (requested ++ [c]) invoked replies loop := by
  cases h with
  | idle htaken hreplies => exact .idle htaken hreplies
  | @dispatching d htaken hreplies hd =>
      refine .dispatching htaken hreplies ?_
      rw [List.getElem?_append_left (List.getElem?_eq_some_iff.mp hd).1, hd]
  | replying htaken hreplies => exact .replying htaken hreplies

/-- The loop dispatches the first request that it has not served yet. -/
theorem Pipeline.dispatch_eq [DecidableEq T] {server : σ} (h : Pipeline server s) (hr : Registered s) (hb : Booked s)
    (hfit : s.handlers.length ≤ 2 ^ 32) {buffer : Bytes} (hloop : s.loop = .dispatching buffer) :
    ∃ c, s.requested[s.invoked.length]? = some c ∧ s.dispatch buffer =
      { s with
        server := (c.thunk.callable.run c.args s.server).2
        loop := .replying (c.thunk.callable.reply (c.thunk.callable.run c.args s.server).1)
        invoked := s.invoked ++ [⟨c.job, (c.thunk.callable.run c.args s.server).1⟩] } := by
  have hat := h.loop
  rw [hloop] at hat
  cases hat with
  | @dispatching c htaken hreplies hc =>
      exact ⟨c, hc, dispatch_request (hr.lookup hfit (hb.requested c (List.mem_of_getElem? hc))).1⟩

theorem Pipeline.dispatch [DecidableEq T] {server : σ} (h : Pipeline server s) (hr : Registered s) (hb : Booked s)
    (hfit : s.handlers.length ≤ 2 ^ 32) {buffer : Bytes} (hloop : s.loop = .dispatching buffer) :
    Pipeline server (s.dispatch buffer) := by
  obtain ⟨c, hc, heq⟩ := h.dispatch_eq hr hb hfit hloop
  have hat := h.loop
  rw [hloop] at hat
  rw [heq]
  cases hat with
  | dispatching htaken hreplies _ =>
      refine ⟨h.requests, ?_, ?_, ?_, ?_⟩
      · refine .replying ?_ ?_
        · rw [htaken, List.length_append, List.length_singleton]
        · rw [hreplies, List.map_append]
          rfl
      · -- the request at hand is the first that was not invoked yet
        have hlen : s.invoked.length = (s.invoked.map Invocation.job).length := by rw [List.length_map]
        obtain ⟨rest, hrest⟩ := h.jobs
        have hjob : (s.requested.map Call.job)[s.invoked.length]? = some c.job := by
          rw [List.getElem?_map, hc]
          rfl
        rw [← hrest, hlen, List.getElem?_append_right (Nat.le_refl _), Nat.sub_self] at hjob
        obtain ⟨later, rfl⟩ : ∃ later, rest = c.job :: later := by
          cases rest with
          | nil => cases hjob
          | cons j later => exact ⟨later, by rw [List.getElem?_cons_zero] at hjob; rw [Option.some.inj hjob]⟩
        refine ⟨later, ?_⟩
        rw [← hrest, List.map_append, List.append_assoc]
        rfl
      · dsimp only
        rw [List.map_append, List.map_singleton, nullProxy_concat, h.values, List.map_append, List.map_singleton]
        rfl
      · intro i hi
        rcases List.mem_append.mp hi with hi | hi
        · exact h.replies i hi
        · rw [List.mem_singleton.mp hi]
          exact waitForReply_reply _ _ _

theorem Pipeline.step [DecidableEq T] {server : σ} (h : Pipeline server s) (hr : Registered s) (hb : Booked s)
    (hfit : s.handlers.length ≤ 2 ^ 32) (hs : Step s a s') : Pipeline server s' := by
  cases hs with
  | register | call | lock | sendFails | recvFails | unlock =>
      exact ⟨h.requests, h.loop, h.jobs, h.values, h.replies⟩
  | @send t c hpc =>
      refine ⟨?_, h.loop.send c, ?_, h.values, h.replies⟩
      · simp [h.requests]
      · dsimp only
        rw [List.map_append]
        exact h.jobs.trans (List.prefix_append _ _)
  | @recv t c request reply toClient hpc hpop =>
      obtain ⟨-, hsent, -⟩ := Fifo.pop_eq_some.mp hpop
      refine ⟨h.requests, ?_, h.jobs, h.values, h.replies⟩
      dsimp only
      rw [hsent]
      exact h.loop
  | @loopRecv request toWayland hloop hpop =>
      obtain ⟨hrequest, hsent, htaken⟩ := Fifo.pop_eq_some.mp hpop
      have hat := h.loop
      rw [hloop] at hat
      cases hat with
      | idle hbefore hreplies =>
          rw [h.requests, hbefore, List.getElem?_map] at hrequest
          obtain ⟨c, hc, rfl⟩ := Option.map_eq_some_iff.mp hrequest
          refine ⟨?_, .dispatching ?_ hreplies hc, h.jobs, h.values, h.replies⟩
          · dsimp only
            rw [hsent, h.requests]
          · dsimp only
            rw [htaken, hbefore]
  | @dispatch buffer hloop => exact h.dispatch hr hb hfit hloop
  | @sendReply reply hloop =>
      have hat := h.loop
      rw [hloop] at hat
      cases hat with
      | replying htaken hreplies => exact ⟨h.requests, .idle htaken hreplies, h.jobs, h.values, h.replies⟩

/-! ## Which reply a call takes -/

def Pc.waits : Pc T σ → Bool
  | .waiting _ _ => true
  | _ => false

def Action.isRecvFails : Action T σ → Bool
  | .recvFails _ => true
  | _ => false

/-- After `fails` receives have failed: the call in `recv` has sent the last request, and the reply that it will take is
`fails` places behind it; each call that has received took the reply whose turn it was, no further behind. -/
structure Answering (fails : Nat) (s : System T σ) : Prop where
  taken : s.toClient.taken = s.answered.length
  waiting : ∀ c r, s.holderPc = .waiting c r →
    s.requested[r]? = some c ∧ r + 1 = s.requested.length ∧ r = s.answered.length + fails
  between : s.holderPc.waits = false → s.requested.length = s.answered.length + fails
  answers : ∀ k (answer : Answer T σ), s.answered[k]? = some answer →
    answer.reply = k ∧ k ≤ answer.request ∧ answer.request ≤ k + fails ∧
      s.requested[answer.request]? = some answer.call ∧
      ∃ i, s.invoked[k]? = some i ∧ answer.outcome = waitForReply answer.call.thunk.callable i.reply

theorem answering_fresh (server : σ) : Answering 0 (System.fresh server : System T σ) :=
  ⟨rfl, fun _ _ h => (by cases h), fun _ => rfl, fun _ _ h => (by cases h)⟩

section Answering
variable {fails : Nat}

/-- Steps that neither send nor receive. -/
theorem Answering.congr (h : Answering fails s) (htaken : s'.toClient.taken = s.toClient.taken)
    (hrequested : s'.requested = s.requested) (hanswered : s'.answered = s.answered) (hinvoked : s.invoked <+: s'.invoked)
    (hpc : s'.holderPc = s.holderPc ∨ s.holderPc.waits = false ∧ s'.holderPc.waits = false) : Answering fails s' := by
  refine ⟨?_, ?_, ?_, ?_⟩
  · rw [htaken, hanswered, h.taken]
  · rw [hrequested, hanswered]
    rcases hpc with hpc | ⟨-, hpc⟩
    · rw [hpc]
      exact h.waiting
    · intro c r hwait
      rw [hwait] at hpc
      cases hpc
  · rw [hrequested, hanswered]
    rcases hpc with hpc | ⟨hpc, -⟩
    · rw [hpc]
      exact h.between
    · exact fun _ => h.between hpc
  · rw [hrequested, hanswered]
    intro k answer hk
    obtain ⟨hreply, hle, hlag, hrequest, i, hi, hout⟩ := h.answers k answer hk
    refine ⟨hreply, hle, hlag, hrequest, i, ?_, hout⟩
    obtain ⟨rest, hrest⟩ := hinvoked
    rw [← hrest, List.getElem?_append_left (List.getElem?_eq_some_iff.mp hi).1, hi]

theorem invoked_prefix_dispatch (s : System T σ) (buffer : Bytes) : s.invoked <+: (s.dispatch buffer).invoked := by
  unfold System.dispatch
  split
  · exact List.prefix_refl _
  · split
    · exact List.prefix_refl _
    · exact List.prefix_refl _
    · split
      · exact List.prefix_refl _
      · exact List.prefix_append _ _

theorem Answering.dispatch (h : Answering fails s) (buffer : Bytes) : Answering fails (s.dispatch buffer) := by
  have hmore := invoked_prefix_dispatch s buffer
  obtain ⟨server, loop, invoked, heq⟩ := dispatch_frame s buffer
  rw [heq] at hmore ⊢
  exact h.congr rfl rfl rfl hmore (Or.inl rfl)

variable [DecidableEq T]

theorem Answering.send (h : Answering fails s) (hz : Serialised s) {t : T} {c : Call T σ}
    (hpc : s.threads t = .locked c) :
    Answering fails { s.goto t (.waiting c s.requested.length) with
      toWayland := s.toWayland.push c.request, requested := s.requested ++ [c] } := by
  have hin : (s.threads t).inside = true := by
    rw [hpc]
    rfl
  have hlen : s.requested.length = s.answered.length + fails := by
    refine h.between ?_
    rw [hz.holderPc_eq hin, hpc]
    rfl
  have hholder := hz.holderPc_goto hin (.waiting c s.requested.length)
  refine ⟨h.taken, fun d r hwait => ?_, fun hnot => ?_, fun k answer hk => ?_⟩
  · obtain ⟨rfl, rfl⟩ := Pc.waiting.inj (hholder.symm.trans hwait)
    dsimp only
    rw [List.getElem?_concat_length, List.length_append]
    exact ⟨rfl, rfl, hlen⟩
  · change (s.goto t (.waiting c s.requested.length)).holderPc.waits = false at hnot
    rw [hholder] at hnot
    cases hnot
  · obtain ⟨hreply, hle, hlag, hrequest, hi⟩ := h.answers k answer hk
    refine ⟨hreply, hle, hlag, ?_, hi⟩
    dsimp only
    rw [List.getElem?_append_left (List.getElem?_eq_some_iff.mp hrequest).1, hrequest]

theorem Answering.recv {server : σ} (h : Answering fails s) (hz : Serialised s) (hp : Pipeline server s) {t : T}
    {c : Call T σ} {request : Nat} {reply : Bytes} {toClient : Fifo Bytes} (hpc : s.threads t = .waiting c request)
    (hpop : s.toClient.pop = some (reply, toClient)) :
    Answering fails { s.goto t (.returning c (waitForReply c.thunk.callable reply)) with
      toClient := toClient,
      answered := s.answered ++ [⟨c, request, s.toClient.taken, waitForReply c.thunk.callable reply⟩] } := by
  have hin : (s.threads t).inside = true := by
    rw [hpc]
    rfl
  obtain ⟨hc, hlast, hrequest⟩ := h.waiting c request ((hz.holderPc_eq hin).trans hpc)
  obtain ⟨hreply, -, htaken⟩ := Fifo.pop_eq_some.mp hpop
  have hholder := hz.holderPc_goto hin (.returning c (waitForReply c.thunk.callable reply))
  refine ⟨?_, fun d r hwait => ?_, fun _ => ?_, fun k answer hk => ?_⟩
  · dsimp only
    rw [htaken, h.taken, List.length_append, List.length_singleton]
  · cases hholder.symm.trans hwait
  · dsimp only
    rw [List.length_append, List.length_singleton]
    change s.requested.length = _
    omega
  · dsimp only at hk
    rw [List.getElem?_append] at hk
    split at hk
    · exact h.answers k answer hk
    · rename_i hge
      have hidx : k = s.answered.length := by
        have hlt := (List.getElem?_eq_some_iff.mp hk).1
        rw [List.length_singleton] at hlt
        omega
      rw [hidx, Nat.sub_self] at hk
      obtain rfl := Option.some.inj hk
      refine ⟨by rw [hidx]; exact h.taken, by dsimp only; omega, by dsimp only; omega, hc, ?_⟩
      -- the reply at the front was sent for the invocation of the same number
      obtain ⟨rest, hrest⟩ := hp.loop.replies_prefix
      have hlt := (List.getElem?_eq_some_iff.mp hreply).1
      rw [← List.getElem?_append_left hlt, hrest, List.getElem?_map, h.taken, ← hidx] at hreply
      obtain ⟨i, hi, rfl⟩ := Option.map_eq_some_iff.mp hreply
      exact ⟨i, hi, rfl⟩

theorem Answering.recvFails (h : Answering fails s) (hz : Serialised s) {t : T} {c : Call T σ} {request : Nat}
    (hpc : s.threads t = .waiting c request) :
    Answering (fails + 1) (s.goto t (.returning c (.error .recvFailed))) := by
  have hin : (s.threads t).inside = true := by
    rw [hpc]
    rfl
  obtain ⟨hc, hlast, hrequest⟩ := h.waiting c request ((hz.holderPc_eq hin).trans hpc)
  have hholder := hz.holderPc_goto hin (.returning c (.error .recvFailed))
  refine ⟨h.taken, fun d r hwait => ?_, fun _ => ?_, fun k answer hk => ?_⟩
  · cases hholder.symm.trans hwait
  · change s.requested.length = s.answered.length + (fails + 1)
    omega
  · obtain ⟨hreply, hle, hlag, hrest⟩ := h.answers k answer hk
    exact ⟨hreply, hle, by omega, hrest⟩

theorem Answering.step {server : σ} (h : Answering fails s) (hz : Serialised s) (hp : Pipeline server s)
    (hs : Step s a s') : Answering (fails + if a.isRecvFails then 1 else 0) s' := by
  cases hs with
  | register => exact h.congr rfl rfl rfl (List.prefix_refl _) (Or.inl rfl)
  | @call c k hpc hthunk =>
      have hholder := hz.holderPc_goto_outside (by rw [hpc]; rfl) (.calling c)
      exact h.congr rfl rfl rfl (List.prefix_refl _) (Or.inl hholder)
  | @lock t c hpc hfree =>
      refine h.congr rfl rfl rfl (List.prefix_refl _) (Or.inr ⟨by rw [holderPc_free hfree]; rfl, ?_⟩)
      simp [System.holderPc, System.goto, Pc.waits]
  | send hpc => exact h.send hz hpc
  | @sendFails t c short hpc =>
      have hin : (s.threads t).inside = true := by
        rw [hpc]
        rfl
      refine h.congr rfl rfl rfl (List.prefix_refl _) (Or.inr ⟨?_, by rw [hz.holderPc_goto hin]; rfl⟩)
      rw [hz.holderPc_eq hin, hpc]
      rfl
  | recv hpc hpop => exact h.recv hz hp hpc hpop
  | recvFails hpc => exact h.recvFails hz hpc
  | @unlock t c outcome hpc =>
      refine h.congr rfl rfl rfl (List.prefix_refl _) (Or.inr ⟨?_, rfl⟩)
      rw [hz.holderPc_eq (by rw [hpc]; rfl), hpc]
      rfl
  | loopRecv | sendReply => exact h.congr rfl rfl rfl (List.prefix_refl _) (Or.inl rfl)
  | dispatch hloop => exact h.dispatch _

end Answering

/-! ## Runs -/

section Runs
variable [DecidableEq T]

/-- What holds after every run, with the number of receives that have failed in it. -/
structure Inv (server : σ) (fails : Nat) (s : System T σ) : Prop where
  registered : Registered s
  serialised : Serialised s
  booked : Booked s
  pipeline : Pipeline server s
  answering : Answering fails s

theorem inv_fresh (server : σ) : Inv server 0 (System.fresh server : System T σ) :=
  ⟨registered_fresh server, serialised_fresh server, booked_fresh server, pipeline_fresh server,
    answering_fresh server⟩

theorem Inv.step {server : σ} {fails : Nat} (h : Inv server fails s) (hfit : s.handlers.length ≤ 2 ^ 32)
    (hs : Step s a s') : Inv server (fails + if a.isRecvFails then 1 else 0) s' :=
  ⟨h.registered.step hs, h.serialised.step hs, h.booked.step hs, h.pipeline.step h.registered h.booked hfit hs,
    h.answering.step h.serialised h.pipeline hs⟩

/-- How many receives failed in a run. -/
def failedRecvs (as : List (Action T σ)) : Nat := as.countP Action.isRecvFails

omit [DecidableEq T] in
theorem failedRecvs_concat (as : List (Action T σ)) (a : Action T σ) :
    failedRecvs (as ++ [a]) = failedRecvs as + if a.isRecvFails then 1 else 0 := by
  rw [failedRecvs, List.countP_append, List.countP_singleton, failedRecvs]

theorem run_inv {server : σ} {as : List (Action T σ)} (h : proxy.exec (System.fresh server) as = some s)
    (hfit : s.handlers.length ≤ 2 ^ 32) : Inv server (failedRecvs as) s := by
  refine proxy.exec_induction (P := fun as s => s.handlers.length ≤ 2 ^ 32 → Inv server (failedRecvs as) s)
    (fun _ => inv_fresh server) (fun as u a t _ ih hstep hfit => ?_) as s h hfit
  have hs := step_inv hstep
  have hbefore := Nat.le_trans hs.handlers_le hfit
  rw [failedRecvs_concat]
  exact (ih hbefore).step hbefore hs

/-! ## Own replies -/

/-- The call received the reply to its own request, which is the value that its own handler returned. -/
def OwnReply (s : System T σ) (answer : Answer T σ) : Prop :=
  answer.reply = answer.request ∧
    ∃ i, s.invoked[answer.request]? = some i ∧ i.job = answer.call.job ∧ answer.outcome = .ok i.value

omit [DecidableEq T] in
theorem Pipeline.job_eq {server : σ} (h : Pipeline server s) {k : Nat} {c : Call T σ} {i : Invocation σ}
    (hc : s.requested[k]? = some c) (hi : s.invoked[k]? = some i) : i.job = c.job := by
  obtain ⟨rest, hrest⟩ := h.jobs
  have hleft : (s.invoked.map Invocation.job)[k]? = some i.job := by
    rw [List.getElem?_map, hi]
    rfl
  rw [← List.getElem?_append_left (List.getElem?_eq_some_iff.mp hleft).1, hrest, List.getElem?_map, hc] at hleft
  exact (Option.some.inj hleft).symm

theorem Inv.own_reply {server : σ} {fails : Nat} (h : Inv server fails s) {answer : Answer T σ}
    (hmem : answer ∈ s.answered) (hreply : answer.reply = answer.request) : OwnReply s answer := by
  obtain ⟨k, hk⟩ := List.mem_iff_getElem?.mp hmem
  obtain ⟨hindex, -, -, hrequest, i, hi, hout⟩ := h.answering.answers k answer hk
  rw [hreply] at hindex
  subst hindex
  have hjob := h.pipeline.job_eq hrequest hi
  refine ⟨hreply, i, hi, hjob, ?_⟩
  rw [hout, show answer.call.thunk.callable = i.job.callable from congrArg Job.callable hjob.symm]
  exact h.pipeline.replies i (List.mem_of_getElem? hi)

end Runs

end Wlcs.ThreadProxy
