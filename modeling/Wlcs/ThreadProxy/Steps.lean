import Wlcs.ThreadProxy.System

/-!
# What one step of the proxy can do

`Step s a s'` lists the steps with their guards, and `step_inv` says that there is no other. The invariants here hold in
every run, whether or not a socket call fails:

* `Registered` : the handler table and the opcodes of the thunks;
* `Serialised` : the thread between `lock` and `unlock` is the holder of `message_serialiser`;
* `Booked` : the logs of calls against the threads' program counters.
-/

namespace Wlcs.ThreadProxy
open EventMachine

variable {T : Type} {σ : Type} [DecidableEq T] {s s' : System T σ} {a : Action T σ}

inductive Step (s : System T σ) : Action T σ → System T σ → Prop
  | register (callable : Callable σ) : Step s (.register callable) (s.registerOp callable)
  | call {c : Call T σ} {k : Nat} (hpc : s.threads c.caller = .idle) (hthunk : s.thunks[k]? = some c.thunk) :
      Step s (.call c.caller k c.args) { s.goto c.caller (.calling c) with called := s.called ++ [c] }
  | lock {t : T} {c : Call T σ} (hpc : s.threads t = .calling c) (hfree : s.messageSerialiser = none) :
      Step s (.lock t) { s.goto t (.locked c) with messageSerialiser := some t, acquired := s.acquired ++ [c] }
  | send {t : T} {c : Call T σ} (hpc : s.threads t = .locked c) :
      Step s (.send t) { s.goto t (.waiting c s.requested.length) with
        toWayland := s.toWayland.push c.request, requested := s.requested ++ [c] }
  | sendFails {t : T} {c : Call T σ} {short : Bool} (hpc : s.threads t = .locked c) :
      Step s (.sendFails t short) (s.goto t (.returning c (.error (if short then .sendShort else .sendFailed))))
  | recv {t : T} {c : Call T σ} {request : Nat} {reply : Bytes} {toClient : Fifo Bytes}
      (hpc : s.threads t = .waiting c request) (hpop : s.toClient.pop = some (reply, toClient)) :
      Step s (.recv t) { s.goto t (.returning c (waitForReply c.thunk.callable reply)) with
        toClient := toClient,
        answered := s.answered ++ [⟨c, request, s.toClient.taken, waitForReply c.thunk.callable reply⟩] }
  | recvFails {t : T} {c : Call T σ} {request : Nat} (hpc : s.threads t = .waiting c request) :
      Step s (.recvFails t) (s.goto t (.returning c (.error .recvFailed)))
  | unlock {t : T} {c : Call T σ} {outcome : Except ProxyError Bytes} (hpc : s.threads t = .returning c outcome) :
      Step s (.unlock t) { s.goto t .idle with messageSerialiser := none }
  | loopRecv {request : Bytes} {toWayland : Fifo Bytes} (hloop : s.loop = .idle)
      (hpop : s.toWayland.pop = some (request, toWayland)) :
      Step s .loopRecv { s with toWayland := toWayland, loop := .dispatching (request.take maxMessageSize) }
  | dispatch {buffer : Bytes} (hloop : s.loop = .dispatching buffer) : Step s .dispatch (s.dispatch buffer)
  | sendReply {reply : Bytes} (hloop : s.loop = .replying reply) :
      Step s .sendReply { s with toClient := s.toClient.push reply, loop := .idle }

theorem step_inv (h : proxy.step s a = some s') : Step s a s' := by
  change s.step a = some s' at h
  cases a with
  | register callable =>
      obtain rfl := Option.some.inj h
      exact .register callable
  | call t k args =>
      simp only [System.step] at h
      split at h
      · rename_i thunk hpc hthunk
        split at h
        · rename_i hfit
          obtain rfl := Option.some.inj h
          exact Step.call (c := ⟨t, thunk, args, hfit⟩) hpc hthunk
        · cases h
      · cases h
  | lock t =>
      simp only [System.step] at h
      split at h
      · rename_i c hpc hfree
        obtain rfl := Option.some.inj h
        exact .lock hpc hfree
      · cases h
  | send t =>
      simp only [System.step] at h
      split at h
      · rename_i c hpc
        obtain rfl := Option.some.inj h
        exact .send hpc
      · cases h
  | sendFails t short =>
      simp only [System.step] at h
      split at h
      · rename_i c hpc
        obtain rfl := Option.some.inj h
        exact .sendFails hpc
      · cases h
  | recv t =>
      simp only [System.step] at h
      split at h
      · rename_i c request reply toClient hpc hpop
        obtain rfl := Option.some.inj h
        exact .recv hpc hpop
      · cases h
  | recvFails t =>
      simp only [System.step] at h
      split at h
      · rename_i c request hpc
        obtain rfl := Option.some.inj h
        exact .recvFails hpc
      · cases h
  | unlock t =>
      simp only [System.step] at h
      split at h
      · rename_i c outcome hpc
        obtain rfl := Option.some.inj h
        exact .unlock hpc
      · cases h
  | loopRecv =>
      simp only [System.step] at h
      split at h
      · rename_i request toWayland hloop hpop
        obtain rfl := Option.some.inj h
        exact .loopRecv hloop hpop
      · cases h
  | dispatch =>
      simp only [System.step] at h
      split at h
      · rename_i buffer hloop
        obtain rfl := Option.some.inj h
        exact .dispatch hloop
      · cases h
  | sendReply =>
      simp only [System.step] at h
      split at h
      · rename_i reply hloop
        obtain rfl := Option.some.inj h
        exact .sendReply hloop
      · cases h

omit [DecidableEq T] in
/-- Running a handler changes the server, the loop and the log of invocations only. -/
theorem dispatch_frame (s : System T σ) (buffer : Bytes) :
    ∃ server loop invoked, s.dispatch buffer = { s with server := server, loop := loop, invoked := invoked } := by
  unfold System.dispatch
  split
  · exact ⟨s.server, .faulted, s.invoked, rfl⟩
  · split
    · exact ⟨s.server, .faulted, s.invoked, rfl⟩
    · exact ⟨s.server, .removed, s.invoked, rfl⟩
    · split
      · exact ⟨s.server, .faulted, s.invoked, rfl⟩
      · exact ⟨_, _, _, rfl⟩

/-! ## The handler table -/

/-- The table holds the destructor and the registered callables, and each thunk the index of its own, as far as it goes
into 32 bits. -/
structure Registered (s : System T σ) : Prop where
  handlers : s.handlers = .destructor :: s.thunks.map fun thunk => .op thunk.callable
  opcodes : ∀ k thunk, s.thunks[k]? = some thunk → thunk.opcode = UInt32.ofNat (k + 1)

omit [DecidableEq T] in
theorem registered_fresh (server : σ) : Registered (System.fresh server : System T σ) :=
  ⟨rfl, fun k thunk h => by simp [System.fresh] at h⟩

omit [DecidableEq T] in
theorem Registered.registerOp (h : Registered s) (callable : Callable σ) : Registered (s.registerOp callable) := by
  have hlen : s.handlers.length = s.thunks.length + 1 := by
    rw [h.handlers, List.length_cons, List.length_map]
  refine ⟨?_, fun k thunk hk => ?_⟩
  · simp [System.registerOp, h.handlers]
  · simp only [System.registerOp, List.getElem?_append] at hk
    split at hk
    · exact h.opcodes k thunk hk
    · rename_i hge
      have hidx : k - s.thunks.length = 0 := by
        by_contra hne
        rw [List.getElem?_eq_none (by simp only [List.length_singleton]; omega)] at hk
        cases hk
      rw [hidx] at hk
      obtain rfl := Option.some.inj hk
      rw [hlen, show k = s.thunks.length by omega]

theorem Registered.step (h : Registered s) (hs : Step s a s') : Registered s' := by
  cases hs with
  | register callable => exact h.registerOp callable
  | @dispatch buffer hloop =>
      obtain ⟨server, loop, invoked, heq⟩ := dispatch_frame s buffer
      rw [heq]
      exact ⟨h.handlers, h.opcodes⟩
  | _ => exact ⟨h.handlers, h.opcodes⟩

omit [DecidableEq T] in
/-- As long as the table is no longer than the opcodes reach, a thunk finds the callable it was made for. -/
theorem Registered.lookup (h : Registered s) (hfit : s.handlers.length ≤ 2 ^ 32) {thunk : Thunk σ}
    (hmem : thunk ∈ s.thunks) :
    s.handlers[thunk.opcode.toNat]? = some (.op thunk.callable) ∧ thunk.opcode ≠ 0 := by
  obtain ⟨k, hk⟩ := List.mem_iff_getElem?.mp hmem
  have hlt : k < s.thunks.length := (List.getElem?_eq_some_iff.mp hk).1
  have hop := h.opcodes k thunk hk
  have hnat : thunk.opcode.toNat = k + 1 := by
    rw [h.handlers, List.length_cons, List.length_map] at hfit
    rw [hop, UInt32.toNat_ofNat_of_lt']
    change k + 1 < 2 ^ 32
    omega
  refine ⟨?_, fun hzero => ?_⟩
  · rw [hnat, h.handlers, List.getElem?_cons_succ, List.getElem?_map, hk]
    rfl
  · rw [hzero] at hnat
    cases hnat

/-- The table only grows. -/
theorem Step.handlers_le (hs : Step s a s') : s.handlers.length ≤ s'.handlers.length := by
  cases hs with
  | register callable =>
      simp only [System.registerOp, List.length_append]
      omega
  | @dispatch buffer hloop =>
      obtain ⟨server, loop, invoked, heq⟩ := dispatch_frame s buffer
      exact Nat.le_of_eq (congrArg (fun t => t.handlers.length) heq).symm
  | _ => exact Nat.le_refl _

/-! ## The holder of `message_serialiser` -/

/-- The thread is between `lock` and `unlock`. -/
def Pc.inside : Pc T σ → Bool
  | .idle | .calling _ => false
  | .locked _ | .waiting _ _ | .returning _ _ => true

def Serialised (s : System T σ) : Prop := ∀ t, (s.threads t).inside = true ↔ s.messageSerialiser = some t

omit [DecidableEq T] in
theorem serialised_fresh (server : σ) : Serialised (System.fresh server : System T σ) :=
  fun t => by simp [System.fresh, Pc.inside]

theorem Serialised.goto (h : Serialised s) {t : T} {pc : Pc T σ} (hin : pc.inside = (s.threads t).inside) :
    Serialised (s.goto t pc) := by
  unfold Serialised System.goto
  rw [Function.forall_update_iff s.threads fun u pc => pc.inside = true ↔ s.messageSerialiser = some u]
  exact ⟨hin ▸ h t, fun u _ => h u⟩

theorem Serialised.step (h : Serialised s) (hs : Step s a s') : Serialised s' := by
  cases hs with
  | register callable => exact h
  | @call c k hpc hthunk => exact h.goto (s := s) (by rw [hpc]; rfl)
  | @lock t c hpc hfree =>
      refine (Function.forall_update_iff s.threads fun u pc => pc.inside = true ↔ some t = some u).mpr
        ⟨by simp [Pc.inside], fun u hu => ?_⟩
      have hout := h u
      rw [hfree] at hout
      simp only [hout, reduceCtorEq, Option.some.injEq, false_iff]
      exact fun ht => hu ht.symm
  | @send t c hpc => exact h.goto (s := s) (by rw [hpc]; rfl)
  | @sendFails t c short hpc => exact h.goto (by rw [hpc]; rfl)
  | @recv t c request reply toClient hpc hpop => exact h.goto (s := s) (by rw [hpc]; rfl)
  | @recvFails t c request hpc => exact h.goto (by rw [hpc]; rfl)
  | @unlock t c outcome hpc =>
      have hholds : s.messageSerialiser = some t := (h t).mp (by rw [hpc]; rfl)
      refine (Function.forall_update_iff s.threads fun u pc => pc.inside = true ↔ none = some u).mpr
        ⟨by simp [Pc.inside], fun u hu => ?_⟩
      have hout := h u
      rw [hholds] at hout
      simp only [hout, Option.some.injEq, reduceCtorEq, iff_false]
      exact fun ht => hu ht.symm
  | loopRecv | sendReply => exact h
  | @dispatch buffer hloop =>
      obtain ⟨server, loop, invoked, heq⟩ := dispatch_frame s buffer
      rw [heq]
      exact h

/-- Where the holder of `message_serialiser` is. -/
def System.holderPc (s : System T σ) : Pc T σ :=
  match s.messageSerialiser with
  | some t => s.threads t
  | none => .idle

omit [DecidableEq T] in
theorem Serialised.holderPc_eq (h : Serialised s) {t : T} (ht : (s.threads t).inside = true) :
    s.holderPc = s.threads t := by
  unfold System.holderPc
  rw [(h t).mp ht]

theorem Serialised.holderPc_goto (h : Serialised s) {t : T} (ht : (s.threads t).inside = true) (pc : Pc T σ) :
    (s.goto t pc).holderPc = pc := by
  unfold System.holderPc System.goto
  simp only [(h t).mp ht, Function.update_self]

theorem Serialised.holderPc_goto_outside (h : Serialised s) {t : T} (ht : (s.threads t).inside = false) (pc : Pc T σ) :
    (s.goto t pc).holderPc = s.holderPc := by
  unfold System.holderPc System.goto
  cases hholder : s.messageSerialiser with
  | none => rfl
  | some u =>
      have hu : u ≠ t := by
        rintro rfl
        rw [(h u).mpr hholder] at ht
        cases ht
      simp only [Function.update_of_ne hu]

omit [DecidableEq T] in
theorem holderPc_free (h : s.messageSerialiser = none) : s.holderPc = .idle := by
  unfold System.holderPc
  rw [h]

/-! ## The logs of calls -/

/-- The call that a thread is making. -/
def Pc.call? : Pc T σ → Option (Call T σ)
  | .idle => none
  | .calling c | .locked c | .waiting c _ | .returning c _ => some c

/-- The call for which a thread is about to lock `message_serialiser`. -/
def Pc.calling? : Pc T σ → Option (Call T σ)
  | .calling c => some c
  | _ => none

def callsOf (t : T) (cs : List (Call T σ)) : List (Call T σ) := cs.filter (·.caller = t)

structure Booked (s : System T σ) : Prop where
  caller : ∀ t c, (s.threads t).call? = some c → c.caller = t ∧ c.thunk ∈ s.thunks
  requested : ∀ c ∈ s.requested, c.thunk ∈ s.thunks
  called : ∀ t, callsOf t s.called = callsOf t s.acquired ++ (s.threads t).calling?.toList

theorem booked_fresh (server : σ) : Booked (System.fresh server : System T σ) :=
  ⟨fun _ _ h => (by cases h), fun _ h => (by cases h), fun _ => rfl⟩

theorem callsOf_concat (t : T) (cs : List (Call T σ)) (c : Call T σ) :
    callsOf t (cs ++ [c]) = if c.caller = t then callsOf t cs ++ [c] else callsOf t cs := by
  unfold callsOf
  rw [List.filter_append]
  split <;> simp [*]

/-- A thread that goes on with its call leaves the books as they are. -/
theorem Booked.goto (h : Booked s) {t : T} {pc : Pc T σ} (hcall : ∀ c, pc.call? = some c → (s.threads t).call? = some c)
    (hpc : pc.calling? = none) (hold : (s.threads t).calling? = none) : Booked (s.goto t pc) := by
  refine ⟨?_, h.requested, ?_⟩
  · unfold System.goto
    rw [Function.forall_update_iff s.threads fun u pc => ∀ c, pc.call? = some c → c.caller = u ∧ c.thunk ∈ s.thunks]
    exact ⟨fun c hc => h.caller t c (hcall c hc), fun u _ => h.caller u⟩
  · unfold System.goto
    rw [Function.forall_update_iff s.threads fun u pc =>
      callsOf u s.called = callsOf u s.acquired ++ pc.calling?.toList]
    exact ⟨by rw [h.called t, hold, hpc], fun u _ => h.called u⟩

theorem Booked.step (h : Booked s) (hs : Step s a s') : Booked s' := by
  cases hs with
  | register callable =>
      exact ⟨fun t c hc => ⟨(h.caller t c hc).1, List.mem_append_left _ (h.caller t c hc).2⟩,
        fun c hc => List.mem_append_left _ (h.requested c hc), h.called⟩
  | @call c k hpc hthunk =>
      refine ⟨?_, h.requested, ?_⟩
      · refine (Function.forall_update_iff s.threads fun u pc =>
          ∀ c, pc.call? = some c → c.caller = u ∧ c.thunk ∈ s.thunks).mpr ⟨?_, fun u _ => h.caller u⟩
        intro d hd
        obtain rfl := Option.some.inj hd
        exact ⟨rfl, List.mem_of_getElem? hthunk⟩
      · refine (Function.forall_update_iff s.threads fun u pc =>
          callsOf u (s.called ++ [c]) = callsOf u s.acquired ++ pc.calling?.toList).mpr ⟨?_, fun u hu => ?_⟩
        · rw [callsOf_concat, if_pos rfl, h.called, hpc]
          simp [Pc.calling?]
        · rw [callsOf_concat, if_neg fun he => hu he.symm]
          exact h.called u
  | @lock t c hpc hfree =>
      have hcaller := (h.caller t c (by rw [hpc]; rfl)).1
      refine ⟨?_, h.requested, ?_⟩
      · refine (Function.forall_update_iff s.threads fun u pc =>
          ∀ c, pc.call? = some c → c.caller = u ∧ c.thunk ∈ s.thunks).mpr ⟨?_, fun u _ => h.caller u⟩
        exact fun d hd => h.caller t d (by rw [hpc]; exact hd)
      · refine (Function.forall_update_iff s.threads fun u pc =>
          callsOf u s.called = callsOf u (s.acquired ++ [c]) ++ pc.calling?.toList).mpr ⟨?_, fun u hu => ?_⟩
        · rw [callsOf_concat, if_pos hcaller, h.called, hpc]
          simp [Pc.calling?]
        · rw [callsOf_concat, if_neg fun he => hu (he.symm.trans hcaller)]
          exact h.called u
  | @send t c hpc =>
      have hb : Booked (s.goto t (.waiting c s.requested.length)) :=
        h.goto (by rw [hpc]; exact fun _ hd => hd) rfl (by rw [hpc]; rfl)
      refine ⟨hb.caller, fun d hd => ?_, hb.called⟩
      rcases List.mem_append.mp hd with hd | hd
      · exact h.requested d hd
      · rw [List.mem_singleton.mp hd]
        exact (h.caller t c (by rw [hpc]; rfl)).2
  | @sendFails t c short hpc => exact h.goto (by rw [hpc]; exact fun _ hd => hd) rfl (by rw [hpc]; rfl)
  | @recv t c request reply toClient hpc hpop =>
      have hb : Booked (s.goto t (.returning c (waitForReply c.thunk.callable reply))) :=
        h.goto (by rw [hpc]; exact fun _ hd => hd) rfl (by rw [hpc]; rfl)
      exact ⟨hb.caller, hb.requested, hb.called⟩
  | @recvFails t c request hpc => exact h.goto (by rw [hpc]; exact fun _ hd => hd) rfl (by rw [hpc]; rfl)
  | @unlock t c outcome hpc =>
      have hb : Booked (s.goto t .idle) := h.goto (fun _ hd => (by cases hd)) rfl (by rw [hpc]; rfl)
      exact ⟨hb.caller, hb.requested, hb.called⟩
  | loopRecv | sendReply => exact ⟨h.caller, h.requested, h.called⟩
  | @dispatch buffer hloop =>
      obtain ⟨server, loop, invoked, heq⟩ := dispatch_frame s buffer
      rw [heq]
      exact ⟨h.caller, h.requested, h.called⟩

end Wlcs.ThreadProxy
