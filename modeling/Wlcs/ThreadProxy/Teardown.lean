import Wlcs.ThreadProxy.Steps

/-!
# The end of a `ThreadProxy`

The destructor sends a message that tells the loop to remove the event source, and closes both ends of the socket without
waiting for it. The thunks keep the proxy alive, so no client is in one of them by then; the loop may be anywhere, and
its thread may have ended.

`teardown_clean_iff` says when the source has been removed by the time the descriptors are closed. A server joins its
thread before it lets go of the proxy, and then nobody removes the source.
-/

namespace Wlcs.ThreadProxy
open EventMachine

variable {T : Type} {σ : Type}

/-! ## The destructor and the loop -/

/-- Where the destructor is. -/
inductive Phase
  | alive
  /-- the message is sent -/
  | posted
  /-- `fds[0]` is closed -/
  | waylandClosed
  /-- `fds[1]` is closed, and the destructor returns -/
  | finished
  /-- the message could not be sent; an exception that leaves a destructor ends the process -/
  | terminated
deriving DecidableEq, Repr

def Phase.closed : Phase → Bool
  | .waylandClosed | .finished => true
  | _ => false

structure Teardown (T σ : Type) where
  sys : System T σ
  /-- the thread of the loop has ended -/
  ended : Bool
  phase : Phase := .alive
  /-- how often the loop has called `wl_event_source_remove` -/
  removals : Nat

inductive TeardownAction
  | post
  | postFails
  | closeWayland
  | closeClient
  | loopRecv
  /-- a `recv` on the closed descriptor; `socket_readable` does not look at its result -/
  | staleRecv (buffer : Bytes)
  | dispatch
  | sendReply
  | threadEnds
deriving DecidableEq, Repr

def Loop.removals : Loop → Nat
  | .removed => 1
  | _ => 0

/-- The proxy when its destructor is called. -/
def Teardown.start (s : System T σ) (ended : Bool) : Teardown T σ where
  sys := s
  ended := ended
  removals := s.loop.removals

section Steps
variable [DecidableEq T]

/-- The loop goes on as long as its thread and the process do. -/
def Teardown.loopStep (u : Teardown T σ) (a : Action T σ) : Option (Teardown T σ) :=
  if u.ended ∨ u.phase = .terminated then none
  else (u.sys.step a).map fun s => { u with sys := s }

def Teardown.step (u : Teardown T σ) : TeardownAction → Option (Teardown T σ)
  | .post =>
    if u.phase = .alive then
      some { u with phase := .posted, sys := { u.sys with toWayland := u.sys.toWayland.push (message 0 []) } }
    else none
  | .postFails => if u.phase = .alive then some { u with phase := .terminated } else none
  | .closeWayland => if u.phase = .posted then some { u with phase := .waylandClosed } else none
  | .closeClient => if u.phase = .waylandClosed then some { u with phase := .finished } else none
  | .loopRecv => if u.phase.closed then none else u.loopStep .loopRecv
  | .staleRecv buffer =>
    match u.sys.loop with
    | .idle =>
      if u.phase.closed = true ∧ u.ended = false then some { u with sys := { u.sys with loop := .dispatching buffer } }
      else none
    | _ => none
  | .dispatch => (u.loopStep .dispatch).map fun u => { u with removals := u.removals + u.sys.loop.removals }
  | .sendReply => u.loopStep .sendReply
  | .threadEnds =>
    match u.sys.loop with
    | .idle | .removed => if u.ended then none else some { u with ended := true }
    | _ => none

def teardown : Guarded (Teardown T σ) TeardownAction where
  step := Teardown.step

end Steps

/-! ## What the loop has read -/

/-- `socket_readable` has received a message that it has not dispatched. -/
def Loop.busy : Loop → Nat
  | .dispatching _ => 1
  | _ => 0

/-- The messages that the loop has received and dispatched. -/
def System.dispatched (s : System T σ) : List Bytes := s.toWayland.sent.take (s.toWayland.taken - s.loop.busy)

/-- The loop has dispatched a message with the opcode of the destructor. -/
def Retired (s : System T σ) : Prop :=
  ∃ m ∈ s.dispatched, ∃ data, readOpcode (m.take maxMessageSize) = some (0, data)

structure Reading (s : System T σ) : Prop where
  registered : Registered s
  /-- what is being dispatched was sent -/
  received : ∀ buffer, s.loop = .dispatching buffer →
    ∃ m n, s.toWayland.taken = n + 1 ∧ s.toWayland.sent[n]? = some m ∧ buffer = m.take maxMessageSize
  removed_iff : s.loop = .removed ↔ Retired s

theorem reading_fresh (server : σ) : Reading (System.fresh server : System T σ) where
  registered := registered_fresh server
  received buffer h := by cases h
  removed_iff := by
    refine iff_of_false (fun h => by cases h) ?_
    rintro ⟨m, hm, -⟩
    simp [System.dispatched, System.fresh] at hm

/-- The message at hand joins those that are dispatched. -/
theorem dispatched_of_idle {s s' : System T σ} {m : Bytes} {n : Nat} {buffer : Bytes}
    (hloop : s.loop = .dispatching buffer) (hidle : s'.loop.busy = 0) (hqueue : s'.toWayland = s.toWayland)
    (htaken : s.toWayland.taken = n + 1) (hm : s.toWayland.sent[n]? = some m) : s'.dispatched = s.dispatched ++ [m] := by
  unfold System.dispatched
  rw [hqueue, hidle, hloop, htaken, Nat.sub_zero, List.take_add_one, hm]
  rfl

/-- Only the first handler removes the source. -/
theorem Registered.getElem?_eq_destructor {s : System T σ} (h : Registered s) (opcode : UInt32) :
    s.handlers[opcode.toNat]? = some .destructor ↔ opcode = 0 := by
  rw [h.handlers]
  constructor
  · intro hop
    cases hn : opcode.toNat with
    | zero => exact UInt32.toNat_inj.mp hn
    | succ n =>
        rw [hn, List.getElem?_cons_succ, List.getElem?_map] at hop
        obtain ⟨thunk, -, hthunk⟩ := Option.map_eq_some_iff.mp hop
        cases hthunk
  · rintro rfl
    rfl

/-- A dispatch removes the source exactly when the message has opcode 0. -/
theorem removed_dispatch {s : System T σ} (h : Registered s) (buffer : Bytes) :
    ((s.dispatch buffer).loop = .removed ↔ ∃ data, readOpcode buffer = some (0, data)) ∧
      (s.dispatch buffer).loop.busy = 0 := by
  unfold System.dispatch
  cases hop : readOpcode buffer with
  | none => simp [Loop.busy]
  | some message =>
      obtain ⟨opcode, data⟩ := message
      have hzero := h.getElem?_eq_destructor opcode
      simp only [Option.some.injEq, Prod.mk.injEq, exists_eq_right']
      rw [← hzero]
      cases hhandler : s.handlers[opcode.toNat]? with
      | none => simp [Loop.busy]
      | some handler =>
          cases handler with
          | destructor => simp [Loop.busy]
          | op callable =>
              simp only
              split
              · simp [Loop.busy]
              · simp [Loop.busy]

section Run
variable {s s' : System T σ}

theorem Reading.not_retired (h : Reading s) (hloop : s.loop ≠ .removed) : ¬ Retired s := fun hretired =>
  hloop (h.removed_iff.mpr hretired)

/-- More messages may be sent while the loop does nothing. -/
theorem Reading.extend (h : Reading s) (hregistered : Registered s') (hloop : s'.loop = s.loop)
    (htaken : s'.toWayland.taken = s.toWayland.taken) (hsent : s.toWayland.sent <+: s'.toWayland.sent) : Reading s' := by
  have hdispatched : s'.dispatched = s.dispatched := by
    obtain ⟨rest, hrest⟩ := hsent
    have hle := s.toWayland.taken_le
    unfold System.dispatched
    rw [hloop, htaken, ← hrest, List.take_append_of_le_length (by omega)]
  refine ⟨hregistered, fun buffer hbuffer => ?_, ?_⟩
  · obtain ⟨m, n, hn, hm, hbuf⟩ := h.received buffer (hloop ▸ hbuffer)
    refine ⟨m, n, htaken.trans hn, ?_, hbuf⟩
    obtain ⟨rest, hrest⟩ := hsent
    rw [← hrest, List.getElem?_append_left (List.getElem?_eq_some_iff.mp hm).1]
    exact hm
  · unfold Retired
    rw [hloop, hdispatched]
    exact h.removed_iff

theorem Reading.dispatch (h : Reading s) {buffer : Bytes} (hloop : s.loop = .dispatching buffer) :
    Reading (s.dispatch buffer) := by
  obtain ⟨m, n, htaken, hm, hbuffer⟩ := h.received buffer hloop
  obtain ⟨hremoved, hidle⟩ := removed_dispatch h.registered buffer
  obtain ⟨server, loop, invoked, hframe⟩ := dispatch_frame s buffer
  have hdispatched : (s.dispatch buffer).dispatched = s.dispatched ++ [m] :=
    dispatched_of_idle hloop hidle (by rw [hframe]) htaken hm
  have hnot : ¬ Retired s := h.not_retired (by rw [hloop]; exact fun heq => by cases heq)
  refine ⟨?_, fun b hb => ?_, ?_⟩
  · rw [hframe]
    exact ⟨h.registered.handlers, h.registered.opcodes⟩
  · rw [hb] at hidle
    cases hidle
  · unfold Retired
    rw [hdispatched, hremoved, hbuffer]
    constructor
    · intro hzero
      exact ⟨m, List.mem_append_right _ (List.mem_singleton_self m), hzero⟩
    · rintro ⟨m', hm', hzero⟩
      rcases List.mem_append.mp hm' with hm' | hm'
      · exact absurd ⟨m', hm', hzero⟩ hnot
      · rw [List.mem_singleton.mp hm'] at hzero
        exact hzero

variable [DecidableEq T] {a : Action T σ}

theorem Reading.step (h : Reading s) (hs : Step s a s') : Reading s' := by
  have hregistered := h.registered.step hs
  cases hs with
  | send hpc => exact h.extend hregistered rfl rfl (List.prefix_append _ _)
  | @loopRecv request toWayland hloop hpop =>
      obtain ⟨hget, hsent, htaken⟩ := Fifo.pop_eq_some.mp hpop
      refine ⟨hregistered, fun buffer hbuffer => ?_, ?_⟩
      · obtain rfl := Loop.dispatching.inj hbuffer
        exact ⟨request, s.toWayland.taken, htaken, by rw [hsent]; exact hget, rfl⟩
      · have hnot : ¬ Retired s := h.not_retired (by rw [hloop]; exact fun heq => by cases heq)
        refine iff_of_false (fun heq => by cases heq) ?_
        unfold Retired System.dispatched at hnot ⊢
        rw [hloop] at hnot
        simpa [Loop.busy, hsent, htaken] using hnot
  | dispatch hloop => exact h.dispatch hloop
  | sendReply hloop =>
      refine ⟨hregistered, fun buffer hbuffer => (by cases hbuffer), ?_⟩
      have hnot : ¬ Retired s := h.not_retired (by rw [hloop]; exact fun heq => by cases heq)
      refine iff_of_false (fun heq => by cases heq) ?_
      unfold Retired System.dispatched at hnot ⊢
      rw [hloop] at hnot
      exact hnot
  | _ => exact h.extend hregistered rfl rfl (List.prefix_refl _)

theorem run_reading {server : σ} {as : List (Action T σ)} (h : proxy.exec (System.fresh server) as = some s) :
    Reading s :=
  proxy.exec_induction (P := fun _ s => Reading s) (reading_fresh server)
    (fun _ _ _ _ _ hu ht => hu.step (step_inv ht)) as s h

end Run

/-! ## Teardown -/

section Clean
variable [DecidableEq T]

/-- Once a descriptor is closed the source has been removed, exactly once; no handler runs when the destructor has
returned, and what is dispatched has been sent. -/
def CleanTeardown (s : System T σ) (ended : Bool) (as : List TeardownAction) : Prop :=
  (∀ pre u, pre <+: as → teardown.exec (Teardown.start s ended) pre = some u → u.phase.closed = true → u.removals = 1) ∧
    ∀ pre u, pre ++ [.dispatch] <+: as → teardown.exec (Teardown.start s ended) pre = some u →
      u.phase ≠ .finished ∧ ∀ buffer, u.sys.loop = .dispatching buffer →
        ∃ m ∈ u.sys.toWayland.sent, buffer = m.take maxMessageSize

/-- `fds[0]` is closed only after the loop has dispatched the message of the destructor. -/
def ClosesRetired (u : Teardown T σ) (a : TeardownAction) : Prop := a = .closeWayland → Retired u.sys

/-- What a step of the teardown does to the proxy. -/
inductive TeardownStep (u : Teardown T σ) : TeardownAction → Teardown T σ → Prop
  | post (hphase : u.phase = .alive) : TeardownStep u .post
      { u with phase := .posted, sys := { u.sys with toWayland := u.sys.toWayland.push (message 0 []) } }
  | postFails (hphase : u.phase = .alive) : TeardownStep u .postFails { u with phase := .terminated }
  | closeWayland (hphase : u.phase = .posted) : TeardownStep u .closeWayland { u with phase := .waylandClosed }
  | closeClient (hphase : u.phase = .waylandClosed) : TeardownStep u .closeClient { u with phase := .finished }
  | loopRecv {s : System T σ} (hended : u.ended = false) (hphase : u.phase.closed = false)
      (hstep : Step u.sys .loopRecv s) : TeardownStep u .loopRecv { u with sys := s }
  | staleRecv {buffer : Bytes} (hended : u.ended = false) (hphase : u.phase.closed = true) (hloop : u.sys.loop = .idle) :
      TeardownStep u (.staleRecv buffer) { u with sys := { u.sys with loop := .dispatching buffer } }
  | dispatch {buffer : Bytes} (hended : u.ended = false) (hloop : u.sys.loop = .dispatching buffer) :
      TeardownStep u .dispatch
        { u with sys := u.sys.dispatch buffer, removals := u.removals + (u.sys.dispatch buffer).loop.removals }
  | sendReply {s : System T σ} (hended : u.ended = false) (hstep : Step u.sys .sendReply s) :
      TeardownStep u .sendReply { u with sys := s }
  | threadEnds : TeardownStep u .threadEnds { u with ended := true }

theorem loopStep_inv {u v : Teardown T σ} {a : Action T σ} (h : u.loopStep a = some v) :
    u.ended = false ∧ ∃ s, Step u.sys a s ∧ v = { u with sys := s } := by
  unfold Teardown.loopStep at h
  split at h
  · cases h
  · rename_i hrunning
    obtain ⟨s, hs, rfl⟩ := Option.map_eq_some_iff.mp h
    rw [not_or, Bool.not_eq_true] at hrunning
    exact ⟨hrunning.1, s, step_inv hs, rfl⟩

theorem teardownStep_inv {u v : Teardown T σ} {a : TeardownAction} (h : teardown.step u a = some v) :
    TeardownStep u a v := by
  change u.step a = some v at h
  cases a with
  | post =>
      simp only [Teardown.step] at h
      split at h
      · rename_i hphase
        obtain rfl := Option.some.inj h
        exact .post hphase
      · cases h
  | postFails =>
      simp only [Teardown.step] at h
      split at h
      · rename_i hphase
        obtain rfl := Option.some.inj h
        exact .postFails hphase
      · cases h
  | closeWayland =>
      simp only [Teardown.step] at h
      split at h
      · rename_i hphase
        obtain rfl := Option.some.inj h
        exact .closeWayland hphase
      · cases h
  | closeClient =>
      simp only [Teardown.step] at h
      split at h
      · rename_i hphase
        obtain rfl := Option.some.inj h
        exact .closeClient hphase
      · cases h
  | loopRecv =>
      simp only [Teardown.step] at h
      split at h
      · cases h
      · rename_i hphase
        obtain ⟨hended, s, hs, rfl⟩ := loopStep_inv h
        exact .loopRecv hended (Bool.eq_false_iff.mpr hphase) hs
  | staleRecv buffer =>
      simp only [Teardown.step] at h
      split at h
      · rename_i hloop
        split at h
        · rename_i hclosed
          obtain rfl := Option.some.inj h
          exact .staleRecv hclosed.2 hclosed.1 hloop
        · cases h
      · cases h
  | dispatch =>
      simp only [Teardown.step] at h
      obtain ⟨v', hv, rfl⟩ := Option.map_eq_some_iff.mp h
      obtain ⟨hended, s, hs, rfl⟩ := loopStep_inv hv
      cases hs with
      | dispatch hloop => exact .dispatch hended hloop
  | sendReply =>
      obtain ⟨hended, s, hs, rfl⟩ := loopStep_inv h
      exact .sendReply hended hs
  | threadEnds =>
      simp only [Teardown.step] at h
      split at h
      · split at h
        · cases h
        · obtain rfl := Option.some.inj h
          exact .threadEnds
      · split at h
        · cases h
        · obtain rfl := Option.some.inj h
          exact .threadEnds
      · cases h

structure TeardownInv (u : Teardown T σ) : Prop where
  reading : u.phase.closed = false → Reading u.sys
  removals_eq : u.removals = u.sys.loop.removals

theorem TeardownInv.step {u v : Teardown T σ} {a : TeardownAction} (h : TeardownInv u) (hs : TeardownStep u a v) :
    TeardownInv v := by
  obtain ⟨hreading, hremovals⟩ := h
  cases hs with
  | post hphase =>
      have hopen : Reading u.sys := hreading (by rw [hphase]; rfl)
      have hregistered := hopen.registered
      refine ⟨fun _ => ?_, hremovals⟩
      exact hopen.extend ⟨hregistered.handlers, hregistered.opcodes⟩ rfl rfl (List.prefix_append _ _)
  | postFails hphase => exact ⟨fun _ => hreading (by rw [hphase]; rfl), hremovals⟩
  | closeWayland hphase => exact ⟨fun hclosed => (by cases hclosed), hremovals⟩
  | closeClient hphase => exact ⟨fun hclosed => (by cases hclosed), hremovals⟩
  | loopRecv hended hphase hstep =>
      refine ⟨fun hclosed => (hreading hclosed).step hstep, ?_⟩
      cases hstep with
      | loopRecv hloop hpop =>
          rw [hloop] at hremovals
          exact hremovals
  | staleRecv hended hphase hloop =>
      refine ⟨fun hclosed => ?_, ?_⟩
      · rw [hphase] at hclosed
        cases hclosed
      · rw [hloop] at hremovals
        exact hremovals
  | dispatch hended hloop =>
      refine ⟨fun hclosed => (hreading hclosed).dispatch hloop, ?_⟩
      rw [hremovals, hloop]
      exact Nat.zero_add _
  | sendReply hended hstep =>
      refine ⟨fun hclosed => (hreading hclosed).step hstep, ?_⟩
      cases hstep with
      | sendReply hloop =>
          rw [hloop] at hremovals
          exact hremovals
  | threadEnds => exact ⟨hreading, hremovals⟩

theorem run_teardownInv {s : System T σ} (h : Reading s) {ended : Bool} {as : List TeardownAction} {u : Teardown T σ}
    (hrun : teardown.exec (Teardown.start s ended) as = some u) : TeardownInv u :=
  teardown.exec_induction (P := fun _ u => TeardownInv u) ⟨fun _ => h, rfl⟩
    (fun _ _ _ _ _ hu ht => hu.step (teardownStep_inv ht)) as u hrun

/-- A source that was removed in time stays removed. -/
theorem removed_step {u v : Teardown T σ} {a : TeardownAction} (hinv : TeardownInv u)
    (h : u.phase.closed = true → u.sys.loop = .removed) (ha : ClosesRetired u a) (hs : TeardownStep u a v) :
    v.phase.closed = true → v.sys.loop = .removed := by
  intro hclosed
  cases hs with
  | post hphase => cases hclosed
  | postFails hphase => cases hclosed
  | closeWayland hphase => exact (hinv.reading (by rw [hphase]; rfl)).removed_iff.mpr (ha rfl)
  | closeClient hphase => exact h (by rw [hphase]; rfl)
  | loopRecv hended hphase hstep =>
      rw [hphase] at hclosed
      cases hclosed
  | staleRecv hended hphase hloop =>
      have hremoved := h hphase
      rw [hloop] at hremoved
      cases hremoved
  | dispatch hended hloop =>
      have hremoved := h hclosed
      rw [hloop] at hremoved
      cases hremoved
  | sendReply hended hstep =>
      have hremoved := h hclosed
      cases hstep with
      | sendReply hloop =>
          rw [hloop] at hremoved
          cases hremoved
  | threadEnds => exact h hclosed

theorem run_removed {s : System T σ} (h : Reading s) {ended : Bool} {as : List TeardownAction} {u : Teardown T σ}
    (hretired : teardown.Along ClosesRetired (Teardown.start s ended) as)
    (hrun : teardown.exec (Teardown.start s ended) as = some u) : u.phase.closed = true → u.sys.loop = .removed := by
  refine teardown.exec_induction (P := fun as u => teardown.Along ClosesRetired (Teardown.start s ended) as →
    (u.phase.closed = true → u.sys.loop = .removed)) (fun _ hclosed => by cases hclosed) ?_ as u hrun hretired
  intro as u a v hu ih hv halong
  obtain ⟨has, ha⟩ := teardown.along_concat.mp halong
  exact removed_step (run_teardownInv h hu) (ih has) (ha u hu) (teardownStep_inv hv)

/-- Nothing moves the loop once its thread has ended. -/
theorem loop_of_ended {s : System T σ} {as : List TeardownAction} {u : Teardown T σ}
    (hrun : teardown.exec (Teardown.start s true) as = some u) : u.ended = true ∧ u.sys.loop = s.loop := by
  refine teardown.exec_induction (P := fun _ u => u.ended = true ∧ u.sys.loop = s.loop) ⟨rfl, rfl⟩ ?_ as u hrun
  rintro as u a v - ⟨hended, hloop⟩ hv
  cases teardownStep_inv hv with
  | loopRecv hrunning hphase hstep => simp [hended] at hrunning
  | staleRecv hrunning hphase hidle => simp [hended] at hrunning
  | dispatch hrunning hbusy => simp [hended] at hrunning
  | sendReply hrunning hstep => simp [hended] at hrunning
  | threadEnds => exact ⟨rfl, hloop⟩
  | _ => exact ⟨hended, hloop⟩

omit [DecidableEq T] in
theorem TeardownInv.removed_iff {u : Teardown T σ} (h : TeardownInv u) : u.removals = 1 ↔ u.sys.loop = .removed := by
  rw [h.removals_eq]
  cases u.sys.loop with
  | removed => exact iff_of_true rfl rfl
  | _ => exact iff_of_false (fun heq => by cases heq) (fun heq => by cases heq)

theorem cleanTeardown_iff {s : System T σ} (h : Reading s) {ended : Bool} {as : List TeardownAction} {u : Teardown T σ}
    (hrun : teardown.exec (Teardown.start s ended) as = some u) :
    CleanTeardown s ended as ↔ teardown.Along ClosesRetired (Teardown.start s ended) as := by
  constructor
  · rintro ⟨hremoved, -⟩ pre a v hpre hv rfl
    obtain ⟨w, hstep, hw⟩ := teardown.exec_next hrun hpre hv
    have hinv := run_teardownInv h hv
    cases teardownStep_inv hstep with
    | closeWayland hphase =>
        have hone := hremoved _ _ hpre hw rfl
        exact (hinv.reading (by rw [hphase]; rfl)).removed_iff.mp (hinv.removed_iff.mp hone)
  · intro hretired
    constructor
    · intro pre v hpre hv hclosed
      exact (run_teardownInv h hv).removed_iff.mpr (run_removed h (hretired.restrict hpre) hv hclosed)
    · intro pre v hpre hv
      obtain ⟨w, hstep, -⟩ := teardown.exec_next hrun hpre hv
      cases teardownStep_inv hstep with
      | dispatch hended hloop =>
          -- the loop is not done with the source, so nothing has been closed
          have hopen : v.phase.closed = false := by
            by_contra hclosed
            have hremoved := run_removed h (hretired.restrict ((List.prefix_append _ _).trans hpre)) hv
              ((Bool.not_eq_false _).mp hclosed)
            rw [hloop] at hremoved
            cases hremoved
          refine ⟨fun hphase => ?_, fun buffer hbuffer => ?_⟩
          · rw [hphase] at hopen
            cases hopen
          · obtain ⟨m, n, -, hm, hbuf⟩ := ((run_teardownInv h hv).reading hopen).received buffer hbuffer
            exact ⟨m, List.mem_of_getElem? hm, hbuf⟩

/-- **Teardown**: whatever has been done with the proxy before and wherever its loop is, the destructor leaves nothing
behind exactly when the loop has dispatched its message by the time `fds[0]` is closed. If the thread of the loop has
ended before the destructor, it never does. -/
theorem teardown_clean_iff (server : σ) (before : List (Action T σ)) (s : System T σ)
    (h : proxy.exec (System.fresh server) before = some s) (ended : Bool) (as : List TeardownAction) (u : Teardown T σ)
    (hrun : teardown.exec (Teardown.start s ended) as = some u) :
    (CleanTeardown s ended as ↔ teardown.Along ClosesRetired (Teardown.start s ended) as) ∧
      (ended = true → s.loop ≠ .removed → .closeWayland ∈ as → ¬ CleanTeardown s ended as) := by
  have hreading := run_reading h
  refine ⟨cleanTeardown_iff hreading hrun, ?_⟩
  rintro rfl hloop hclose hclean
  obtain ⟨pre, post, rfl⟩ := List.append_of_mem hclose
  have hpre : pre ++ [.closeWayland] <+: pre ++ .closeWayland :: post := ⟨post, by simp⟩
  obtain ⟨v, hv, -⟩ := Option.bind_eq_some_iff.mp ((teardown.exec_append _ _ _).symm.trans hrun)
  obtain ⟨w, hstep, -⟩ := teardown.exec_next hrun hpre hv
  have hretired := (cleanTeardown_iff hreading hrun).mp hclean pre .closeWayland v hpre hv rfl
  cases teardownStep_inv hstep with
  | closeWayland hphase =>
      have hremoved := ((run_teardownInv hreading hv).reading (by rw [hphase]; rfl)).removed_iff.mpr hretired
      exact hloop ((loop_of_ended hv).2.symm.trans hremoved)

end Clean

/-- The loop removes the source in time. -/
def promptTeardown : List TeardownAction := [.post, .loopRecv, .dispatch, .closeWayland, .closeClient]

theorem teardown_clean_iff_promptTeardown :
    ∃ u, teardown.exec (Teardown.start (System.fresh () : System Unit Unit) false) promptTeardown = some u ∧
      u.phase = .finished ∧ u.removals = 1 ∧
      ((CleanTeardown (System.fresh () : System Unit Unit) false promptTeardown ↔
          teardown.Along ClosesRetired (Teardown.start (System.fresh () : System Unit Unit) false) promptTeardown) ∧
        (false = true → (System.fresh () : System Unit Unit).loop ≠ .removed → .closeWayland ∈ promptTeardown →
          ¬ CleanTeardown (System.fresh () : System Unit Unit) false promptTeardown)) :=
  ⟨_, rfl, rfl, rfl, teardown_clean_iff () [] _ rfl false promptTeardown _ rfl⟩

/-- The thread of the server is joined first, and nobody removes the source. If it is not, the loop may run a handler of
the dead proxy for an opcode that nobody has sent. -/
theorem source_left_behind :
    (∃ u, teardown.exec (Teardown.start (System.fresh () : System Unit Unit) true) [.post, .closeWayland, .closeClient] =
        some u ∧ u.phase = .finished ∧ u.removals = 0 ∧
      ¬ CleanTeardown (System.fresh () : System Unit Unit) true [.post, .closeWayland, .closeClient]) ∧
    ∃ u, teardown.exec (Teardown.start (System.fresh () : System Unit Unit) false)
        [.post, .closeWayland, .closeClient, .staleRecv (message 7 [])] = some u ∧ u.phase = .finished ∧
      u.sys.loop = .dispatching (message 7 []) ∧ u.sys.toWayland.sent = [message 0 []] ∧
      (teardown.step u .dispatch).isSome := by
  refine ⟨⟨_, rfl, rfl, rfl, fun hclean => ?_⟩, _, rfl, rfl, rfl, rfl, rfl⟩
  exact absurd (hclean.1 _ _ (List.prefix_refl _) rfl rfl) (show ¬ (0 : Nat) = 1 by decide)

end Wlcs.ThreadProxy
