import Wlcs.ThreadProxy.Pipeline

/-!
# Calls after a failed receive

A thunk whose `recv` fails gives `message_serialiser` back although its request is still under way. Nothing ties the
reply to it, and the next call takes that reply for its own: from then on every call receives the reply of an earlier
one. `own_reply_iff` says that this is exactly what it takes.
-/

namespace Wlcs.ThreadProxy
open EventMachine

variable {T : Type} {σ : Type} [DecidableEq T] {s s' : System T σ} {a : Action T σ}

/-- No thread receives a reply after the receive of a thread has failed. -/
def NoRecvAfterFailure (as : List (Action T σ)) : Prop :=
  ∀ pre t, pre ++ [.recv t] <+: as → ∀ u, .recvFails u ∉ pre

def Action.isRecv : Action T σ → Bool
  | .recv _ => true
  | _ => false

omit [DecidableEq T] in
theorem failedRecvs_eq_zero {as : List (Action T σ)} : failedRecvs as = 0 ↔ ∀ u, .recvFails u ∉ as := by
  rw [failedRecvs, List.countP_eq_zero]
  constructor
  · intro h u hu
    exact h _ hu rfl
  · intro h a ha hfail
    cases a with
    | recvFails u => exact h u ha
    | _ => cases hfail

omit [DecidableEq T] in
theorem noRecvAfterFailure_concat {as : List (Action T σ)} :
    NoRecvAfterFailure (as ++ [a]) ↔ NoRecvAfterFailure as ∧ (a.isRecv = true → failedRecvs as = 0) := by
  constructor
  · intro h
    refine ⟨fun pre t hp => h pre t (hp.trans (List.prefix_append _ _)), fun ha => failedRecvs_eq_zero.mpr ?_⟩
    cases a with
    | recv t => exact h as t (List.prefix_refl _)
    | _ => cases ha
  · rintro ⟨h, ha⟩ pre t hp
    rcases History.concat_prefix_concat.mp hp with ⟨rfl, rfl⟩ | hp
    · exact failedRecvs_eq_zero.mp (ha rfl)
    · exact h pre t hp

theorem Step.answered (hs : Step s a s') (h : a.isRecv = false) : s'.answered = s.answered := by
  cases hs with
  | recv => cases h
  | @dispatch buffer hloop =>
      obtain ⟨server, loop, invoked, heq⟩ := dispatch_frame s buffer
      rw [heq]
  | _ => rfl

/-- The replies are those of the calls that took them as long as none is taken after a failed receive. -/
theorem reply_eq_request_iff {server : σ} {as : List (Action T σ)}
    (h : proxy.exec (System.fresh server) as = some s) (hfit : s.handlers.length ≤ 2 ^ 32) :
    (∀ answer ∈ s.answered, answer.reply = answer.request) ↔ NoRecvAfterFailure as := by
  refine proxy.exec_induction (P := fun as s => s.handlers.length ≤ 2 ^ 32 →
    ((∀ answer ∈ s.answered, answer.reply = answer.request) ↔ NoRecvAfterFailure as))
    (fun _ => ?_) (fun as u a t hrun ih hstep hfit => ?_) as s h hfit
  · refine ⟨fun _ pre t hp => ?_, fun _ answer hanswer => (by cases hanswer)⟩
    simpa using hp.length_le
  · have hs := step_inv hstep
    have hbefore := Nat.le_trans hs.handlers_le hfit
    rw [noRecvAfterFailure_concat, ← ih hbefore]
    cases hrecv : a.isRecv with
    | false =>
        rw [hs.answered hrecv]
        simp
    | true =>
        have hinv := run_inv hrun hbefore
        cases hs with
        | @recv t c request reply toClient hpc hpop =>
            have hholder := hinv.serialised.holderPc_eq (t := t) (by rw [hpc]; rfl)
            obtain ⟨-, -, hrequest⟩ := hinv.answering.waiting c request (hholder.trans hpc)
            have htaken := hinv.answering.taken
            simp only [List.mem_append, List.mem_singleton, or_imp, forall_and, forall_eq, forall_const]
            rw [show u.toClient.taken = request ↔ failedRecvs as = 0 by omega]
        | _ => cases hrecv

/-- **A failed call corrupts the later ones**: in a run of the proxy, in which any send or receive of a client may
fail, each call that receives a reply gets the value of its own handler exactly when no call receives one after the
receive of another has failed. -/
theorem own_reply_iff (server : σ) (as : List (Action T σ)) (s : System T σ)
    (h : proxy.exec (System.fresh server) as = some s) (hfit : s.handlers.length ≤ 2 ^ 32) :
    (∀ answer ∈ s.answered, OwnReply s answer) ↔ NoRecvAfterFailure as := by
  rw [← reply_eq_request_iff h hfit]
  refine forall₂_congr fun answer hanswer => ⟨fun hown => hown.1, fun hreply => ?_⟩
  exact (run_inv h hfit).own_reply hanswer hreply

/-! ## Runs with a stale reply -/

/-- Returns the next number, in one byte. -/
def tick : Callable Nat where
  args := []
  returns := some 1
  run := fun _ n => ([UInt8.ofNat n], n + 1)
  args_fit := noArguments_fit
  returns_fit := by simp [maxMessageSize, maxArgumentsSize, opcodeSize]
  run_size := fun _ _ => rfl

/-- Returns four bytes. -/
def peek : Callable Nat where
  args := []
  returns := some 4
  run := fun _ n => (List.replicate 4 (UInt8.ofNat n), n)
  args_fit := noArguments_fit
  returns_fit := int_fit
  run_size := fun _ _ => rfl

/-- A thread calls the thunk of the `k`-th registration and sends its request. -/
def request (k : Nat) : List (Action Unit Nat) := [.call () k [], .lock (), .send ()]

/-- The loop serves one request. -/
def serve : List (Action Unit Nat) := [.loopRecv, .dispatch, .sendReply]

def tickRun : List (Action Unit Nat) := [.register tick] ++ request 0 ++ serve ++ [.recv (), .unlock ()]

/-- The receive of a first call is interrupted. -/
def interrupted : List (Action Unit Nat) :=
  [.register tick, .register peek] ++ request 0 ++ [.recvFails (), .unlock ()]

theorem own_reply_iff_tickRun :
    ∃ s, proxy.exec (System.fresh 0) tickRun = some s ∧ s.handlers.length ≤ 2 ^ 32 ∧ s.answered.length = 1 ∧
      ((∀ answer ∈ s.answered, OwnReply s answer) ↔ NoRecvAfterFailure tickRun) :=
  ⟨_, rfl, by decide, rfl, own_reply_iff 0 tickRun _ rfl (by decide)⟩

/-- After an interrupted call a second one returns the number of the first, and another operation throws because the
reply is too short. -/
theorem stale_replies :
    (∃ s, proxy.exec (System.fresh 0) (interrupted ++ request 0 ++ serve ++ serve ++ [.recv ()]) = some s ∧
      s.handlers.length ≤ 2 ^ 32 ∧ s.invoked.map Invocation.value = [[0], [1]] ∧
      s.answered.map (fun answer => (answer.request, answer.outcome)) = [(1, .ok [0])] ∧
      ¬ ∀ answer ∈ s.answered, OwnReply s answer) ∧
    ∃ s, proxy.exec (System.fresh 0) (interrupted ++ request 1 ++ serve ++ [.recv ()]) = some s ∧
      s.handlers.length ≤ 2 ^ 32 ∧
      s.answered.map (fun answer => (answer.request, answer.outcome)) = [(1, .error .shortReply)] ∧
      ¬ ∀ answer ∈ s.answered, OwnReply s answer := by
  refine ⟨⟨_, rfl, by decide, rfl, rfl, fun h => ?_⟩, ⟨_, rfl, by decide, rfl, fun h => ?_⟩⟩
  · exact absurd (h _ (List.mem_singleton.mpr rfl)).1 (show ¬ (0 : Nat) = 1 by decide)
  · exact absurd (h _ (List.mem_singleton.mpr rfl)).1 (show ¬ (0 : Nat) = 1 by decide)

end Wlcs.ThreadProxy
