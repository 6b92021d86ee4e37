import Wlcs.ThreadProxy.Steps
import Wlcs.Server.Devices

/-!
# Where the hooks run

An integration that is started with `start_on_this_thread` is promised that all calls of its hooks come from its own main
loop. The only step of a run that breaks the promise is a touch being put down, moved or lifted: `hooks_on_loop_iff`.
-/

namespace Wlcs.Server
open ThreadProxy EventMachine

variable {T : Type} {σ : Type} {I : Integration σ} {w w' : World T σ}

/-- The method calls a function pointer where it is called. -/
def Method.direct : Method → Bool
  | .touch _ (.downAt _ _) | .touch _ (.moveTo _ _) | .touch _ .up => true
  | _ => false

def Action.direct : Action T → Bool
  | .method _ m => m.direct
  | _ => false

namespace World

theorem hookCalls_update {thread : Thread T} {s : System T (Recorded σ)} (h : s.server = w.proxy.server) :
    (w.update thread s).hookCalls = w.hookCalls := by
  unfold update
  rw [h, List.drop_length]
  exact List.append_nil _

theorem hookCalls_callHook (w : World T σ) (t : T) (hook : Hook) :
    (w.callHook I t hook).hookCalls = w.hookCalls ++ [(.client t, hook)] := by
  unfold callHook update
  simp only [Integration.invoke, List.drop_left, List.map_cons, List.map_nil]

/-! ## Steps that call no hook -/

theorem hookCalls_registerOp (w : World T σ) (t : T) (op : Callable (Recorded σ)) :
    (w.registerOp t op).2.hookCalls = w.hookCalls :=
  hookCalls_update rfl

theorem hookCalls_makePointer (w : World T σ) (t : T) (pointer : Nat) :
    (w.makePointer I t pointer).hookCalls = w.hookCalls := by
  unfold makePointer
  simp only [hookCalls_registerOp]

variable [DecidableEq T]

/-- Only a dispatched handler reaches the integration. -/
theorem server_eq_of_step {s s' : System T (Recorded σ)} {a : ThreadProxy.Action T (Recorded σ)}
    (h : ThreadProxy.proxy.step s a = some s') (ha : a ≠ .dispatch) : s'.server = s.server := by
  cases step_inv h with
  | dispatch hloop => exact absurd rfl ha
  | _ => rfl

theorem hookCalls_callThunk {t : T} {thunk : Nat} {args : List Bytes} {task : Task}
    (h : w.callThunk t thunk args task = some w') : w'.hookCalls = w.hookCalls := by
  unfold callThunk at h
  obtain ⟨s, hs, rfl⟩ := Option.map_eq_some_iff.mp h
  exact hookCalls_update (server_eq_of_step hs (fun heq => by cases heq))

theorem hookCalls_makeTouch {t : T} {touch : Nat} (h : w.makeTouch I t touch = some w') :
    w'.hookCalls = w.hookCalls := by
  simp only [makeTouch] at h
  split at h
  · rw [hookCalls_callThunk h, hookCalls_registerOp]
  · obtain rfl := Option.some.inj h
    simp only [hookCalls_registerOp]

theorem hookCalls_makeKeyboard {t : T} {keyboard : Nat} (h : w.makeKeyboard I t keyboard = some w') :
    w'.hookCalls = w.hookCalls := by
  simp only [makeKeyboard] at h
  split at h
  · rw [hookCalls_callThunk h, hookCalls_registerOp]
  · obtain rfl := Option.some.inj h
    simp only [hookCalls_registerOp]

theorem hookCalls_pointerMethod {t : T} {i : Nat} {me : PointerImpl} {m : PointerMethod}
    (h : w.pointerMethod t i me m = some w') : w'.hookCalls = w.hookCalls := by
  cases m with
  | destructor =>
      have hcalls := hookCalls_callThunk h
      exact hcalls
  | _ => exact hookCalls_callThunk h

theorem hookCalls_keyboardMethod {t : T} {i : Nat} {me : KeyboardImpl} {m : KeyboardMethod}
    (h : w.keyboardMethod t i me m = some w') : w'.hookCalls = w.hookCalls := by
  cases m with
  | destructor =>
      have hcalls := hookCalls_callThunk h
      exact hcalls
  | _ => exact hookCalls_callThunk h

theorem hookCalls_serverMethod {t : T} {m : Method} (h : w.serverMethod I t m = some w') :
    w'.hookCalls = w.hookCalls := by
  cases m with
  | createKeyboard =>
      simp only [serverMethod] at h
      split at h
      · obtain rfl := Option.some.inj h
        rfl
      · obtain ⟨thunk, -, hcall⟩ := Option.bind_eq_some_iff.mp h
        exact hookCalls_callThunk hcall
  | destructor =>
      simp only [serverMethod] at h
      split at h
      · cases h
      · obtain rfl := Option.some.inj h
        rfl
  | pointer i m => cases h
  | touch i m => cases h
  | keyboard i m => cases h
  | _ => exact hookCalls_callThunk h

theorem hookCalls_resume {t : T} {value : Bytes} (h : w.resume I t value = some w') : w'.hookCalls = w.hookCalls := by
  unfold resume at h
  split at h
  · obtain rfl := Option.some.inj h
    rfl
  · obtain rfl := Option.some.inj h
    split
    · rfl
    · rfl
  · obtain rfl := Option.some.inj h
    exact hookCalls_makePointer _ _ _
  · exact hookCalls_makeTouch h
  · exact hookCalls_makeKeyboard h
  · exact hookCalls_callThunk h
  · obtain rfl := Option.some.inj h
    rfl

theorem hookCalls_unlock {t : T} (h : w.unlock I t = some w') : w'.hookCalls = w.hookCalls := by
  simp only [unlock] at h
  split at h
  · obtain ⟨s, hs, hresume⟩ := Option.bind_eq_some_iff.mp h
    have hupdate : (w.update (.client t) s).hookCalls = w.hookCalls :=
      hookCalls_update (server_eq_of_step hs (fun heq => by cases heq))
    split at hresume
    · rw [hookCalls_resume hresume, hupdate]
    · obtain rfl := Option.some.inj hresume
      exact hupdate
  · cases h

theorem hookCalls_proxyStep {thread : Thread T} {a : ThreadProxy.Action T (Recorded σ)} (ha : a ≠ .dispatch)
    (h : w.proxyStep thread a = some w') : w'.hookCalls = w.hookCalls := by
  unfold proxyStep at h
  obtain ⟨s, hs, rfl⟩ := Option.map_eq_some_iff.mp h
  exact hookCalls_update (server_eq_of_step hs ha)

theorem proxyStep_of_loopStep {a : ThreadProxy.Action T (Recorded σ)} (h : w.loopStep a = some w') :
    w.proxyStep .loop a = some w' := by
  unfold loopStep at h
  split at h
  · exact h
  · cases h

/-! ## Steps that do -/

theorem hookCalls_dispatch (h : w.loopStep .dispatch = some w') :
    ∃ hooks : List Hook, w'.hookCalls = w.hookCalls ++ hooks.map (.loop, ·) := by
  have hstep := proxyStep_of_loopStep h
  unfold proxyStep at hstep
  obtain ⟨s, -, rfl⟩ := Option.map_eq_some_iff.mp hstep
  exact ⟨_, rfl⟩

theorem hookCalls_touchMethod {t : T} {i : Nat} {me : TouchImpl} {m : TouchMethod}
    (h : w.touchMethod I t i me m = some w') :
    ((Method.touch i m).direct = false ∧ w'.hookCalls = w.hookCalls) ∨
      ((Method.touch i m).direct = true ∧ ∃ hook, w'.hookCalls = w.hookCalls ++ [(.client t, hook)]) := by
  cases m with
  | destructor =>
      have hcalls := hookCalls_callThunk h
      exact Or.inl ⟨rfl, hcalls⟩
  | downAt x y =>
      obtain rfl := Option.some.inj h
      exact Or.inr ⟨rfl, _, hookCalls_callHook _ _ _⟩
  | moveTo x y =>
      obtain rfl := Option.some.inj h
      exact Or.inr ⟨rfl, _, hookCalls_callHook _ _ _⟩
  | up =>
      obtain rfl := Option.some.inj h
      exact Or.inr ⟨rfl, _, hookCalls_callHook _ _ _⟩

theorem hookCalls_method {t : T} {m : Method} (h : w.method I t m = some w') :
    (m.direct = false ∧ w'.hookCalls = w.hookCalls) ∨
      (m.direct = true ∧ ∃ hook, w'.hookCalls = w.hookCalls ++ [(.client t, hook)]) := by
  unfold method at h
  split at h
  · cases m with
    | pointer i m =>
        obtain ⟨me, -, hm⟩ := Option.bind_eq_some_iff.mp h
        exact Or.inl ⟨rfl, hookCalls_pointerMethod hm⟩
    | touch i m =>
        obtain ⟨me, -, hm⟩ := Option.bind_eq_some_iff.mp h
        exact hookCalls_touchMethod hm
    | keyboard i m =>
        obtain ⟨me, -, hm⟩ := Option.bind_eq_some_iff.mp h
        exact Or.inl ⟨rfl, hookCalls_keyboardMethod hm⟩
    | _ =>
        simp only at h
        split at h
        · exact Or.inl ⟨rfl, hookCalls_serverMethod h⟩
        · cases h
  · cases h

/-- What a step adds to the log: nothing, hooks that the loop has run, or a hook that a client has run. -/
theorem hookCalls_step {a : Action T} (h : w.step I a = some w') :
    (a.direct = false ∧ ∃ hooks : List Hook, w'.hookCalls = w.hookCalls ++ hooks.map (.loop, ·)) ∨
      (a.direct = true ∧ ∃ t hook, w'.hookCalls = w.hookCalls ++ [(.client t, hook)]) := by
  have hnone (hsame : w'.hookCalls = w.hookCalls) :
      ∃ hooks : List Hook, w'.hookCalls = w.hookCalls ++ hooks.map (.loop, ·) :=
    ⟨[], by rw [hsame, List.map_nil, List.append_nil]⟩
  cases a with
  | method t m =>
      rcases hookCalls_method h with ⟨hdirect, hsame⟩ | ⟨hdirect, hook, hadded⟩
      · exact Or.inl ⟨hdirect, hnone hsame⟩
      · exact Or.inr ⟨hdirect, t, hook, hadded⟩
  | unlock t => exact Or.inl ⟨rfl, hnone (hookCalls_unlock h)⟩
  | dispatch => exact Or.inl ⟨rfl, hookCalls_dispatch h⟩
  | loopRecv =>
      exact Or.inl ⟨rfl, hnone (hookCalls_proxyStep (fun heq => by cases heq) (proxyStep_of_loopStep h))⟩
  | sendReply =>
      exact Or.inl ⟨rfl, hnone (hookCalls_proxyStep (fun heq => by cases heq) (proxyStep_of_loopStep h))⟩
  | serverThreadEnds =>
      simp only [step] at h
      split at h
      · obtain rfl := Option.some.inj h
        exact Or.inl ⟨rfl, hnone rfl⟩
      · cases h
  | _ => exact Or.inl ⟨rfl, hnone (hookCalls_proxyStep (fun heq => by cases heq) h)⟩

end World

/-- **Hooks on the loop**: in a run of a server that is on a thread of its own, every call of a hook is made on that
thread, from a message of the proxy, exactly when no touch is put down, moved or lifted. -/
theorem hooks_on_loop_iff [DecidableEq T] (I : Integration σ) (state : σ) (as : List (Action T)) (w : World T σ)
    (h : (server I).exec (started I state) as = some w) :
    (∀ call ∈ w.hookCalls, call.1 = .loop) ↔ ∀ a ∈ as, a.direct = false := by
  refine (server I).exec_induction (P := fun as w => (∀ call ∈ w.hookCalls, call.1 = .loop) ↔ ∀ a ∈ as, a.direct = false)
    ?_ ?_ as w h
  · exact iff_of_true (fun call hcall => by cases hcall) (fun a ha => by cases ha)
  · intro as u a t _ ih hstep
    rcases World.hookCalls_step hstep with ⟨hdirect, hooks, hadded⟩ | ⟨hdirect, client, hook, hadded⟩
    · simp only [hadded, List.forall_mem_append, ih, List.forall_mem_singleton, hdirect, and_true]
      simp
    · refine iff_of_false (fun hloop => ?_) (fun hnone => ?_)
      · have := hloop (.client client, hook) (by rw [hadded]; exact List.mem_append_right _ (List.mem_singleton_self _))
        cases this
      · have := hnone a (List.mem_append_right _ (List.mem_singleton_self _))
        rw [hdirect] at this
        cases this

/-- An integration that has nothing behind its hooks. -/
def mock : Integration Unit where
  version := 4
  providesCreateKeyboard := true
  call hook s := (match hook with
    | .createClientSocket => 9
    | .createPointer => 0x10
    | .createTouch => 0x20
    | .createKeyboard => 0x30
    | _ => 0, s)
  touchVersion _ _ := 1
  keyboardVersion _ _ := 1

/-- A thunk that is called meets no trouble. -/
def roundtrip : List (Action Unit) := [.lock (), .send (), .loopRecv, .dispatch, .sendReply, .recv (), .unlock ()]

/-- A pointer is made and moved, a touch is made and destroyed. -/
def politeRun : List (Action Unit) :=
  [.method () .createPointer] ++ roundtrip ++ [.method () (.pointer 0 (.moveTo 3 (-4)))] ++ roundtrip ++
    [.method () .createTouch] ++ roundtrip ++ [.method () (.touch 0 .destructor)] ++ roundtrip

theorem hooks_on_loop_iff_politeRun :
    ∃ w, (server mock).exec (started mock ()) politeRun = some w ∧
      w.hookCalls = [(.loop, .createPointer), (.loop, .pointer 0x10 (.moveAbsolute 768 (-1024))), (.loop, .createTouch),
        (.loop, .touch 0x20 .destroy)] ∧
      ((∀ call ∈ w.hookCalls, call.1 = .loop) ↔ ∀ a ∈ politeRun, a.direct = false) :=
  ⟨_, rfl, by decide +kernel, hooks_on_loop_iff mock () politeRun _ rfl⟩

/-- A touch that is put down calls its hook on the thread of the test. -/
theorem touch_on_client_thread :
    ∃ w, (server mock).exec (started mock ())
        ([.method () .createTouch] ++ roundtrip ++ [.method () (.touch 0 (.downAt 3 4))]) = some w ∧
      w.hookCalls = [(.loop, .createTouch), (.client (), .touch 0x20 (.touchDown 3 4))] ∧
      ¬ ∀ call ∈ w.hookCalls, call.1 = .loop :=
  ⟨_, rfl, by decide +kernel, by decide +kernel⟩

end Wlcs.Server
