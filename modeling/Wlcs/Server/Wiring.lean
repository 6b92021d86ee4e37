import Wlcs.ThreadProxy.Steps
import Wlcs.Server.Devices

/-!
# The thunks of the devices

An object holds a thunk for each of its hooks. `run_wired` says that in every run it is the thunk that was registered for
that hook of that device, so that a method can be called whenever its object is there and its thread is in no other
(`method_isSome_iff`).
-/

namespace Wlcs.Server
open ThreadProxy EventMachine Memory

variable {T : Type} {σ : Type}

/-- The `k`-th thunk is that of the operation. -/
def Holds (s : System T (Recorded σ)) (k : Nat) (op : Callable (Recorded σ)) : Prop :=
  (s.thunks[k]?).map Thunk.callable = some op

theorem Holds.mono {s s' : System T (Recorded σ)} (h : s.thunks <+: s'.thunks) {k : Nat} {op : Callable (Recorded σ)}
    (hk : Holds s k op) : Holds s' k op := by
  unfold Holds at hk ⊢
  obtain ⟨thunk, hthunk, hop⟩ := Option.map_eq_some_iff.mp hk
  obtain ⟨rest, hrest⟩ := h
  rw [← hrest, List.getElem?_append_left (List.getElem?_eq_some_iff.mp hthunk).1, hthunk]
  exact congrArg some hop

/-! ## Objects with their own thunks -/

section Wired
variable (I : Integration σ)

structure ServerThunks.Wired (s : System T (Recorded σ)) (me : ServerThunks) : Prop where
  stop : Holds s me.stop (stopOp I)
  createClientSocket : Holds s me.createClientSocket (createClientSocketOp I)
  createPointer : Holds s me.createPointer (createPointerOp I)
  createTouch : Holds s me.createTouch (createTouchOp I)
  createKeyboard : 4 ≤ I.version → ∃ k, me.createKeyboard = some k ∧ Holds s k (createKeyboardOp I)
  positionWindowAbsolute : Holds s me.positionWindowAbsolute (positionWindowAbsoluteOp I)

structure PointerImpl.Wired (s : System T (Recorded σ)) (me : PointerImpl) : Prop where
  moveAbsolute : Holds s me.moveAbsolute (moveAbsoluteOp I me.pointer)
  moveRelative : Holds s me.moveRelative (moveRelativeOp I me.pointer)
  buttonDown : Holds s me.buttonDown (buttonDownOp I me.pointer)
  buttonUp : Holds s me.buttonUp (buttonUpOp I me.pointer)
  destroy : Holds s me.destroy (destroyPointerOp I me.pointer)

structure TouchImpl.Wired (s : System T (Recorded σ)) (me : TouchImpl) : Prop where
  destroy : Holds s me.destroy (destroyTouchOp I)
  touchDown : Holds s me.touchDown (touchDownOp I me.touch)
  touchMove : Holds s me.touchMove (touchMoveOp I me.touch)
  touchUp : Holds s me.touchUp (touchUpOp I me.touch)

structure KeyboardImpl.Wired (s : System T (Recorded σ)) (me : KeyboardImpl) : Prop where
  destroy : Holds s me.destroy (destroyKeyboardOp I)
  keyDown : Holds s me.keyDown (keyDownOp I me.keyboard)
  keyUp : Holds s me.keyUp (keyUpOp I me.keyboard)

structure Wired (w : World T σ) : Prop where
  server : w.thunks.Wired I w.proxy
  pointers : ∀ me, some me ∈ w.pointers → me.Wired I w.proxy
  touches : ∀ me, some me ∈ w.touches → me.Wired I w.proxy
  keyboards : ∀ me, some me ∈ w.keyboards → me.Wired I w.proxy

/-- What a step does to the table of thunks and to the objects. -/
structure Grows (w w' : World T σ) : Prop where
  thunks : w'.thunks = w.thunks
  table : w.proxy.thunks <+: w'.proxy.thunks
  pointers : ∀ me, some me ∈ w'.pointers → some me ∈ w.pointers ∨ me.Wired I w'.proxy
  touches : ∀ me, some me ∈ w'.touches → some me ∈ w.touches ∨ me.Wired I w'.proxy
  keyboards : ∀ me, some me ∈ w'.keyboards → some me ∈ w.keyboards ∨ me.Wired I w'.proxy

end Wired

variable {I : Integration σ} {w w' w'' : World T σ}

section Mono
variable {s s' : System T (Recorded σ)} (h : s.thunks <+: s'.thunks)
include h

theorem ServerThunks.Wired.mono {me : ServerThunks} (hme : me.Wired I s) : me.Wired I s' where
  stop := hme.stop.mono h
  createClientSocket := hme.createClientSocket.mono h
  createPointer := hme.createPointer.mono h
  createTouch := hme.createTouch.mono h
  createKeyboard hversion := by
    obtain ⟨k, hk, hholds⟩ := hme.createKeyboard hversion
    exact ⟨k, hk, hholds.mono h⟩
  positionWindowAbsolute := hme.positionWindowAbsolute.mono h

theorem PointerImpl.Wired.mono {me : PointerImpl} (hme : me.Wired I s) : me.Wired I s' :=
  ⟨hme.moveAbsolute.mono h, hme.moveRelative.mono h, hme.buttonDown.mono h, hme.buttonUp.mono h, hme.destroy.mono h⟩

theorem TouchImpl.Wired.mono {me : TouchImpl} (hme : me.Wired I s) : me.Wired I s' :=
  ⟨hme.destroy.mono h, hme.touchDown.mono h, hme.touchMove.mono h, hme.touchUp.mono h⟩

theorem KeyboardImpl.Wired.mono {me : KeyboardImpl} (hme : me.Wired I s) : me.Wired I s' :=
  ⟨hme.destroy.mono h, hme.keyDown.mono h, hme.keyUp.mono h⟩

end Mono

theorem Wired.grow (h : Wired I w) (hgrows : Grows I w w') : Wired I w' where
  server := by
    rw [hgrows.thunks]
    exact h.server.mono hgrows.table
  pointers me hme := (hgrows.pointers me hme).elim (fun hold => (h.pointers me hold).mono hgrows.table) id
  touches me hme := (hgrows.touches me hme).elim (fun hold => (h.touches me hold).mono hgrows.table) id
  keyboards me hme := (hgrows.keyboards me hme).elim (fun hold => (h.keyboards me hold).mono hgrows.table) id

namespace Grows

theorem trans (h : Grows I w w') (h' : Grows I w' w'') : Grows I w w'' where
  thunks := h'.thunks.trans h.thunks
  table := h.table.trans h'.table
  pointers me hme := (h'.pointers me hme).elim
    (fun hold => (h.pointers me hold).imp_right (PointerImpl.Wired.mono h'.table)) Or.inr
  touches me hme := (h'.touches me hme).elim
    (fun hold => (h.touches me hold).imp_right (TouchImpl.Wired.mono h'.table)) Or.inr
  keyboards me hme := (h'.keyboards me hme).elim
    (fun hold => (h.keyboards me hold).imp_right (KeyboardImpl.Wired.mono h'.table)) Or.inr

/-- The objects stay as they are. -/
theorem of_frame (hthunks : w'.thunks = w.thunks) (htable : w.proxy.thunks <+: w'.proxy.thunks)
    (hpointers : w'.pointers = w.pointers) (htouches : w'.touches = w.touches)
    (hkeyboards : w'.keyboards = w.keyboards) : Grows I w w' where
  thunks := hthunks
  table := htable
  pointers _ hme := Or.inl (hpointers ▸ hme)
  touches _ hme := Or.inl (htouches ▸ hme)
  keyboards _ hme := Or.inl (hkeyboards ▸ hme)

end Grows

/-! ## Steps -/

theorem thunks_of_step [DecidableEq T] {s s' : System T (Recorded σ)} {a : ThreadProxy.Action T (Recorded σ)}
    (h : ThreadProxy.proxy.step s a = some s') : s.thunks <+: s'.thunks := by
  cases step_inv h with
  | register callable => exact List.prefix_append _ _
  | @dispatch buffer hloop =>
      obtain ⟨server, loop, invoked, hframe⟩ := dispatch_frame s buffer
      have hthunks := congrArg System.thunks hframe
      exact hthunks ▸ List.prefix_refl _
  | _ => exact List.prefix_refl _

namespace World

theorem thunks_registerOp (w : World T σ) (t : T) (op : Callable (Recorded σ)) :
    w.proxy.thunks <+: (w.registerOp t op).2.proxy.thunks :=
  List.prefix_append _ _

theorem grows_registerOp (w : World T σ) (t : T) (op : Callable (Recorded σ)) : Grows I w (w.registerOp t op).2 :=
  .of_frame rfl (w.thunks_registerOp t op) rfl rfl rfl

theorem holds_registerOp (w : World T σ) (t : T) (op : Callable (Recorded σ)) :
    Holds (w.registerOp t op).2.proxy (w.registerOp t op).1 op := by
  unfold Holds
  simp [registerOp, update, System.registerOp]

theorem grows_makePointer (w : World T σ) (t : T) (pointer : Nat) : Grows I w (w.makePointer I t pointer) := by
  let w₁ := (w.registerOp t (moveAbsoluteOp I pointer)).2
  let w₂ := (w₁.registerOp t (moveRelativeOp I pointer)).2
  let w₃ := (w₂.registerOp t (buttonDownOp I pointer)).2
  let w₄ := (w₃.registerOp t (buttonUpOp I pointer)).2
  let w₅ := (w₄.registerOp t (destroyPointerOp I pointer)).2
  have htable₅ : w₄.proxy.thunks <+: w₅.proxy.thunks := w₄.thunks_registerOp t _
  have htable₄ : w₃.proxy.thunks <+: w₅.proxy.thunks := (w₃.thunks_registerOp t _).trans htable₅
  have htable₃ : w₂.proxy.thunks <+: w₅.proxy.thunks := (w₂.thunks_registerOp t _).trans htable₄
  have htable₂ : w₁.proxy.thunks <+: w₅.proxy.thunks := (w₁.thunks_registerOp t _).trans htable₃
  have hgrows : Grows I w w₅ := .of_frame rfl ((w.thunks_registerOp t _).trans htable₂) rfl rfl rfl
  refine ⟨hgrows.thunks, hgrows.table, fun me hme => ?_, hgrows.touches, hgrows.keyboards⟩
  rcases List.mem_append.mp hme with hold | hnew
  · exact hgrows.pointers me hold
  · obtain rfl := Option.some.inj (List.mem_singleton.mp hnew)
    exact Or.inr ⟨(w.holds_registerOp t _).mono htable₂, (w₁.holds_registerOp t _).mono htable₃,
      (w₂.holds_registerOp t _).mono htable₄, (w₃.holds_registerOp t _).mono htable₅, w₄.holds_registerOp t _⟩

variable [DecidableEq T]

theorem grows_callThunk {t : T} {thunk : Nat} {args : List Bytes} {task : Task}
    (h : w.callThunk t thunk args task = some w') : Grows I w w' := by
  unfold callThunk at h
  obtain ⟨s, hs, rfl⟩ := Option.map_eq_some_iff.mp h
  exact .of_frame rfl (thunks_of_step hs) rfl rfl rfl

theorem grows_makeTouch {t : T} {touch : Nat} (h : w.makeTouch I t touch = some w') : Grows I w w' := by
  let w₁ := (w.registerOp t (destroyTouchOp I)).2
  simp only [makeTouch] at h
  split at h
  · exact (w.grows_registerOp t _).trans (grows_callThunk h)
  · obtain rfl := Option.some.inj h
    let w₂ := (w₁.registerOp t (touchDownOp I touch)).2
    let w₃ := (w₂.registerOp t (touchMoveOp I touch)).2
    let w₄ := (w₃.registerOp t (touchUpOp I touch)).2
    have htable₄ : w₃.proxy.thunks <+: w₄.proxy.thunks := w₃.thunks_registerOp t _
    have htable₃ : w₂.proxy.thunks <+: w₄.proxy.thunks := (w₂.thunks_registerOp t _).trans htable₄
    have htable₂ : w₁.proxy.thunks <+: w₄.proxy.thunks := (w₁.thunks_registerOp t _).trans htable₃
    have hgrows : Grows I w w₄ := .of_frame rfl ((w.thunks_registerOp t _).trans htable₂) rfl rfl rfl
    refine ⟨hgrows.thunks, hgrows.table, hgrows.pointers, fun me hme => ?_, hgrows.keyboards⟩
    rcases List.mem_append.mp hme with hold | hnew
    · exact hgrows.touches me hold
    · obtain rfl := Option.some.inj (List.mem_singleton.mp hnew)
      exact Or.inr ⟨(w.holds_registerOp t _).mono htable₂, (w₁.holds_registerOp t _).mono htable₃,
        (w₂.holds_registerOp t _).mono htable₄, w₃.holds_registerOp t _⟩

theorem grows_makeKeyboard {t : T} {keyboard : Nat} (h : w.makeKeyboard I t keyboard = some w') : Grows I w w' := by
  let w₁ := (w.registerOp t (destroyKeyboardOp I)).2
  simp only [makeKeyboard] at h
  split at h
  · exact (w.grows_registerOp t _).trans (grows_callThunk h)
  · obtain rfl := Option.some.inj h
    let w₂ := (w₁.registerOp t (keyDownOp I keyboard)).2
    let w₃ := (w₂.registerOp t (keyUpOp I keyboard)).2
    have htable₃ : w₂.proxy.thunks <+: w₃.proxy.thunks := w₂.thunks_registerOp t _
    have htable₂ : w₁.proxy.thunks <+: w₃.proxy.thunks := (w₁.thunks_registerOp t _).trans htable₃
    have hgrows : Grows I w w₃ := .of_frame rfl ((w.thunks_registerOp t _).trans htable₂) rfl rfl rfl
    refine ⟨hgrows.thunks, hgrows.table, hgrows.pointers, hgrows.touches, fun me hme => ?_⟩
    rcases List.mem_append.mp hme with hold | hnew
    · exact hgrows.keyboards me hold
    · obtain rfl := Option.some.inj (List.mem_singleton.mp hnew)
      exact Or.inr ⟨(w.holds_registerOp t _).mono htable₂, (w₁.holds_registerOp t _).mono htable₃,
        w₂.holds_registerOp t _⟩

/-- Taking an object away leaves the others. -/
theorem some_mem_of_mem_set {α : Type*} {objects : List (Option α)} {i : Nat} {me : α}
    (h : some me ∈ objects.set i none) : some me ∈ objects :=
  (List.mem_or_eq_of_mem_set h).resolve_right (fun heq => by cases heq)

theorem grows_pointerMethod {t : T} {i : Nat} {me : PointerImpl} {m : PointerMethod}
    (h : w.pointerMethod t i me m = some w') : Grows I w w' := by
  cases m with
  | destructor =>
      have hset : Grows I w { w with pointers := w.pointers.set i none } :=
        ⟨rfl, List.prefix_refl _, fun _ hme => Or.inl (some_mem_of_mem_set hme), fun _ hme => Or.inl hme,
          fun _ hme => Or.inl hme⟩
      exact hset.trans (grows_callThunk h)
  | _ => exact grows_callThunk h

theorem grows_touchMethod {t : T} {i : Nat} {me : TouchImpl} {m : TouchMethod}
    (h : w.touchMethod I t i me m = some w') : Grows I w w' := by
  cases m with
  | destructor =>
      have hset : Grows I w { w with touches := w.touches.set i none } :=
        ⟨rfl, List.prefix_refl _, fun _ hme => Or.inl hme, fun _ hme => Or.inl (some_mem_of_mem_set hme),
          fun _ hme => Or.inl hme⟩
      exact hset.trans (grows_callThunk h)
  | _ =>
      obtain rfl := Option.some.inj h
      exact .of_frame rfl (List.prefix_refl _) rfl rfl rfl

theorem grows_keyboardMethod {t : T} {i : Nat} {me : KeyboardImpl} {m : KeyboardMethod}
    (h : w.keyboardMethod t i me m = some w') : Grows I w w' := by
  cases m with
  | destructor =>
      have hset : Grows I w { w with keyboards := w.keyboards.set i none } :=
        ⟨rfl, List.prefix_refl _, fun _ hme => Or.inl hme, fun _ hme => Or.inl hme,
          fun _ hme => Or.inl (some_mem_of_mem_set hme)⟩
      exact hset.trans (grows_callThunk h)
  | _ => exact grows_callThunk h

theorem grows_serverMethod {t : T} {m : Method} (h : w.serverMethod I t m = some w') : Grows I w w' := by
  cases m with
  | createKeyboard =>
      simp only [serverMethod] at h
      split at h
      · obtain rfl := Option.some.inj h
        exact .of_frame rfl (List.prefix_refl _) rfl rfl rfl
      · obtain ⟨thunk, -, hcall⟩ := Option.bind_eq_some_iff.mp h
        exact grows_callThunk hcall
  | destructor =>
      simp only [serverMethod] at h
      split at h
      · cases h
      · obtain rfl := Option.some.inj h
        exact .of_frame rfl (List.prefix_refl _) rfl rfl rfl
  | pointer i m => cases h
  | touch i m => cases h
  | keyboard i m => cases h
  | _ => exact grows_callThunk h

theorem grows_method {t : T} {m : Method} (h : w.method I t m = some w') : Grows I w w' := by
  unfold method at h
  split at h
  · cases m with
    | pointer i m =>
        obtain ⟨me, -, hm⟩ := Option.bind_eq_some_iff.mp h
        exact grows_pointerMethod hm
    | touch i m =>
        obtain ⟨me, -, hm⟩ := Option.bind_eq_some_iff.mp h
        exact grows_touchMethod hm
    | keyboard i m =>
        obtain ⟨me, -, hm⟩ := Option.bind_eq_some_iff.mp h
        exact grows_keyboardMethod hm
    | _ =>
        simp only at h
        split at h
        · exact grows_serverMethod h
        · cases h
  · cases h

theorem grows_resume {t : T} {value : Bytes} (h : w.resume I t value = some w') : Grows I w w' := by
  unfold resume at h
  split at h
  · obtain rfl := Option.some.inj h
    exact .of_frame rfl (List.prefix_refl _) rfl rfl rfl
  · obtain rfl := Option.some.inj h
    split
    · exact .of_frame rfl (List.prefix_refl _) rfl rfl rfl
    · exact .of_frame rfl (List.prefix_refl _) rfl rfl rfl
  · obtain rfl := Option.some.inj h
    exact grows_makePointer _ _ _
  · exact grows_makeTouch h
  · exact grows_makeKeyboard h
  · exact grows_callThunk h
  · obtain rfl := Option.some.inj h
    exact .of_frame rfl (List.prefix_refl _) rfl rfl rfl

theorem grows_update {thread : Thread T} {s : System T (Recorded σ)} {a : ThreadProxy.Action T (Recorded σ)}
    (h : ThreadProxy.proxy.step w.proxy a = some s) : Grows I w (w.update thread s) :=
  .of_frame rfl (thunks_of_step h) rfl rfl rfl

theorem grows_unlock {t : T} (h : w.unlock I t = some w') : Grows I w w' := by
  simp only [unlock] at h
  split at h
  · obtain ⟨s, hs, hresume⟩ := Option.bind_eq_some_iff.mp h
    split at hresume
    · exact (grows_update hs).trans (grows_resume hresume)
    · obtain rfl := Option.some.inj hresume
      exact .of_frame rfl (thunks_of_step hs) rfl rfl rfl
  · cases h

theorem grows_proxyStep {thread : Thread T} {a : ThreadProxy.Action T (Recorded σ)}
    (h : w.proxyStep thread a = some w') : Grows I w w' := by
  unfold proxyStep at h
  obtain ⟨s, hs, rfl⟩ := Option.map_eq_some_iff.mp h
  exact grows_update hs

theorem grows_loopStep {a : ThreadProxy.Action T (Recorded σ)} (h : w.loopStep a = some w') : Grows I w w' := by
  unfold loopStep at h
  split at h
  · exact grows_proxyStep h
  · cases h

theorem grows_step {a : Action T} (h : w.step I a = some w') : Grows I w w' := by
  cases a with
  | method t m => exact grows_method h
  | unlock t => exact grows_unlock h
  | loopRecv => exact grows_loopStep h
  | dispatch => exact grows_loopStep h
  | sendReply => exact grows_loopStep h
  | serverThreadEnds =>
      simp only [step] at h
      split at h
      · obtain rfl := Option.some.inj h
        exact .of_frame rfl (List.prefix_refl _) rfl rfl rfl
      · cases h
  | _ => exact grows_proxyStep h

end World

/-! ## Runs -/

theorem wired_started (I : Integration σ) (state : σ) : Wired I (started I state : World T σ) := by
  refine ⟨?_, fun me hme => (by cases hme), fun me hme => (by cases hme), fun me hme => (by cases hme)⟩
  by_cases hversion : I.version ≥ 4
  · refine ⟨?_, ?_, ?_, ?_, fun _ => ⟨4, ?_, ?_⟩, ?_⟩
    all_goals simp [Holds, started, serverOps, hversion, System.registerOp, System.fresh]
  · refine ⟨?_, ?_, ?_, ?_, fun hnew => absurd hnew hversion, ?_⟩
    all_goals simp [Holds, started, serverOps, hversion, System.registerOp, System.fresh]

/-- **Wiring**: in every run each object holds the thunks that were registered for its own hooks. -/
theorem run_wired [DecidableEq T] {state : σ} {as : List (Action T)}
    (h : (server I).exec (started I state) as = some w) : Wired I w :=
  (server I).exec_induction (P := fun _ w => Wired I w) (wired_started I state)
    (fun _ _ _ _ _ hu ht => hu.grow (World.grows_step ht)) as w h

/-! ## Calling a method -/

/-- The object of the method is there; a server goes only after its thread. -/
def World.Available (w : World T σ) : Method → Prop
  | .pointer i _ => ∃ me, w.pointers[i]? = some (some me)
  | .touch i _ => ∃ me, w.touches[i]? = some (some me)
  | .keyboard i _ => ∃ me, w.keyboards[i]? = some (some me)
  | .destructor => w.alive = true ∧ w.running = false
  | _ => w.alive = true

theorem length_intBytes (x : Int) : (intBytes x).length = 4 := length_toBytes _ _

theorem length_ptrBytes (address : Nat) : (ptrBytes address).length = 8 := length_toBytes _ _

section Methods
variable [DecidableEq T] {t : T}

theorem callThunk_isSome (hidle : w.proxy.threads t = .idle) {thunk : Nat} {op : Callable (Recorded σ)}
    (hholds : Holds w.proxy thunk op) {args : List Bytes} (hargs : args.map List.length = op.args) (task : Task) :
    (w.callThunk t thunk args task).isSome := by
  obtain ⟨entry, hentry, rfl⟩ := Option.map_eq_some_iff.mp hholds
  simp [World.callThunk, ThreadProxy.proxy, System.step, hidle, hentry, hargs]

theorem pointerMethod_isSome (hidle : w.proxy.threads t = .idle) {me : PointerImpl} (hme : me.Wired I w.proxy) (i : Nat)
    (m : PointerMethod) : (w.pointerMethod t i me m).isSome := by
  cases m with
  | moveTo x y => exact callThunk_isSome hidle hme.moveAbsolute (by simp [length_intBytes, moveAbsoluteOp, voidOp]) _
  | moveBy dx dy => exact callThunk_isSome hidle hme.moveRelative (by simp [length_intBytes, moveRelativeOp, voidOp]) _
  | buttonDown button => exact callThunk_isSome hidle hme.buttonDown (by simp [length_intBytes, buttonDownOp, voidOp]) _
  | buttonUp button => exact callThunk_isSome hidle hme.buttonUp (by simp [length_intBytes, buttonUpOp, voidOp]) _
  | click button => exact callThunk_isSome hidle hme.buttonDown (by simp [length_intBytes, buttonDownOp, voidOp]) _
  | destructor =>
      exact callThunk_isSome (w := { w with pointers := w.pointers.set i none }) hidle hme.destroy rfl _

theorem touchMethod_isSome (hidle : w.proxy.threads t = .idle) {me : TouchImpl} (hme : me.Wired I w.proxy) (i : Nat)
    (m : TouchMethod) : (w.touchMethod I t i me m).isSome := by
  cases m with
  | destructor =>
      exact callThunk_isSome (w := { w with touches := w.touches.set i none }) hidle hme.destroy
        (by simp [length_ptrBytes, destroyTouchOp, voidOp]) _
  | _ => rfl

theorem keyboardMethod_isSome (hidle : w.proxy.threads t = .idle) {me : KeyboardImpl} (hme : me.Wired I w.proxy)
    (i : Nat) (m : KeyboardMethod) : (w.keyboardMethod t i me m).isSome := by
  cases m with
  | keyDown scancode => exact callThunk_isSome hidle hme.keyDown (by simp [length_intBytes, keyDownOp, voidOp]) _
  | keyUp scancode => exact callThunk_isSome hidle hme.keyUp (by simp [length_intBytes, keyUpOp, voidOp]) _
  | key scancode => exact callThunk_isSome hidle hme.keyDown (by simp [length_intBytes, keyDownOp, voidOp]) _
  | destructor =>
      exact callThunk_isSome (w := { w with keyboards := w.keyboards.set i none }) hidle hme.destroy
        (by simp [length_ptrBytes, destroyKeyboardOp, voidOp]) _

omit [DecidableEq T] in
/-- A method of an object can be called when the object is there. -/
theorem bind_join_isSome {α : Type*} {objects : List (Option α)} {i : Nat} {method : α → Option (World T σ)}
    (h : ∀ me, some me ∈ objects → (method me).isSome) :
    ((objects[i]?.join).bind method).isSome ↔ ∃ me, objects[i]? = some (some me) := by
  cases hobject : objects[i]? with
  | none => simp
  | some object =>
      cases object with
      | none => simp
      | some me => exact iff_of_true (h me (List.mem_of_getElem? hobject)) ⟨me, rfl⟩

omit [DecidableEq T] in
theorem ite_alive_isSome {result : Option (World T σ)} (h : result.isSome) :
    (if w.alive = true then result else none).isSome ↔ w.alive = true := by
  split
  · rename_i halive
    exact iff_of_true h halive
  · rename_i halive
    exact iff_of_false Bool.false_ne_true halive

/-- A method can be called on a thread that is in no other exactly when its object is there. -/
theorem method_isSome_iff (h : Wired I w) (hidle : w.proxy.threads t = .idle) (m : Method) :
    (w.method I t m).isSome ↔ w.Available m := by
  unfold World.method
  rw [hidle]
  cases m with
  | stop => exact ite_alive_isSome (callThunk_isSome hidle h.server.stop rfl _)
  | createClientSocket => exact ite_alive_isSome (callThunk_isSome hidle h.server.createClientSocket rfl _)
  | createPointer => exact ite_alive_isSome (callThunk_isSome hidle h.server.createPointer rfl _)
  | createTouch => exact ite_alive_isSome (callThunk_isSome hidle h.server.createTouch rfl _)
  | createKeyboard =>
      refine ite_alive_isSome ?_
      simp only [World.serverMethod]
      split
      · rfl
      · rename_i hsupported
        obtain ⟨k, hk, hholds⟩ := h.server.createKeyboard (by omega)
        rw [hk]
        exact callThunk_isSome hidle hholds rfl _
  | moveSurfaceTo client surface x y =>
      refine ite_alive_isSome (callThunk_isSome hidle h.server.positionWindowAbsolute ?_ _)
      simp [length_intBytes, length_ptrBytes, positionWindowAbsoluteOp, voidOp]
  | destructor =>
      simp only [World.serverMethod, World.Available]
      cases w.alive with
      | false => simp
      | true => cases w.running <;> simp
  | pointer i m => exact bind_join_isSome fun me hme => pointerMethod_isSome hidle (h.pointers me hme) i m
  | touch i m => exact bind_join_isSome fun me hme => touchMethod_isSome hidle (h.touches me hme) i m
  | keyboard i m => exact bind_join_isSome fun me hme => keyboardMethod_isSome hidle (h.keyboards me hme) i m

end Methods

end Wlcs.Server
