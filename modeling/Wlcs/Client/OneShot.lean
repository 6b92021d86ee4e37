import Wlcs.Client.FrameStack

/-!
# One-shot notifiers under re-entrant dispatch

`Sound` puts the invariants of the vectors and of the stack together with what is expected of the record. Every `Allowed`
step keeps it (`Sound.step`), and so does every run of such steps (`one_shot`).
-/

namespace Wlcs.Reentrant
open EventMachine History StdVector

/-! ## One step -/

structure Sound (s : Client) : Prop where
  defined : s.undefined = false
  vectors : Vectors s.log s.notifiers s.underWay
  frames : Frames s.log s.me s.stack
  record : OneShot s.log

section Steps
variable {s t : Client} {a : Action} {point : Point} {rest : List Activation} {w : Notifying}

theorem underWay_between (hstack : s.stack = ⟨point, none⟩ :: rest) :
    s.underWay = rest.filterMap (·.notifying) := by
  unfold Client.underWay
  rw [hstack]
  rfl

theorem underWay_notifying (hstack : s.stack = ⟨point, some w⟩ :: rest) :
    s.underWay = w :: rest.filterMap (·.notifying) := by
  unfold Client.underWay
  rw [hstack]
  rfl

theorem Sound.goto (h : Sound s) (hstack : s.stack = ⟨point, none⟩ :: rest) {next : Point}
    (hpassed : next.passed s.me = point.passed s.me) (hloop : ∀ code, next ≠ .loop (some code)) :
    Sound (s.move rest (.goto next)) := by
  have hvectors := h.vectors
  have hframes := h.frames
  rw [underWay_between hstack] at hvectors
  rw [hstack] at hframes
  exact ⟨h.defined, hvectors, hframes.goto hpassed hloop, h.record⟩

/-- `pointer_frame` returns with no buttons left to notify. -/
theorem Sound.leaveFrame (h : Sound s) (hstack : s.stack = ⟨point, none⟩ :: rest) (hpassed : point.passed s.me = []) :
    Sound (s.move rest (.finish s.me [])) := by
  have hvectors := h.vectors
  have hframes := h.frames
  rw [underWay_between hstack] at hvectors
  rw [hstack] at hframes
  have hclicks : clicksNotified (s.log ++ []) = [] := by
    rw [List.append_nil, hframes.notified]
    exact hpassed
  have hfinish := hframes.finish s.me hclicks
  constructor
  · exact h.defined
  · show Vectors (s.log ++ []) s.notifiers _
    rw [List.append_nil]
    exact hvectors
  · exact hfinish
  · show OneShot (s.log ++ [])
    rw [List.append_nil]
    exact h.record

/-- `pointer_frame` clears the buttons and returns. -/
theorem Sound.clear (h : Sound s) (hstack : s.stack = ⟨.clear, none⟩ :: rest) (me' : Impl) :
    Sound (s.move rest (.finish me' [.cleared (pendingClicks s.me)])) := by
  have hvectors := h.vectors
  have hframes := h.frames
  rw [underWay_between hstack] at hvectors
  rw [hstack] at hframes
  have hclicks : clicksNotified (s.log ++ [.cleared (pendingClicks s.me)]) = [] := by
    rw [clicksNotified_concat]
    rfl
  constructor
  · exact h.defined
  · exact hvectors.concat nofun (fun _ => rfl) fun _ => rfl
  · exact hframes.finish me' hclicks
  · refine h.record.concat nofun nofun ?_
    intro clicks heq
    rw [← Entry.cleared.inj heq]
    exact hframes.notified

theorem Sound.start (h : Sound s) (hstack : s.stack = ⟨point, none⟩ :: rest) (me' : Impl) (subject : Subject)
    {note : Notification} (hbuttons : me'.pendingButtons = s.me.pendingButtons)
    (harguments : subject.arguments me' = some note)
    (hclicks : point.passed s.me ++ (Entry.began (begun s.log) note).click?.toList = subject.resume.passed me')
    (hwhole : ∀ w ∈ s.underWay, w.kind = subject.kind → w.Whole) :
    Sound (s.move rest (.notify me' subject.resume subject note)) := by
  have hvectors := h.vectors
  have hframes := h.frames
  rw [underWay_between hstack] at hvectors hwhole
  rw [hstack] at hframes
  constructor
  · exact h.defined
  · exact hvectors.start hwhole
  · refine hframes.start _ _ hbuttons harguments ?_
    rw [clicksNotified_concat, hframes.notified]
    exact hclicks
  · exact h.record.concat nofun nofun nofun

/-- `pointer_frame` between two notifications. -/
theorem Sound.move (h : Sound s) (hstack : s.stack = ⟨point, none⟩ :: rest)
    (hallowed : ∀ subject ∈ s.starting, ∀ w ∈ s.underWay, w.kind = subject.kind → w.Whole) :
    Sound (s.move rest (pointerFrame s.me point)) := by
  have hframes := h.frames
  rw [hstack] at hframes
  unfold Client.starting at hallowed
  rw [hstack] at hallowed
  dsimp only at hallowed
  cases point with
  | leave =>
      unfold pointerFrame at hallowed ⊢
      dsimp only at hallowed ⊢
      by_cases hleave : s.me.pendingPointerLeave = true
      · rw [if_pos hleave] at hallowed ⊢
        cases hcurrent : s.me.currentPointerLocation with
        | none => exact h.leaveFrame hstack rfl
        | some current =>
            rw [hcurrent] at hallowed
            refine h.start hstack _ (.leave current.surface) ?_ ?_ ?_ (hallowed _ rfl)
            all_goals rfl
      · rw [if_neg hleave]
        exact h.goto hstack rfl nofun
  | location =>
      unfold pointerFrame at hallowed ⊢
      dsimp only at hallowed ⊢
      cases hpending : s.me.pendingPointerLocation with
      | none => exact h.goto hstack rfl nofun
      | some location =>
          rw [hpending] at hallowed
          dsimp only at hallowed ⊢
          cases hcurrent : s.me.currentPointerLocation with
          | none =>
              rw [hcurrent] at hallowed
              refine h.start hstack _ (.enter location.surface location.coordinates) ?_ ?_ ?_ (hallowed _ rfl)
              all_goals rfl
          | some current =>
              rw [hcurrent] at hallowed
              refine h.start hstack _ (.motion location.coordinates) ?_ ?_ ?_ (hallowed _ rfl)
              all_goals rfl
  | buttons =>
      unfold pointerFrame
      dsimp only
      split
      · exact h.leaveFrame hstack rfl
      · refine h.goto hstack ?_ nofun
        unfold Point.passed
        simp
  | loop iterator =>
      unfold pointerFrame at hallowed ⊢
      dsimp only at hallowed ⊢
      have hpresent : ¬ (iterator.any fun code => !s.me.pendingButtons.contains code) = true := by
        cases iterator with
        | none => simp
        | some code => simp [hframes.present _ rfl code rfl]
      rw [if_neg hpresent] at hallowed ⊢
      cases hnext : nextButton s.me.pendingButtons iterator with
      | none => exact h.goto hstack (passed_last hnext).symm nofun
      | some entry =>
          obtain ⟨code, serial, pressed⟩ := entry
          rw [hnext] at hallowed
          have hentry : s.me.pendingButtons[code]? = some (serial, pressed) :=
            Std.TreeMap.mem_toList_iff_getElem?_eq_some.mp (List.mem_of_find?_eq_some hnext)
          refine h.start hstack s.me (.button code) rfl ?_ (passed_next hnext).symm (hallowed _ rfl)
          show Option.map _ s.me.pendingButtons[code]? = _
          rw [hentry]
          rfl
  | clear => exact h.clear hstack _

/-- `std::remove_if` goes on. -/
theorem Sound.pass (h : Sound s) (hstack : s.stack = ⟨point, some w⟩ :: rest) (hcalling : w.calling = none) :
    Sound (s.pass point rest w) := by
  have hvectors := h.vectors
  have hframes := h.frames
  rw [underWay_notifying hstack] at hvectors
  rw [hstack] at hframes
  unfold Client.pass
  dsimp only
  rw [if_neg (not_not.mpr (hvectors.length List.mem_cons_self))]
  by_cases hlast : w.pass.first = w.pass.last
  · obtain ⟨hcalls, herased⟩ := hvectors.erase hcalling hlast
    rw [if_pos hlast]
    refine ⟨h.defined, herased, hframes.turn nofun rfl rfl, h.record.concat nofun ?_ nofun⟩
    intro number kind heq
    obtain ⟨rfl, rfl⟩ := Entry.ended.inj heq
    exact hcalls
  · obtain ⟨n, hget, hexpired, hnew, hcalled⟩ := hvectors.call hcalling hlast
    obtain ⟨note, harguments, hbegan⟩ := hframes.told _ List.mem_cons_self w rfl
    rw [if_neg hlast, hget, harguments]
    refine ⟨h.defined, hcalled note, hframes.turn ?_ rfl rfl, h.record.concat ?_ nofun nofun⟩
    · intro w' hw'
      obtain rfl := Option.some.inj hw'
      exact ⟨rfl, rfl⟩
    · intro number x note' heq
      obtain ⟨rfl, rfl, rfl⟩ := Entry.called.inj heq
      exact ⟨hexpired, hnew, hbegan⟩

/-- The running notifier returns. -/
theorem Sound.answer (h : Sound s) (hstack : s.stack = ⟨point, some w⟩ :: rest) {n : Nat} (hcalling : w.calling = some n)
    {keep : Bool} (halone : keep = false → ∀ o ∈ rest.filterMap (·.notifying), o.kind ≠ w.kind) :
    Sound (s.answer point rest w n keep) := by
  have hvectors := h.vectors
  have hframes := h.frames
  rw [underWay_notifying hstack] at hvectors
  rw [hstack] at hframes
  unfold Client.answer
  dsimp only
  rw [if_neg (not_not.mpr (hvectors.length List.mem_cons_self))]
  have hturn : ∀ p : Pass, ∀ w', some { w with pass := p, calling := none } = some w' →
      w'.subject = w.subject ∧ w'.number = w.number := by
    intro p w' hw'
    obtain rfl := Option.some.inj hw'
    exact ⟨rfl, rfl⟩
  cases keep with
  | true => exact ⟨h.defined, hvectors.keep hcalling, hframes.turn (hturn _) rfl rfl, h.record.concat nofun nofun nofun⟩
  | false =>
      exact ⟨h.defined, hvectors.drop hcalling (halone rfl), hframes.turn (hturn _) rfl rfl,
        h.record.concat nofun nofun nofun⟩

/-- The call of `pointer_frame` in which a notifier is running. -/
theorem ready_iff : s.ready = true ↔ ∀ act ∈ s.stack.head?, ∃ w n, act.notifying = some w ∧ w.calling = some n := by
  unfold Client.ready
  cases s.stack with
  | nil => simp
  | cons act rest =>
      cases hw : act.notifying with
      | none => simp [hw]
      | some w => simp [hw, Option.isSome_iff_exists]

/-- What the handlers of the events other than `frame` do to `pending_buttons`. -/
theorem pendingButtons_dispatch (me : Impl) {e : PointerEvent} (hframe : e ≠ .frame) (code : Nat) :
    (me.dispatchPointer e).1.pendingButtons[code]? = me.pendingButtons[code]? ∨
      ∃ serial time state, e = .button serial time code state := by
  have hstep := dispatchPointer_step me e
  generalize (me.dispatchPointer e).1.toPointerTracking = tracking, (me.dispatchPointer e).2.failure = failure,
    (me.dispatchPointer e).2.notified = notified at hstep ⊢
  cases hstep with
  | @button serial time button state =>
      by_cases hcode : button = code
      · right
        exact ⟨serial, time, state, by rw [hcode]⟩
      · left
        rw [Std.TreeMap.getElem?_insert]
        simp [hcode]
  | frameFailed => exact absurd rfl hframe
  | frame => exact absurd rfl hframe
  | _ => exact Or.inl rfl

theorem Sound.dispatch (h : Sound s) (hready : s.ready = true) {e : PointerEvent} (hframe : e ≠ .frame)
    (hallowed : Allowed s (.event e)) : Sound { s with me := (s.me.dispatchPointer e).1 } := by
  have hready := ready_iff.mp hready
  refine ⟨h.defined, h.vectors, h.frames.dispatch ?_ ?_, h.record⟩
  · intro act hact
    obtain ⟨w, n, hw, -⟩ := hready act hact
    exact ⟨w, hw⟩
  · intro act hact iterator hloop code hcode
    obtain ⟨w, n, hw, -⟩ := hready act hact
    have hmem : act ∈ s.stack := List.mem_of_mem_head? hact
    have hunderWay : w ∈ s.underWay := List.mem_filterMap.mpr ⟨act, hmem, hw⟩
    have hsubject : w.subject = .button iterator := by
      have hresume := (h.frames.resumes act hmem w hw).symm.trans hloop
      cases hs : w.subject with
      | button c =>
          rw [hs] at hresume
          simpa [Subject.resume] using hresume
      | _ =>
          rw [hs] at hresume
          cases hresume
    rcases pendingButtons_dispatch s.me hframe code with hsame | ⟨serial, time, state, rfl⟩
    · exact hsame
    · have hlt := hallowed w hunderWay iterator (by rw [hsubject]; rfl)
      omega

theorem Sound.step (h : Sound s) (hallowed : Allowed s a) (hstep : s.step a = some t) : Sound t := by
  unfold Client.step at hstep
  obtain ⟨-, hstep⟩ := Option.ite_none_left_eq_some.mp hstep
  cases a with
  | add kind =>
      obtain ⟨⟨-, hkind⟩, heq⟩ := Option.ite_none_right_eq_some.mp hstep
      obtain rfl := Option.some.inj heq
      exact ⟨h.defined, h.vectors.add hkind, h.frames.concat rfl rfl, h.record.concat nofun nofun nofun⟩
  | event e =>
      by_cases hframe : e = .frame
      · subst hframe
        obtain ⟨hready, heq⟩ := Option.ite_none_right_eq_some.mp hstep
        obtain rfl := Option.some.inj heq
        refine ⟨h.defined, h.vectors, h.frames.push ?_, h.record⟩
        intro act hact
        obtain ⟨w, n, hw, -⟩ := ready_iff.mp hready act hact
        exact ⟨w, hw, hallowed w (List.mem_filterMap.mpr ⟨act, List.mem_of_mem_head? hact, hw⟩)⟩
      · obtain ⟨hready, heq⟩ : s.ready = true ∧ some { s with me := (s.me.dispatchPointer e).1 } = some t := by
          cases e with
          | frame => exact absurd rfl hframe
          | _ => exact Option.ite_none_right_eq_some.mp hstep
        obtain rfl := Option.some.inj heq
        exact h.dispatch hready hframe hallowed
  | ret keep =>
      dsimp only at hstep
      split at hstep
      · rename_i point w rest hstack
        obtain ⟨n, hcalling, rfl⟩ := Option.map_eq_some_iff.mp hstep
        refine h.answer hstack hcalling ?_
        rintro rfl o ho
        have hunderWay := underWay_notifying hstack
        unfold Allowed at hallowed
        rw [hunderWay] at hallowed
        exact hallowed w rfl o ho
      · cases hstep
  | tick =>
      dsimp only at hstep
      split at hstep
      · cases hstep
      · rename_i point rest hstack
        obtain rfl := Option.some.inj hstep
        exact h.move hstack hallowed
      · rename_i point w rest hstack
        obtain ⟨hcalling, heq⟩ := Option.ite_none_left_eq_some.mp hstep
        obtain rfl := Option.some.inj heq
        exact h.pass hstack (by simpa using hcalling)

end Steps

/-! ## Runs -/

theorem sound_init : Sound {} := by
  constructor
  · rfl
  · constructor
    all_goals simp [Client.underWay, expired, callsOf, live, registered]
  · constructor
    all_goals simp [clicksNotified, passed]
  · constructor
    all_goals simp [callsOf]

theorem passed_sublist (me : Impl) (stack : List Activation) : (passed me stack).Sublist (pendingClicks me) := by
  cases stack with
  | nil => exact List.nil_sublist _
  | cons act rest =>
      show (act.point.passed me).Sublist (pendingClicks me)
      cases act.point with
      | loop iterator => exact List.filter_sublist
      | clear => exact List.Sublist.refl _
      | _ => exact List.nil_sublist _

/-- A call of `pointer_frame` goes on, unless it waits for a notifier to return. -/
theorem goes_on {s : Client} (h : s.undefined = false) (hstack : s.stack ≠ []) :
    (s.step .tick).isSome = true ∨ ∀ keep, (s.step (.ret keep)).isSome = true := by
  obtain ⟨⟨point, notifying⟩, rest, heq⟩ := List.exists_cons_of_ne_nil hstack
  cases notifying with
  | none =>
      left
      simp [Client.step, h, heq]
  | some w =>
      cases hcalling : w.calling with
      | none =>
          left
          simp [Client.step, h, heq, hcalling]
      | some n =>
          right
          simp [Client.step, h, heq, hcalling]

/-- In every run whose steps are all allowed, nothing is undefined and no call of `pointer_frame` is stuck, the record
of the notifiers is as expected, and of the entries of `pending_buttons` none has been notified more than once. -/
theorem one_shot {as : List Action} {s : Client} (h : client.exec {} as = some s)
    (hallowed : client.Along Allowed {} as) :
    s.undefined = false ∧
      (s.stack ≠ [] → (s.step .tick).isSome = true ∨ ∀ keep, (s.step (.ret keep)).isSome = true) ∧
      OneShot s.log ∧ (clicksNotified s.log).Sublist (pendingClicks s.me) := by
  have hsound : Sound s := client.along_induction sound_init (fun _ _ _ hs ha hstep => hs.step ha hstep) hallowed h
  refine ⟨hsound.defined, goes_on hsound.defined, hsound.record, ?_⟩
  rw [hsound.frames.notified]
  exact passed_sublist s.me s.stack

/-- A motion notifier that moves the surface, so that the next motion and a button are dispatched while it runs. -/
def movedInMotion : List Action :=
  [.add .motion, .event (.enter 1 (some 7) 50 50), .event .frame, .tick, .tick, .tick, .tick,
    .event (.motion 0 55 45), .event .frame, .tick, .tick, .tick,
    .event (.motion 0 40 95), .event (.button 2 0 272 1), .event .frame, .tick, .tick, .tick, .ret true, .tick, .tick,
    .tick, .tick, .tick, .tick, .ret true, .tick, .tick]

theorem one_shot_movedInMotion :
    ∃ s, client.exec {} movedInMotion = some s ∧ s.stack = [] ∧
      callsOf 1 s.log = [⟨.motion, 0⟩] ∧ callsOf 2 s.log = [⟨.motion, 0⟩] ∧ OneShot s.log := by
  obtain ⟨s, hs, hlog⟩ : ∃ s, client.exec {} movedInMotion = some s ∧ s.stack = [] ∧
      callsOf 1 s.log = [⟨.motion, 0⟩] ∧ callsOf 2 s.log = [⟨.motion, 0⟩] := ⟨_, rfl, by decide⟩
  exact ⟨s, hs, hlog.1, hlog.2.1, hlog.2.2, (one_shot hs (by decide)).2.2.1⟩

end Wlcs.Reentrant
