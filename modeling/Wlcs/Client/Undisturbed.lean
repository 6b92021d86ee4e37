import Mathlib.Logic.Relation
import Wlcs.Client.Reentrant

/-!
# Frames that no notifier disturbs

The machine of `Wlcs.Client.Reentrant` takes `pointer_frame` in small steps, so that notifiers can come in between.
Where they do not, and each answers at once, it does what `Impl.pointerFrame` does in one step: the same notifications
go out in the same order, each vector keeps those of its notifiers that answered `true`, and the members of the client
are left the same (`frame_undisturbed`).
-/

namespace Wlcs

def Notification.kind : Notification → Reentrant.Kind
  | .enter .. => .enter
  | .leave _ => .leave
  | .motion _ => .motion
  | .button .. => .button

namespace Reentrant
open EventMachine StdVector

/-- The notifications of a record. -/
def notes (log : List Entry) : List Notification := log.filterMap Entry.began?

@[simp] theorem notes_append (log entries : List Entry) : notes (log ++ entries) = notes log ++ notes entries :=
  List.filterMap_append

section Prompt
variable (answer : Notifier → Notification → Bool)

/-- A step of the client's own, in which a running notifier answers and does nothing else. -/
inductive Prompt (s : Client) : Client → Prop
  | tick {t : Client} (hstep : s.step .tick = some t) : Prompt s t
  | ret {t : Client} {point : Point} {rest : List Activation} {w : Notifying} {n : Nat} {note : Notification}
      (hstack : s.stack = ⟨point, some w⟩ :: rest) (hcalling : w.calling = some n)
      (hnote : w.subject.arguments s.me = some note) (hstep : s.step (.ret (answer ⟨w.kind, n⟩ note)) = some t) :
      Prompt s t

abbrev Prompts : Client → Client → Prop := Relation.ReflTransGen (Prompt answer)

/-- The notifiers that a notification leaves. -/
def keepers (ids : Kind → List Nat) (note : Notification) : Kind → List Nat :=
  Function.update ids note.kind ((ids note.kind).filter fun n => answer ⟨note.kind, n⟩ note)

/-- A client between two notifications of a call of `pointer_frame`, or after it. -/
structure Between (s : Client) (me : Impl) (ids : Kind → List Nat) (stack : List Activation)
    (ns : List Notification) : Prop where
  defined : s.undefined = false
  me : s.me = me
  vectors : ∀ kind, s.notifiers kind = (ids kind).map some
  stack : s.stack = stack
  notes : notes s.log = ns

end Prompt

section Steps
variable {answer : Notifier → Notification → Bool} {s t : Client} {me me' : Impl} {ids : Kind → List Nat}
  {point : Point} {rest : List Activation} {ns : List Notification} {w : Notifying} {note : Notification}

/-! ## One notification -/

theorem tick_pass (hdefined : s.undefined = false) (hstack : s.stack = ⟨point, some w⟩ :: rest)
    (hcalling : w.calling = none) : s.step .tick = some (s.pass point rest w) := by
  simp [Client.step, hdefined, hstack, hcalling]

theorem ret_answer (hdefined : s.undefined = false) (hstack : s.stack = ⟨point, some w⟩ :: rest) {n : Nat}
    (hcalling : w.calling = some n) (keep : Bool) : s.step (.ret keep) = some (s.answer point rest w n keep) := by
  simp [Client.step, hdefined, hstack, hcalling]

/-- `std::remove_if` calls a notifier, which answers. -/
theorem prompts_call {n : Nat} {kept l : List Nat} (hdefined : s.undefined = false)
    (hstack : s.stack = ⟨point, some w⟩ :: rest) (hcalling : w.calling = none)
    (hplace : Pass.At (s.notifiers w.kind) w.pass kept (n :: l)) (hnote : w.subject.arguments s.me = some note) :
    ∃ u p, Prompts answer s u ∧ u.undefined = false ∧ u.me = s.me ∧
      u.stack = ⟨point, some { w with pass := p, calling := none }⟩ :: rest ∧
      Pass.At (u.notifiers w.kind) p (kept ++ if answer ⟨w.kind, n⟩ note then [n] else []) l ∧
      (∀ kind, kind ≠ w.kind → u.notifiers kind = s.notifiers kind) ∧ notes u.log = notes s.log := by
  have hlast : w.pass.first ≠ w.pass.last := by
    have := hplace.first_add
    rw [List.length_cons] at this
    omega
  have hlength : ¬ (s.notifiers w.kind).length ≠ w.pass.last := not_not.mpr hplace.last_eq.symm
  obtain ⟨c, htick, hcdefined, hcme, hcstack, hcnotifiers, hcnotes⟩ : ∃ c, s.step .tick = some c ∧
      c.undefined = false ∧ c.me = s.me ∧ c.stack = ⟨point, some { w with calling := some n }⟩ :: rest ∧
      c.notifiers = s.notifiers ∧ notes c.log = notes s.log := by
    refine ⟨_, tick_pass hdefined hstack hcalling, ?_⟩
    unfold Client.pass
    dsimp only
    rw [if_neg hlength, if_neg hlast, hplace.get, hnote]
    exact ⟨hdefined, rfl, rfl, rfl, by simp [notes, Entry.began?]⟩
  have hret := ret_answer hcdefined hcstack rfl (answer ⟨w.kind, n⟩ note)
  have hprompts : Prompts answer s _ :=
    Relation.ReflTransGen.tail (Relation.ReflTransGen.single (.tick htick)) (.ret hcstack rfl (hcme ▸ hnote) hret)
  unfold Client.answer at hprompts
  dsimp only at hprompts
  have hkind : Notifying.kind { w with calling := some n } = w.kind := rfl
  rw [hcnotifiers, hkind, if_neg hlength] at hprompts
  refine ⟨_, _, hprompts, hcdefined, hcme, rfl, ?_, ?_, ?_⟩
  · cases answer ⟨w.kind, n⟩ note with
    | true =>
        show Pass.At (Function.update s.notifiers w.kind (w.pass.moveKept (s.notifiers w.kind)) w.kind) w.pass.keep _ l
        rw [Function.update_self]
        exact hplace.keep
    | false =>
        show Pass.At (s.notifiers w.kind) w.pass.drop (kept ++ []) l
        rw [List.append_nil]
        exact hplace.drop
  · intro kind hkind
    show (if answer ⟨w.kind, n⟩ note then Function.update s.notifiers w.kind _ else s.notifiers) kind = _
    split
    · exact Function.update_of_ne hkind _ _
    · rfl
  · rw [← hcnotes]
    simp [notes, Entry.began?]

/-- `std::remove_if` from one of its elements to the end. -/
theorem prompts_pass (answer : Notifier → Notification → Bool) (l : List Nat) {kept : List Nat} (hdefined : s.undefined = false)
    (hstack : s.stack = ⟨point, some w⟩ :: rest) (hcalling : w.calling = none)
    (hplace : Pass.At (s.notifiers w.kind) w.pass kept l) (hnote : w.subject.arguments s.me = some note) :
    ∃ t, Prompts answer s t ∧ t.undefined = false ∧ t.me = s.me ∧ t.stack = ⟨point, none⟩ :: rest ∧
      t.notifiers w.kind = (kept ++ l.filter fun n => answer ⟨w.kind, n⟩ note).map some ∧
      (∀ kind, kind ≠ w.kind → t.notifiers kind = s.notifiers kind) ∧ notes t.log = notes s.log := by
  induction l generalizing s w kept with
  | nil =>
      have hlength : ¬ (s.notifiers w.kind).length ≠ w.pass.last := not_not.mpr hplace.last_eq.symm
      have hlast : w.pass.first = w.pass.last := hplace.first_add
      refine ⟨_, Relation.ReflTransGen.single (.tick (tick_pass hdefined hstack hcalling)), ?_⟩
      unfold Client.pass
      dsimp only
      rw [if_neg hlength, if_pos hlast, hplace.erase]
      refine ⟨hdefined, rfl, rfl, ?_, fun kind hkind => Function.update_of_ne hkind _ _, by simp [notes, Entry.began?]⟩
      simp
  | cons n l ih =>
      obtain ⟨u, p, hu, hudefined, hume, hustack, huplace, hukinds, hunotes⟩ :=
        prompts_call hdefined hstack hcalling hplace hnote
      obtain ⟨t, ht, htdefined, htme, htstack, htkind, htkinds, htnotes⟩ :=
        ih hudefined hustack rfl huplace (hume ▸ hnote)
      refine ⟨t, hu.trans ht, htdefined, htme.trans hume, htstack, ?_, ?_, htnotes.trans hunotes⟩
      · refine htkind.trans ?_
        show ((kept ++ _) ++ l.filter fun n => answer ⟨w.kind, n⟩ note).map some = _
        cases h : answer ⟨w.kind, n⟩ note with
        | true => simp [h]
        | false => simp [h]
      · intro kind hkind
        exact (htkinds kind hkind).trans (hukinds kind hkind)

/-! ## Between the notifications -/

theorem Between.tick (h : Between s me ids (⟨point, none⟩ :: rest) ns) :
    s.step .tick = some (s.move rest (pointerFrame me point)) := by
  simp [Client.step, h.defined, h.stack, h.me]

theorem Between.goto (answer : Notifier → Notification → Bool) (h : Between s me ids (⟨point, none⟩ :: rest) ns)
    {next : Point}
    (hmove : pointerFrame me point = .goto next) :
    ∃ t, Prompts answer s t ∧ Between t me ids (⟨next, none⟩ :: rest) ns := by
  have htick := h.tick
  rw [hmove] at htick
  exact ⟨_, Relation.ReflTransGen.single (.tick htick), h.defined, h.me, h.vectors, rfl, h.notes⟩

theorem Between.finish (answer : Notifier → Notification → Bool)
    (h : Between s me ids (⟨point, none⟩ :: rest) ns) {entries : List Entry}
    (hmove : pointerFrame me point = .finish me' entries) (hentries : Reentrant.notes entries = []) :
    ∃ t, Prompts answer s t ∧ Between t me' ids rest ns := by
  have htick := h.tick
  rw [hmove] at htick
  refine ⟨_, Relation.ReflTransGen.single (.tick htick), h.defined, rfl, h.vectors, rfl, ?_⟩
  show Reentrant.notes (s.log ++ entries) = ns
  rw [notes_append, hentries, List.append_nil, h.notes]

theorem Between.notify (answer : Notifier → Notification → Bool)
    (h : Between s me ids (⟨point, none⟩ :: rest) ns) {next : Point} {subject : Subject}
    (hmove : pointerFrame me point = .notify me' next subject note) (hnote : subject.arguments me' = some note)
    (hkind : subject.kind = note.kind) :
    ∃ t, Prompts answer s t ∧ Between t me' (keepers answer ids note) (⟨next, none⟩ :: rest) (ns ++ [note]) := by
  have htick := h.tick
  rw [hmove] at htick
  have hvector : s.notifiers subject.kind = (ids note.kind).map some := by
    rw [hkind]
    exact h.vectors _
  obtain ⟨t, ht, hdefined, hme, hstack, hself, hothers, hnotes⟩ :=
    prompts_pass answer (s := s.move rest (.notify me' next subject note)) (ids note.kind) h.defined rfl rfl
      (by
        show Pass.At (s.notifiers subject.kind) (Pass.start (s.notifiers subject.kind)) [] _
        rw [hvector]
        exact Pass.at_start _)
      hnote
  refine ⟨t, Relation.ReflTransGen.head (.tick htick) ht, hdefined, hme, ?_, hstack, ?_⟩
  · intro kind
    unfold keepers
    by_cases hk : kind = note.kind
    · have hself : t.notifiers subject.kind =
          ((ids note.kind).filter fun n => answer ⟨subject.kind, n⟩ note).map some := hself
      rw [hkind] at hself
      rw [hk, Function.update_self]
      exact hself
    · rw [Function.update_of_ne hk, ← h.vectors kind]
      refine hothers kind ?_
      rw [← hkind] at hk
      exact hk
  · rw [hnotes]
    show Reentrant.notes (s.log ++ [.began _ note]) = _
    rw [notes_append, h.notes]
    rfl

/-! ## The blocks of `pointer_frame` -/

/-- The pending leave, where the pointer is on a surface. -/
theorem Between.leave (answer : Notifier → Notification → Bool) (h : Between s me ids (⟨.leave, none⟩ :: rest) ns)
    (hinside : me.pendingPointerLeave = true → me.currentPointerLocation.isSome = true) :
    ∃ t me', Prompts answer s t ∧
      Between t me' (me.leaveNotes.foldl (keepers answer) ids) (⟨.location, none⟩ :: rest) (ns ++ me.leaveNotes) ∧
      me'.toPointerTracking = ⟨if me.pendingPointerLeave then none else me.currentPointerLocation,
        me.pendingPointerLocation, false, me.pendingButtons⟩ := by
  unfold PointerTracking.leaveNotes
  cases hleave : me.pendingPointerLeave with
  | false =>
      have hmove : pointerFrame me .leave = .goto .location := by simp [pointerFrame, hleave]
      obtain ⟨t, ht, hbetween⟩ := h.goto answer hmove
      refine ⟨t, me, ht, by simpa using hbetween, ?_⟩
      show (⟨_, _, me.pendingPointerLeave, _⟩ : PointerTracking) = _
      rw [hleave]
      rfl
  | true =>
      obtain ⟨current, hcurrent⟩ := Option.isSome_iff_exists.mp (hinside hleave)
      have hmove : pointerFrame me .leave =
          .notify { me with currentPointerLocation := none, pendingPointerLeave := false } .location
            (.leave current.surface) (.leave current.surface) := by
        simp [pointerFrame, hleave, hcurrent]
      obtain ⟨t, ht, hbetween⟩ := h.notify answer hmove rfl rfl
      refine ⟨t, _, ht, by simpa [hcurrent] using hbetween, ?_⟩
      rfl

/-- The pending location, after the pending leave. -/
theorem Between.location (answer : Notifier → Notification → Bool)
    (h : Between s me ids (⟨.location, none⟩ :: rest) ns) (hleave : me.pendingPointerLeave = false) :
    ∃ t me', Prompts answer s t ∧
      Between t me' (me.moveNotes.foldl (keepers answer) ids) (⟨.buttons, none⟩ :: rest) (ns ++ me.moveNotes) ∧
      me'.toPointerTracking = ⟨me.committed, none, false, me.pendingButtons⟩ := by
  unfold PointerTracking.moveNotes PointerTracking.committed
  rw [hleave]
  cases hpending : me.pendingPointerLocation with
  | none =>
      have hmove : pointerFrame me .location = .goto .buttons := by simp [pointerFrame, hpending]
      obtain ⟨t, ht, hbetween⟩ := h.goto answer hmove
      refine ⟨t, me, ht, by simpa using hbetween, ?_⟩
      show (⟨_, me.pendingPointerLocation, me.pendingPointerLeave, _⟩ : PointerTracking) = _
      rw [hleave, hpending]
      rfl
  | some location =>
      have harrived : ∀ me' : Impl,
          me' = { me with currentPointerLocation := some location, pendingPointerLocation := none } →
          me'.toPointerTracking = ⟨some location, none, false, me.pendingButtons⟩ := by
        rintro _ rfl
        show (⟨_, _, me.pendingPointerLeave, _⟩ : PointerTracking) = _
        rw [hleave]
      cases hcurrent : me.currentPointerLocation with
      | none =>
          have hmove : pointerFrame me .location =
              .notify { me with currentPointerLocation := some location, pendingPointerLocation := none } .buttons
                (.enter location.surface location.coordinates) (.enter location.surface location.coordinates) := by
            simp [pointerFrame, hpending, hcurrent]
          obtain ⟨t, ht, hbetween⟩ := h.notify answer hmove rfl rfl
          exact ⟨t, _, ht, by simpa using hbetween, harrived _ rfl⟩
      | some current =>
          have hmove : pointerFrame me .location =
              .notify { me with currentPointerLocation := some location, pendingPointerLocation := none } .buttons
                (.motion location.coordinates) (.motion location.coordinates) := by
            simp [pointerFrame, hpending, hcurrent]
          obtain ⟨t, ht, hbetween⟩ := h.notify answer hmove rfl rfl
          exact ⟨t, _, ht, by simpa using hbetween, harrived _ rfl⟩

/-- The entry of a map after those that a loop has come past. -/
theorem nextButton_append {buttons : Std.TreeMap Nat (Nat × Bool)} {passed ahead : List (Nat × Nat × Bool)}
    (h : buttons.toList = passed ++ ahead) :
    nextButton buttons (passed.getLast?.map Prod.fst) = ahead.head? := by
  have hsorted : (passed ++ ahead).Pairwise fun a b => a.1 < b.1 := by
    rw [← h]
    exact OrdMap.toList_sorted buttons
  unfold nextButton
  rw [h]
  rcases List.eq_nil_or_concat passed with rfl | ⟨before, last, rfl⟩
  · cases ahead with
    | nil => rfl
    | cons b ahead => simp
  · rw [List.concat_eq_append] at hsorted ⊢
    obtain ⟨hpassed, -, hahead⟩ := List.pairwise_append.mp hsorted
    have hlast : (before ++ [last]).getLast?.map Prod.fst = some last.1 := by simp
    have hnone : (before ++ [last]).find? (fun button => (some last.1).all (· < button.1)) = none := by
      rw [List.find?_eq_none]
      intro button hbutton
      rcases List.mem_append.mp hbutton with hbutton | hbutton
      · have hlt := (List.pairwise_append.mp hpassed).2.2 button hbutton last List.mem_cons_self
        simp
        omega
      · simp [List.mem_singleton.mp hbutton]
    rw [hlast, List.find?_append, hnone, Option.none_or]
    cases ahead with
    | nil => rfl
    | cons b ahead =>
        have hlt := hahead last (by simp) b List.mem_cons_self
        simp [hlt]

/-- The loop over the buttons. -/
theorem Between.loop (answer : Notifier → Notification → Bool) (passed ahead : List (Nat × Nat × Bool))
    (hbuttons : me.pendingButtons.toList = passed ++ ahead)
    (h : Between s me ids (⟨.loop (passed.getLast?.map Prod.fst), none⟩ :: rest) ns) :
    ∃ t, Prompts answer s t ∧
      Between t me ((ahead.map fun b => .button b.2.1 b.1 b.2.2).foldl (keepers answer) ids) (⟨.clear, none⟩ :: rest)
        (ns ++ ahead.map fun b => .button b.2.1 b.1 b.2.2) := by
  have hpresent : ∀ passed ahead, me.pendingButtons.toList = passed ++ ahead →
      ¬ ((passed.getLast?.map Prod.fst).any fun code => !me.pendingButtons.contains code) = true := by
    intro passed ahead hbuttons
    cases hlast : passed.getLast? with
    | none => simp
    | some last =>
        have hmem : last ∈ me.pendingButtons.toList := by
          rw [hbuttons]
          exact List.mem_append_left _ (List.mem_of_getLast? hlast)
        have hget := Std.TreeMap.mem_toList_iff_getElem?_eq_some.mp (show (last.1, last.2) ∈ _ from hmem)
        have hcontains : me.pendingButtons.contains last.1 = true := by
          rw [Std.TreeMap.contains_eq_isSome_getElem?, hget]
          rfl
        simp [hcontains]
  induction ahead generalizing s passed ids ns with
  | nil =>
      have hmove : pointerFrame me (.loop (passed.getLast?.map Prod.fst)) = .goto .clear := by
        unfold pointerFrame
        dsimp only
        rw [if_neg (hpresent _ _ hbuttons), nextButton_append hbuttons]
        rfl
      obtain ⟨t, ht, hbetween⟩ := h.goto answer hmove
      exact ⟨t, ht, by simpa using hbetween⟩
  | cons b ahead ih =>
      have hmove : pointerFrame me (.loop (passed.getLast?.map Prod.fst)) =
          .notify me (.loop (some b.1)) (.button b.1) (.button b.2.1 b.1 b.2.2) := by
        unfold pointerFrame
        dsimp only
        rw [if_neg (hpresent _ _ hbuttons), nextButton_append hbuttons]
        rfl
      have hget : me.pendingButtons[b.1]? = some b.2 :=
        Std.TreeMap.mem_toList_iff_getElem?_eq_some.mp (by rw [hbuttons]; simp)
      have hnote : (Subject.button b.1).arguments me = some (.button b.2.1 b.1 b.2.2) := by
        show Option.map _ me.pendingButtons[b.1]? = _
        rw [hget]
        rfl
      obtain ⟨u, hu, hnotified⟩ := h.notify answer hmove hnote rfl
      obtain ⟨t, ht, hbetween⟩ := ih (passed ++ [b]) (by simpa using hbuttons) (by simpa using hnotified)
      refine ⟨t, hu.trans ht, ?_⟩
      simpa using hbetween

/-- The pending buttons. -/
theorem Between.buttons (answer : Notifier → Notification → Bool) (h : Between s me ids (⟨.buttons, none⟩ :: rest) ns) :
    ∃ t me' buttons, Prompts answer s t ∧
      Between t me' (me.buttonNotes.foldl (keepers answer) ids) rest (ns ++ me.buttonNotes) ∧
      buttons.isEmpty = true ∧ me'.toPointerTracking =
        ⟨me.currentPointerLocation, me.pendingPointerLocation, me.pendingPointerLeave, buttons⟩ := by
  unfold PointerTracking.buttonNotes
  cases hempty : me.pendingButtons.isEmpty with
  | true =>
      have hmove : pointerFrame me .buttons = .finish me [] := by simp [pointerFrame, hempty]
      have hnil : me.pendingButtons.toList = [] := by
        rwa [← List.isEmpty_iff, Std.TreeMap.isEmpty_toList]
      obtain ⟨t, ht, hbetween⟩ := h.finish answer hmove rfl
      exact ⟨t, me, me.pendingButtons, ht, by simpa [hnil] using hbetween, hempty, rfl⟩
  | false =>
      have hmove : pointerFrame me .buttons = .goto (.loop none) := by simp [pointerFrame, hempty]
      obtain ⟨u, hu, hloop⟩ := h.goto answer hmove
      obtain ⟨v, hv, hclear⟩ := Between.loop answer [] me.pendingButtons.toList rfl hloop
      obtain ⟨t, ht, hbetween⟩ := hclear.finish answer (show pointerFrame me .clear = _ from rfl) rfl
      exact ⟨t, _, {}, (hu.trans hv).trans ht, hbetween, rfl, rfl⟩

/-! ## The whole frame -/

/-- **An undisturbed frame** is one step of the client as `Impl.pointerFrame` takes it (`pointerFrame_step`), wherever
it is dispatched: among notifiers that all answer at once, `pointer_frame` returns to its caller, has told the
notifiers what the step tells them, and keeps those that answered `true`. -/
theorem frame_undisturbed (answer : Notifier → Notification → Bool) (hdefined : s.undefined = false)
    (hready : s.ready = true) (hvectors : ∀ kind, s.notifiers kind = (ids kind).map some) :
    ∃ u t failure notified, s.step (.event .frame) = some u ∧ Prompts answer u t ∧
      Between t t.me (notified.foldl (keepers answer) ids) s.stack (notes s.log ++ notified) ∧
      PointerStep s.me.toPointerTracking .frame t.me.toPointerTracking failure notified := by
  obtain ⟨u, hu, hstart⟩ : ∃ u, s.step (.event .frame) = some u ∧
      Between u s.me ids (⟨.leave, none⟩ :: s.stack) (notes s.log) := by
    refine ⟨{ s with stack := ⟨.leave, none⟩ :: s.stack }, ?_, hdefined, rfl, hvectors, rfl, rfl⟩
    simp [Client.step, hdefined, hready]
  by_cases hinside : s.me.pendingPointerLeave = true → s.me.currentPointerLocation.isSome = true
  · obtain ⟨l, me₁, hl, hleft, htracking₁⟩ := hstart.leave answer hinside
    obtain ⟨m, me₂, hm, hmoved, htracking₂⟩ := hleft.location answer (by rw [htracking₁])
    obtain ⟨t, me₃, buttons, ht, hclicked, hempty, htracking₃⟩ := hmoved.buttons answer
    have hcommitted : me₁.committed = s.me.committed := by
      unfold PointerTracking.committed
      rw [htracking₁]
      cases s.me.pendingPointerLeave <;> simp
    have hmoves : me₁.moveNotes = s.me.moveNotes := by
      unfold PointerTracking.moveNotes
      rw [htracking₁]
      cases s.me.pendingPointerLeave <;> simp
    have hclicks : me₂.buttonNotes = s.me.buttonNotes := by
      unfold PointerTracking.buttonNotes
      rw [htracking₂, htracking₁]
    have htracking : me₃.toPointerTracking = ⟨s.me.committed, none, false, buttons⟩ := by
      rw [htracking₃, htracking₂, hcommitted]
    rw [hmoves, hclicks, ← List.foldl_append, ← List.foldl_append, List.append_assoc, List.append_assoc,
      ← List.append_assoc] at hclicked
    have hme := hclicked.me
    subst hme
    refine ⟨u, t, none, _, hu, (hl.trans hm).trans ht, hclicked, ?_⟩
    rw [htracking]
    exact .frame hempty hinside
  · obtain ⟨hleave, hcurrent⟩ : s.me.pendingPointerLeave = true ∧ s.me.currentPointerLocation = none := by
      simpa using hinside
    have hmove : pointerFrame s.me .leave = .finish s.me [] := by simp [pointerFrame, hleave, hcurrent]
    obtain ⟨t, ht, hbetween⟩ := hstart.finish answer hmove rfl
    have hme := hbetween.me
    rw [← hme] at hbetween
    refine ⟨u, t, some .frameLeaveOutside, [], hu, ht, by simpa using hbetween, ?_⟩
    rw [hme]
    exact .frameFailed hleave hcurrent

end Steps

end Reentrant

end Wlcs
