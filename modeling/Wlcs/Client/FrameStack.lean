import Mathlib.Data.Nat.Basic
import Wlcs.Client.NotifierVectors

/-!
# The calls of `pointer_frame` under re-entrant dispatch

`Frames log me stack` : below the innermost call of `pointer_frame` there is none in the loop over the buttons, and the
entries of `pending_buttons` that have been notified are those that the loop of the innermost call has come past.
-/

namespace Wlcs.Reentrant
open EventMachine History StdVector

/-! ## The calls of `pointer_frame` -/

/-- Where `pointer_frame` goes on after a notification. -/
def Subject.resume : Subject → Point
  | .leave _ => .location
  | .enter .. | .motion _ => .buttons
  | .button code => .loop (some code)

/-- The entries of `pending_buttons` that have been notified. -/
def Point.passed (me : Impl) : Point → List Click
  | .loop iterator => (pendingClicks me).filter fun click => iterator.any (click.button ≤ ·)
  | .clear => pendingClicks me
  | _ => []

def passed (me : Impl) : List Activation → List Click
  | [] => []
  | act :: _ => act.point.passed me

structure Frames (log : List Entry) (me : Impl) (stack : List Activation) : Prop where
  suspended : ∀ act ∈ stack.tail, ∃ w, act.notifying = some w ∧ w.kind ≠ .button
  resumes : ∀ act ∈ stack, ∀ w, act.notifying = some w → act.point = w.subject.resume
  told : ∀ act ∈ stack, ∀ w, act.notifying = some w →
    ∃ note, w.subject.arguments me = some note ∧ .began w.number note ∈ log
  notified : clicksNotified log = passed me stack
  present : ∀ act ∈ stack.head?, ∀ code, act.point = .loop (some code) → me.pendingButtons.contains code = true

section Frames
variable {log : List Entry} {e : Entry} {me me' : Impl} {stack rest : List Activation} {point : Point} {w : Notifying}

theorem passed_resume {subject : Subject} (h : subject.kind ≠ .button) (me : Impl) :
    subject.resume.passed me = [] := by
  cases subject with
  | button code => exact absurd rfl h
  | _ => rfl

theorem arguments_congr {subject : Subject} (h : ∀ code, subject = .button code →
    me'.pendingButtons[code]? = me.pendingButtons[code]?) : subject.arguments me' = subject.arguments me := by
  cases subject with
  | button code =>
      show Option.map _ me'.pendingButtons[code]? = Option.map _ me.pendingButtons[code]?
      rw [h code rfl]
  | _ => rfl

/-- What a call of `pointer_frame` leaves to the one below it. -/
theorem Frames.passed_rest {act : Activation} (h : Frames log me (act :: rest)) (me' : Impl) : passed me' rest = [] := by
  cases rest with
  | nil => rfl
  | cons below rest =>
      obtain ⟨w, hw, hkind⟩ := h.suspended below List.mem_cons_self
      show below.point.passed me' = []
      rw [h.resumes below (by simp) w hw]
      exact passed_resume hkind me'

/-- The innermost call goes on with its notification, or comes to its end. -/
theorem Frames.turn (h : Frames log me (⟨point, some w⟩ :: rest)) {next : Option Notifying}
    (hnext : ∀ w', next = some w' → w'.subject = w.subject ∧ w'.number = w.number) (hcleared : e.isCleared = false)
    (hclick : e.click? = none) : Frames (log ++ [e]) me (⟨point, next⟩ :: rest) := by
  constructor
  · exact h.suspended
  · intro act hact w' hw'
    rcases List.mem_cons.mp hact with rfl | hact
    · rw [(hnext w' hw').1]
      exact h.resumes _ List.mem_cons_self w rfl
    · exact h.resumes act (List.mem_cons_of_mem _ hact) w' hw'
  · intro act hact w' hw'
    rcases List.mem_cons.mp hact with rfl | hact
    · obtain ⟨note, harguments, hbegan⟩ := h.told _ List.mem_cons_self w rfl
      rw [(hnext w' hw').1, (hnext w' hw').2]
      exact ⟨note, harguments, List.mem_append_left _ hbegan⟩
    · obtain ⟨note, harguments, hbegan⟩ := h.told act (List.mem_cons_of_mem _ hact) w' hw'
      exact ⟨note, harguments, List.mem_append_left _ hbegan⟩
  · rw [clicksNotified_concat, hcleared, if_neg Bool.false_ne_true, hclick, Option.toList_none, List.append_nil]
    exact h.notified
  · intro act hact code hcode
    obtain rfl := Option.some.inj hact
    exact h.present _ rfl code hcode

/-- An entry that has nothing to do with buttons. -/
theorem Frames.concat (h : Frames log me stack) (hcleared : e.isCleared = false) (hclick : e.click? = none) :
    Frames (log ++ [e]) me stack := by
  constructor
  · exact h.suspended
  · exact h.resumes
  · intro act hact w hw
    obtain ⟨note, harguments, hbegan⟩ := h.told act hact w hw
    exact ⟨note, harguments, List.mem_append_left _ hbegan⟩
  · rw [clicksNotified_concat, hcleared, if_neg Bool.false_ne_true, hclick, Option.toList_none, List.append_nil]
    exact h.notified
  · exact h.present

/-- `pointer_frame` is called, and not by a notifier of a button. -/
theorem Frames.push (h : Frames log me stack)
    (hcaller : ∀ act ∈ stack.head?, ∃ w, act.notifying = some w ∧ w.kind ≠ .button) :
    Frames log me (⟨.leave, none⟩ :: stack) := by
  have hsuspended : ∀ act ∈ stack, ∃ w, act.notifying = some w ∧ w.kind ≠ .button := by
    intro act hact
    cases stack with
    | nil => cases hact
    | cons top rest =>
        rcases List.mem_cons.mp hact with rfl | hact
        · exact hcaller act rfl
        · exact h.suspended act hact
  constructor
  · exact hsuspended
  · intro act hact w hw
    rcases List.mem_cons.mp hact with rfl | hact
    · cases hw
    · exact h.resumes act hact w hw
  · intro act hact w hw
    rcases List.mem_cons.mp hact with rfl | hact
    · cases hw
    · exact h.told act hact w hw
  · rw [h.notified]
    show passed me stack = []
    cases stack with
    | nil => rfl
    | cons top rest =>
        obtain ⟨w, hw, hkind⟩ := hcaller top rfl
        show top.point.passed me = []
        rw [h.resumes top List.mem_cons_self w hw]
        exact passed_resume hkind me
  · intro act hact code hcode
    obtain rfl := Option.some.inj hact
    cases hcode

/-- An event other than a frame is dispatched, which leaves alone what the loop over the buttons has come past. -/
theorem Frames.dispatch (h : Frames log me stack) (hcaller : ∀ act ∈ stack.head?, ∃ w, act.notifying = some w)
    (hbuttons : ∀ act ∈ stack.head?, ∀ iterator, act.point = .loop (some iterator) →
      ∀ code, code ≤ iterator → me'.pendingButtons[code]? = me.pendingButtons[code]?) :
    Frames log me' stack := by
  cases stack with
  | nil =>
      constructor
      · simp
      · simp
      · simp
      · exact h.notified
      · simp
  | cons top rest =>
      obtain ⟨w, hw⟩ := hcaller top rfl
      have hbuttons := hbuttons top rfl
      have hpoint := h.resumes top List.mem_cons_self w hw
      have hsubject : ∀ code, w.subject = .button code → top.point = .loop (some code) := by
        intro code hcode
        rw [hpoint, hcode]
        rfl
      constructor
      · exact h.suspended
      · exact h.resumes
      · intro act hact x hx
        obtain ⟨note, harguments, hbegan⟩ := h.told act hact x hx
        refine ⟨note, ?_, hbegan⟩
        rw [← harguments]
        apply arguments_congr
        intro code hcode
        rcases List.mem_cons.mp hact with rfl | hact
        · obtain rfl := Option.some.inj (hw.symm.trans hx)
          exact hbuttons code (hsubject code hcode) code (Nat.le_refl _)
        · obtain ⟨y, hy, hkind⟩ := h.suspended act hact
          obtain rfl := Option.some.inj (hy.symm.trans hx)
          exact absurd (congrArg Subject.kind hcode) hkind
      · rw [h.notified]
        show top.point.passed me = top.point.passed me'
        by_cases hkind : w.kind = .button
        · obtain ⟨iterator, hiterator⟩ : ∃ iterator, w.subject = .button iterator := by
            cases hs : w.subject with
            | button code => exact ⟨code, rfl⟩
            | _ =>
                unfold Notifying.kind at hkind
                rw [hs] at hkind
                cases hkind
          have hloop := hsubject iterator hiterator
          rw [hloop]
          unfold Point.passed pendingClicks
          dsimp only
          rw [List.filter_map, List.filter_map]
          apply congrArg (List.map _)
          exact OrdMap.filter_toList_congr (p := fun code => (some iterator).any (code ≤ ·)) fun code hcode =>
            (hbuttons iterator hloop code (by simpa using hcode)).symm
        · rw [hpoint, passed_resume hkind, passed_resume hkind]
      · intro act hact code hcode
        obtain rfl := Option.some.inj hact
        have := h.present _ rfl code hcode
        rw [Std.TreeMap.contains_eq_isSome_getElem?] at this ⊢
        rwa [hbuttons code hcode code (Nat.le_refl _)]

/-- The innermost call of `pointer_frame` goes on to another block. -/
theorem Frames.goto (h : Frames log me (⟨point, none⟩ :: rest)) {next : Point}
    (hpassed : next.passed me = point.passed me) (hloop : ∀ code, next ≠ .loop (some code)) :
    Frames log me (⟨next, none⟩ :: rest) := by
  constructor
  · exact h.suspended
  · intro act hact w hw
    rcases List.mem_cons.mp hact with rfl | hact
    · cases hw
    · exact h.resumes act (List.mem_cons_of_mem _ hact) w hw
  · intro act hact w hw
    rcases List.mem_cons.mp hact with rfl | hact
    · cases hw
    · exact h.told act (List.mem_cons_of_mem _ hact) w hw
  · rw [h.notified]
    exact hpassed.symm
  · intro act hact code hcode
    obtain rfl := Option.some.inj hact
    exact absurd hcode (hloop code)

/-- The innermost call of `pointer_frame` returns. -/
theorem Frames.finish (h : Frames log me (⟨point, none⟩ :: rest)) {entries : List Entry} (me' : Impl)
    (hclicks : clicksNotified (log ++ entries) = []) : Frames (log ++ entries) me' rest := by
  have hbelow : ∀ act ∈ rest, ∃ w, act.notifying = some w ∧ w.kind ≠ .button := h.suspended
  constructor
  · intro act hact
    exact hbelow act (List.mem_of_mem_tail hact)
  · intro act hact w hw
    exact h.resumes act (List.mem_cons_of_mem _ hact) w hw
  · intro act hact w hw
    obtain ⟨x, hx, hkind⟩ := hbelow act hact
    obtain rfl := Option.some.inj (hx.symm.trans hw)
    obtain ⟨note, harguments, hbegan⟩ := h.told act (List.mem_cons_of_mem _ hact) x hw
    refine ⟨note, ?_, List.mem_append_left _ hbegan⟩
    rw [← harguments]
    apply arguments_congr
    intro code hcode
    exact absurd (congrArg Subject.kind hcode) hkind
  · rw [hclicks, h.passed_rest]
  · intro act hact code hcode
    have hact := List.mem_of_mem_head? hact
    obtain ⟨w, hw, hkind⟩ := hbelow act hact
    rw [h.resumes act (List.mem_cons_of_mem _ hact) w hw] at hcode
    have : w.subject.kind = .button := by
      cases hs : w.subject with
      | button code => rfl
      | _ =>
          rw [hs] at hcode
          cases hcode
    exact absurd this hkind

/-- The innermost call of `pointer_frame` starts a notification. -/
theorem Frames.start (h : Frames log me (⟨point, none⟩ :: rest)) {subject : Subject} {note : Notification}
    (number : Nat) (p : Pass) (hbuttons : me'.pendingButtons = me.pendingButtons)
    (harguments : subject.arguments me' = some note)
    (hclicks : clicksNotified (log ++ [.began number note]) = subject.resume.passed me') :
    Frames (log ++ [.began number note]) me' (⟨subject.resume, some ⟨number, subject, p, none⟩⟩ :: rest) := by
  constructor
  · exact h.suspended
  · intro act hact w hw
    rcases List.mem_cons.mp hact with rfl | hact
    · obtain rfl := Option.some.inj hw
      rfl
    · exact h.resumes act (List.mem_cons_of_mem _ hact) w hw
  · intro act hact w hw
    rcases List.mem_cons.mp hact with rfl | hact
    · obtain rfl := Option.some.inj hw
      exact ⟨note, harguments, by simp⟩
    · obtain ⟨note', harguments', hbegan⟩ := h.told act (List.mem_cons_of_mem _ hact) w hw
      refine ⟨note', ?_, List.mem_append_left _ hbegan⟩
      rw [← harguments']
      apply arguments_congr
      intro code _
      rw [hbuttons]
  · exact hclicks
  · intro act hact code hcode
    obtain rfl := Option.some.inj hact
    have hsubject : subject = .button code := by
      cases subject with
      | button c => simpa [Subject.resume] using hcode
      | _ => cases hcode
    rw [hsubject] at harguments
    obtain ⟨pressed, hpressed, -⟩ := Option.map_eq_some_iff.mp harguments
    rw [Std.TreeMap.contains_eq_isSome_getElem?, hpressed]
    rfl

/-- The loop over the buttons comes to the next entry. -/
theorem passed_next {iterator : Option Nat} {code serial : Nat} {pressed : Bool}
    (h : nextButton me.pendingButtons iterator = some (code, serial, pressed)) :
    (Point.loop (some code)).passed me = (Point.loop iterator).passed me ++ [⟨serial, code, pressed⟩] := by
  have hahead : (fun button : Nat × Nat × Bool => iterator.all (· < button.1)) =
      fun button => !iterator.any (button.1 ≤ ·) := by
    funext button
    cases iterator with
    | none => rfl
    | some c => simp [← decide_not]
  unfold nextButton at h
  rw [hahead] at h
  have hfilter := OrdMap.filter_le_find? (p := fun k => iterator.any (k ≤ ·)) (OrdMap.toList_sorted _) ?_ h
  · unfold Point.passed pendingClicks
    dsimp only
    rw [List.filter_map, List.filter_map]
    show List.map _ (me.pendingButtons.toList.filter fun x => decide (x.1 ≤ code)) = _
    rw [hfilter, List.map_append]
    rfl
  · intro a b hab hb
    cases iterator with
    | none => cases hb
    | some c =>
        have hb : b ≤ c := of_decide_eq_true hb
        exact decide_eq_true (by omega)

theorem passed_last {iterator : Option Nat} (h : nextButton me.pendingButtons iterator = none) :
    (Point.loop iterator).passed me = pendingClicks me := by
  unfold Point.passed
  dsimp only
  rw [List.filter_eq_self]
  intro click hclick
  obtain ⟨entry, hentry, rfl⟩ := List.mem_map.mp hclick
  have := List.find?_eq_none.mp h entry hentry
  cases iterator with
  | none => exact absurd rfl this
  | some c => simpa using this

end Frames

end Wlcs.Reentrant
