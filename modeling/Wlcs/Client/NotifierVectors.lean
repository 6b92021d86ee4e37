import Wlcs.Client.Reentrant

/-!
# The notifier vectors under re-entrant dispatch

`Vectors log v ws` ties the notifier vectors `v` to the record and to the notifications `ws` under way, the innermost
first: a vector holds the notifiers of its kind that have not returned false, or is in the hands of the notifications of
that kind. Where there are several of these, none of them has removed anything. One lemma for each thing that can happen
to a notification says that this is kept: `start`, `call`, `keep`, `drop`, `erase`.
-/

namespace Wlcs.Reentrant
open EventMachine History StdVector

/-! ## One more entry of the record -/

section Log
variable (log : List Entry) (e : Entry)

@[simp] theorem begun_concat : begun (log ++ [e]) = begun log + if e.began?.isSome then 1 else 0 := by
  unfold begun
  rw [List.countP_append, List.countP_singleton]

@[simp] theorem registered_concat (kind : Kind) :
    registered (log ++ [e]) kind = registered log kind + if e = .registered kind then 1 else 0 := by
  unfold registered
  rw [List.count_append, List.count_singleton]
  simp

@[simp] theorem expired_concat (x : Notifier) : expired (log ++ [e]) x = (expired log x || e.expires x) := by
  simp [expired]

@[simp] theorem callsOf_concat (number : Nat) :
    callsOf number (log ++ [e]) = callsOf number log ++ (e.call? number).toList := by
  unfold callsOf
  rw [List.filterMap_append]
  cases h : e.call? number <;> simp [h]

theorem clicksNotified_concat :
    clicksNotified (log ++ [e]) = if e.isCleared then [] else clicksNotified log ++ e.click?.toList := by
  unfold clicksNotified
  rw [openGroup_concat]
  cases h : e.isCleared with
  | true => rfl
  | false =>
      rw [if_neg Bool.false_ne_true, if_neg Bool.false_ne_true, List.filterMap_append]
      cases hc : e.click? <;> simp [hc]

variable {log e}

theorem OneShot.concat (h : OneShot log)
    (hcalled : ∀ number x note, e = .called number x note →
      expired log x = false ∧ x ∉ callsOf number log ∧ .began number note ∈ log)
    (hended : ∀ number kind, e = .ended number kind → ∀ n < registered log kind,
      expired log ⟨kind, n⟩ = false → ⟨kind, n⟩ ∈ callsOf number log)
    (hcleared : ∀ clicks, e = .cleared clicks → clicksNotified log = clicks) : OneShot (log ++ [e]) := by
  constructor
  · intro pre number x note hp
    rcases concat_prefix_concat.mp hp with ⟨rfl, heq⟩ | hp
    · exact (hcalled number x note heq.symm).1
    · exact h.silent pre number x note hp
  · intro number
    rw [callsOf_concat]
    cases hx : e.call? number with
    | none => simpa using h.once number
    | some x =>
        have hnew : x ∉ callsOf number log := by
          cases e with
          | called n y note =>
              obtain ⟨rfl, rfl⟩ : n = number ∧ y = x := by simpa [Entry.call?] using hx
              exact (hcalled n y note rfl).2.1
          | _ => cases hx
        rw [Option.toList_some, List.nodup_append]
        refine ⟨h.once number, by simp, ?_⟩
        rintro a ha b hb rfl
        exact hnew (List.mem_singleton.mp hb ▸ ha)
  · intro number x note hmem
    rcases List.mem_append.mp hmem with hmem | hmem
    · exact List.mem_append_left _ (h.told number x note hmem)
    · exact List.mem_append_left _ (hcalled number x note (List.mem_singleton.mp hmem).symm).2.2
  · intro pre number kind hp
    rcases concat_prefix_concat.mp hp with ⟨rfl, heq⟩ | hp
    · exact hended number kind heq.symm
    · exact h.complete pre number kind hp
  · intro pre clicks hp
    rcases concat_prefix_concat.mp hp with ⟨rfl, heq⟩ | hp
    · exact hcleared clicks heq.symm
    · exact h.cleared pre clicks hp

end Log

/-! ## The notifiers that are left -/

/-- The notifiers of a kind that have not returned false, in the order of their registration. -/
def live (log : List Entry) (kind : Kind) : List Nat :=
  (List.range (registered log kind)).filter fun n => !expired log ⟨kind, n⟩

section Live
variable {log : List Entry} {e : Entry} {kind : Kind} {n : Nat}

theorem nodup_live (log : List Entry) (kind : Kind) : (live log kind).Nodup := List.nodup_range.filter _

theorem mem_live : n ∈ live log kind ↔ n < registered log kind ∧ expired log ⟨kind, n⟩ = false := by
  unfold live
  rw [List.mem_filter, List.mem_range, Bool.not_eq_true']

/-- An entry that is not about the kind. -/
theorem live_concat (hregistered : e ≠ .registered kind) (hexpires : ∀ n, e.expires ⟨kind, n⟩ = false) :
    live (log ++ [e]) kind = live log kind := by
  unfold live
  simp [hregistered, hexpires]

theorem live_registered (hnamed : expired log ⟨kind, registered log kind⟩ = false) :
    live (log ++ [.registered kind]) kind = live log kind ++ [registered log kind] := by
  unfold live
  rw [registered_concat, if_pos rfl, List.range_succ, List.filter_append]
  simp [Entry.expires, hnamed]

theorem live_returned (number : Nat) (kind : Kind) (x : Nat) :
    live (log ++ [.returned number ⟨kind, x⟩ false]) kind = (live log kind).filter (· ≠ x) := by
  unfold live
  rw [List.filter_filter, registered_concat, if_neg nofun]
  apply List.filter_congr
  intro n _
  simp [Entry.expires, eq_comm, Bool.and_comm]

end Live

/-! ## The notifier vectors -/

/-- A notification under way: it has kept `kept` and has `rest` ahead of it, which together with the notifier that is
running are those of its kind that have not returned false. -/
structure Following (log : List Entry) (v : List (Option Nat)) (w : Notifying) (kept rest : List Nat) : Prop where
  place : Pass.At v w.pass kept (w.calling.toList ++ rest)
  left : kept ++ w.calling.toList ++ rest = live log w.kind
  called : (callsOf w.number log).filter (fun x => !expired log x) =
    (kept ++ w.calling.toList).map (Notifier.mk w.kind)
  number : w.number < begun log

structure Vectors (log : List Entry) (v : Kind → List (Option Nat)) (ws : List Notifying) : Prop where
  named : ∀ kind n, expired log ⟨kind, n⟩ = true → n < registered log kind
  fresh : ∀ number, begun log ≤ number → callsOf number log = []
  idle : ∀ kind, (∀ w ∈ ws, w.kind ≠ kind) → v kind = (live log kind).map some
  follows : ∀ w ∈ ws, ∃ kept rest, Following log (v w.kind) w kept rest
  numbers : ws.Pairwise fun inner outer => inner.number ≠ outer.number
  whole : ws.Pairwise fun inner outer => inner.kind = outer.kind → inner.Whole ∧ outer.Whole

section Vectors
variable {log : List Entry} {e : Entry} {v : Kind → List (Option Nat)} {ws : List Notifying} {w : Notifying}
  {kept rest : List Nat} {n : Nat}

/-- An entry that is not about the notification. -/
theorem Following.concat {u : List (Option Nat)} (h : Following log u w kept rest)
    (hlive : live (log ++ [e]) w.kind = live log w.kind) (hexpires : ∀ x ∈ callsOf w.number log, e.expires x = false)
    (hcall : e.call? w.number = none) : Following (log ++ [e]) u w kept rest := by
  constructor
  · exact h.place
  · rw [hlive]
    exact h.left
  · rw [callsOf_concat, hcall, Option.toList_none, List.append_nil, ← h.called]
    apply List.filter_congr
    intro x hx
    rw [expired_concat, hexpires x hx, Bool.or_false]
  · rw [begun_concat]
    have := h.number
    omega

theorem Vectors.length (h : Vectors log v ws) (hw : w ∈ ws) : (v w.kind).length = w.pass.last := by
  obtain ⟨kept, rest, hf⟩ := h.follows w hw
  exact hf.place.last_eq.symm

/-- The innermost notification between two calls. -/
theorem Vectors.between (h : Vectors log v (w :: ws)) (hcalling : w.calling = none) :
    ∃ kept rest, Pass.At (v w.kind) w.pass kept rest ∧ kept ++ rest = live log w.kind ∧
      (callsOf w.number log).filter (fun x => !expired log x) = kept.map (Notifier.mk w.kind) ∧
      w.number < begun log := by
  obtain ⟨kept, rest, hplace, hleft, hcalled, hnumber⟩ := h.follows w List.mem_cons_self
  rw [hcalling, Option.toList_none, List.nil_append] at hplace
  rw [hcalling, Option.toList_none, List.append_nil] at hleft hcalled
  exact ⟨kept, rest, hplace, hleft, hcalled, hnumber⟩

/-- The innermost notification while a notifier is running. -/
theorem Vectors.running (h : Vectors log v (w :: ws)) (hcalling : w.calling = some n) :
    ∃ kept rest, Pass.At (v w.kind) w.pass kept (n :: rest) ∧ kept ++ n :: rest = live log w.kind ∧
      (callsOf w.number log).filter (fun x => !expired log x) = (kept ++ [n]).map (Notifier.mk w.kind) ∧
      w.number < begun log := by
  obtain ⟨kept, rest, hplace, hleft, hcalled, hnumber⟩ := h.follows w List.mem_cons_self
  rw [hcalling] at hplace hleft hcalled
  refine ⟨kept, rest, hplace, ?_, hcalled, hnumber⟩
  rw [← hleft, List.append_assoc]
  rfl

/-- A vector out of which nothing has been removed. -/
theorem Following.vector_eq {u : List (Option Nat)} (h : Following log u w kept rest) (hwhole : w.Whole) :
    u = (live log w.kind).map some := by
  rw [h.place.vector_eq hwhole, ← h.left, List.append_assoc]

/-- An entry that says nothing of a notifier. -/
theorem Vectors.concat (h : Vectors log v ws) (hregistered : ∀ kind, e ≠ .registered kind)
    (hexpires : ∀ x, e.expires x = false) (hcall : ∀ number, e.call? number = none) : Vectors (log ++ [e]) v ws := by
  have hlive : ∀ kind, live (log ++ [e]) kind = live log kind :=
    fun kind => live_concat (hregistered kind) fun n => hexpires _
  constructor
  · intro kind n hn
    rw [expired_concat, hexpires, Bool.or_false] at hn
    rw [registered_concat, if_neg (hregistered kind)]
    exact h.named kind n hn
  · intro number hnumber
    rw [begun_concat] at hnumber
    rw [callsOf_concat, hcall, h.fresh number (by omega)]
    rfl
  · intro kind hkind
    rw [hlive]
    exact h.idle kind hkind
  · intro w hw
    obtain ⟨kept, rest, hf⟩ := h.follows w hw
    exact ⟨kept, rest, hf.concat (hlive _) (fun x _ => hexpires x) (hcall _)⟩
  · exact h.numbers
  · exact h.whole

theorem Vectors.add (h : Vectors log v ws) {kind : Kind} (hkind : ∀ w ∈ ws, w.kind ≠ kind) :
    Vectors (log ++ [.registered kind]) (Function.update v kind (v kind ++ [some (registered log kind)])) ws := by
  have hother : ∀ k, k ≠ kind → live (log ++ [.registered kind]) k = live log k := by
    intro k hk
    refine live_concat ?_ fun _ => rfl
    intro heq
    exact hk (Entry.registered.inj heq).symm
  constructor
  · intro k n hn
    rw [expired_concat, show (Entry.registered kind).expires ⟨k, n⟩ = false from rfl, Bool.or_false] at hn
    have := h.named k n hn
    rw [registered_concat]
    omega
  · intro number hnumber
    rw [begun_concat] at hnumber
    rw [callsOf_concat, h.fresh number (by omega)]
    rfl
  · intro k hk
    by_cases heq : k = kind
    · subst heq
      have hnamed : expired log ⟨k, registered log k⟩ = false := by
        by_contra hne
        have := h.named k _ (Bool.of_not_eq_false hne)
        omega
      rw [Function.update_self, live_registered hnamed, h.idle k hk, List.map_append, List.map_singleton]
    · rw [Function.update_of_ne heq, hother k heq]
      exact h.idle k hk
  · intro w hw
    obtain ⟨kept, rest, hf⟩ := h.follows w hw
    rw [Function.update_of_ne (hkind w hw)]
    exact ⟨kept, rest, hf.concat (hother _ (hkind w hw)) (fun _ _ => rfl) rfl⟩
  · exact h.numbers
  · exact h.whole

theorem Vectors.start (h : Vectors log v ws) {subject : Subject} {note : Notification}
    (hwhole : ∀ w ∈ ws, w.kind = subject.kind → w.Whole) :
    Vectors (log ++ [.began (begun log) note]) v
      (⟨begun log, subject, Pass.start (v subject.kind), none⟩ :: ws) := by
  have hstart := h.concat (e := .began (begun log) note) nofun (fun _ => rfl) fun _ => rfl
  have hvector : v subject.kind = (live log subject.kind).map some := by
    by_cases hidle : ∀ w ∈ ws, w.kind ≠ subject.kind
    · exact h.idle _ hidle
    · obtain ⟨w, hw, hk⟩ : ∃ w ∈ ws, w.kind = subject.kind := by simpa using hidle
      obtain ⟨kept, rest, hf⟩ := h.follows w hw
      rw [← hk]
      exact hf.vector_eq (hwhole w hw hk)
  have hnumber : ∀ w ∈ ws, w.number < begun log := by
    intro w hw
    obtain ⟨kept, rest, hf⟩ := h.follows w hw
    exact hf.number
  constructor
  · exact hstart.named
  · exact hstart.fresh
  · intro kind hkind
    exact hstart.idle kind fun w hw => hkind w (List.mem_cons_of_mem _ hw)
  · intro w hw
    rcases List.mem_cons.mp hw with rfl | hw
    · refine ⟨[], live log subject.kind, ?_, ?_, ?_, ?_⟩
      · show Pass.At (v subject.kind) (Pass.start (v subject.kind)) [] (live log subject.kind)
        rw [hvector]
        exact Pass.at_start _
      · show live log subject.kind = live (log ++ [.began (begun log) note]) subject.kind
        exact (live_concat (e := .began (begun log) note) nofun fun _ => rfl).symm
      · rw [callsOf_concat, h.fresh _ (Nat.le_refl _)]
        rfl
      · rw [begun_concat]
        exact Nat.lt_succ_self _
    · exact hstart.follows w hw
  · refine List.pairwise_cons.mpr ⟨fun w hw => ?_, h.numbers⟩
    have := hnumber w hw
    show begun log ≠ w.number
    omega
  · refine List.pairwise_cons.mpr ⟨fun w hw hk => ⟨rfl, hwhole w hw hk.symm⟩, h.whole⟩

/-- The innermost notification goes on, and leaves the others alone. -/
theorem Vectors.advance (h : Vectors log v (w :: ws)) {t : Notifying} {u : List (Option Nat)}
    (hnumber : t.number = w.number) (hkind : t.kind = w.kind) (hregistered : ∀ kind, e ≠ .registered kind)
    (hexpires : ∀ x, e.expires x = true → x.kind = w.kind ∧ x.number ∈ live log w.kind)
    (hcall : ∀ number, number ≠ w.number → e.call? number = none)
    (hfollowing : ∃ kept rest, Following (log ++ [e]) u t kept rest)
    (hothers : ∀ o ∈ ws, o.kind = w.kind → u = v w.kind ∧ t.Whole ∧ ∀ x, e.expires x = false) :
    Vectors (log ++ [e]) (Function.update v w.kind u) (t :: ws) := by
  obtain ⟨hnumbers, hrest⟩ := List.pairwise_cons.mp h.numbers
  obtain ⟨hwhole, hwholes⟩ := List.pairwise_cons.mp h.whole
  obtain ⟨_, _, hf⟩ := h.follows w List.mem_cons_self
  have hlive : ∀ kind, kind ≠ w.kind → live (log ++ [e]) kind = live log kind := by
    intro kind hne
    refine live_concat (hregistered kind) fun n => ?_
    by_contra hn
    exact hne (hexpires _ (Bool.of_not_eq_false hn)).1
  constructor
  · intro kind n hn
    rw [registered_concat, if_neg (hregistered kind)]
    rw [expired_concat, Bool.or_eq_true] at hn
    rcases hn with hn | hn
    · exact h.named kind n hn
    · obtain ⟨hk, hmem⟩ := hexpires _ hn
      obtain rfl : kind = w.kind := hk
      exact (mem_live.mp hmem).1
  · intro number hbegun
    rw [begun_concat] at hbegun
    have hlt := hf.number
    rw [callsOf_concat, h.fresh number (by omega), hcall number (by omega)]
    rfl
  · intro kind hidle
    have hne : kind ≠ w.kind := fun heq => hidle t List.mem_cons_self (hkind.trans heq.symm)
    rw [Function.update_of_ne hne, hlive kind hne]
    refine h.idle kind fun o ho => ?_
    rcases List.mem_cons.mp ho with rfl | ho
    · exact hne.symm
    · exact hidle o (List.mem_cons_of_mem _ ho)
  · intro o ho
    rcases List.mem_cons.mp ho with rfl | ho
    · rw [hkind, Function.update_self]
      exact hfollowing
    · obtain ⟨kept, rest, hfo⟩ := h.follows o (List.mem_cons_of_mem _ ho)
      have hcall := hcall o.number (hnumbers o ho).symm
      refine ⟨kept, rest, ?_⟩
      by_cases hk : o.kind = w.kind
      · obtain ⟨hu, -, hnone⟩ := hothers o ho hk
        rw [hk, Function.update_self, hu, ← hk]
        exact hfo.concat (live_concat (hregistered _) fun _ => hnone _) (fun x _ => hnone x) hcall
      · rw [Function.update_of_ne hk]
        refine hfo.concat (hlive _ hk) (fun x hx => ?_) hcall
        -- what is called in the other notification and has not returned false is of the other kind
        by_contra hexp
        obtain ⟨hxk, hxn⟩ := hexpires x (Bool.of_not_eq_false hexp)
        have hmem : x ∈ (callsOf o.number log).filter fun x => !expired log x := by
          refine List.mem_filter.mpr ⟨hx, ?_⟩
          have := (mem_live.mp hxn).2
          rw [← hxk] at this
          simpa using this
        rw [hfo.called] at hmem
        obtain ⟨m, -, rfl⟩ := List.mem_map.mp hmem
        exact hk hxk
  · refine List.pairwise_cons.mpr ⟨fun o ho => ?_, hrest⟩
    rw [hnumber]
    exact hnumbers o ho
  · refine List.pairwise_cons.mpr ⟨fun o ho hk => ?_, hwholes⟩
    have hk : o.kind = w.kind := hk.symm.trans hkind
    exact ⟨(hothers o ho hk).2.1, (hwhole o ho hk.symm).2⟩

/-- `std::remove_if` comes to a notifier. -/
theorem Vectors.call (h : Vectors log v (w :: ws)) (hcalling : w.calling = none) (hlast : w.pass.first ≠ w.pass.last) :
    ∃ n, (v w.kind)[w.pass.first]?.join = some n ∧ expired log ⟨w.kind, n⟩ = false ∧
      ⟨w.kind, n⟩ ∉ callsOf w.number log ∧
      ∀ note, Vectors (log ++ [.called w.number ⟨w.kind, n⟩ note]) v ({ w with calling := some n } :: ws) := by
  obtain ⟨kept, rest, hplace, hleft, hcalled, hnumber⟩ := h.between hcalling
  obtain ⟨n, rest, rfl⟩ : ∃ n rest', rest = n :: rest' := by
    cases rest with
    | nil => exact absurd hplace.first_add hlast
    | cons n rest => exact ⟨n, rest, rfl⟩
  have hlive : n ∈ live log w.kind := by
    rw [← hleft]
    simp
  have hexpired : expired log ⟨w.kind, n⟩ = false := (mem_live.mp hlive).2
  have hnew : ⟨w.kind, n⟩ ∉ callsOf w.number log := by
    intro hmem
    -- a notifier that was called and has not returned false was kept
    have hkept : (⟨w.kind, n⟩ : Notifier) ∈ kept.map (Notifier.mk w.kind) := by
      rw [← hcalled]
      exact List.mem_filter.mpr ⟨hmem, by simp [hexpired]⟩
    obtain ⟨m, hm, heq⟩ := List.mem_map.mp hkept
    obtain rfl : m = n := congrArg Notifier.number heq
    have hnodup := nodup_live log w.kind
    rw [← hleft, List.nodup_append] at hnodup
    exact hnodup.2.2 m hm m List.mem_cons_self rfl
  refine ⟨n, by rw [hplace.get]; rfl, hexpired, hnew, fun note => ?_⟩
  have hadvance := h.advance (e := .called w.number ⟨w.kind, n⟩ note) (t := { w with calling := some n })
    (u := v w.kind) rfl rfl nofun nofun ?_ ⟨kept, rest, ?_⟩ ?_
  · rwa [Function.update_eq_self] at hadvance
  · intro number hne
    simp [Entry.call?, Ne.symm hne]
  · constructor
    · exact hplace
    · show kept ++ [n] ++ rest = live _ w.kind
      rw [live_concat (e := .called w.number ⟨w.kind, n⟩ note) nofun fun _ => rfl, ← hleft]
      simp
    · show (callsOf w.number (log ++ [.called w.number ⟨w.kind, n⟩ note])).filter _ =
        (kept ++ [n]).map (Notifier.mk w.kind)
      have hsame : ∀ x, expired (log ++ [.called w.number ⟨w.kind, n⟩ note]) x = expired log x := by
        intro x
        rw [expired_concat]
        exact Bool.or_false _
      simp only [hsame, callsOf_concat, Entry.call?, if_true, Option.toList_some, List.filter_append, hcalled,
        List.map_append]
      simp [hexpired]
    · rw [begun_concat]
      exact hnumber
  · intro o ho hk
    exact ⟨rfl, ((List.pairwise_cons.mp h.whole).1 o ho hk.symm).1, fun _ => rfl⟩

/-- The running notifier stays. -/
theorem Vectors.keep (h : Vectors log v (w :: ws)) (hcalling : w.calling = some n) :
    Vectors (log ++ [.returned w.number ⟨w.kind, n⟩ true]) (Function.update v w.kind (w.pass.moveKept (v w.kind)))
      ({ w with pass := w.pass.keep, calling := none } :: ws) := by
  obtain ⟨kept, rest, hplace, hleft, hcalled, hnumber⟩ := h.running hcalling
  have hexpires : ∀ x, (Entry.returned w.number ⟨w.kind, n⟩ true).expires x = false := by
    intro x
    simp [Entry.expires]
  refine h.advance rfl rfl nofun ?_ (fun _ _ => rfl) ⟨kept ++ [n], rest, ?_⟩ ?_
  · intro x hx
    rw [hexpires] at hx
    cases hx
  · constructor
    · exact hplace.keep
    · show kept ++ [n] ++ [] ++ rest = live _ w.kind
      rw [live_concat (e := .returned w.number ⟨w.kind, n⟩ true) nofun fun _ => hexpires _, ← hleft]
      simp
    · show (callsOf w.number (log ++ [.returned w.number ⟨w.kind, n⟩ true])).filter _ = (kept ++ [n] ++ []).map _
      simp only [expired_concat, hexpires, Bool.or_false, callsOf_concat, Entry.call?, Option.toList_none,
        List.append_nil]
      exact hcalled
    · rw [begun_concat]
      exact hnumber
  · intro o ho hk
    have hwhole : w.pass.result = w.pass.first := ((List.pairwise_cons.mp h.whole).1 o ho hk.symm).1
    refine ⟨?_, ?_, hexpires⟩
    · unfold Pass.moveKept
      rw [if_pos hwhole]
    · show w.pass.result + 1 = w.pass.first + 1
      omega

/-- The running notifier goes, where the notification is the only one of its kind. -/
theorem Vectors.drop (h : Vectors log v (w :: ws)) (hcalling : w.calling = some n)
    (halone : ∀ o ∈ ws, o.kind ≠ w.kind) :
    Vectors (log ++ [.returned w.number ⟨w.kind, n⟩ false]) v
      ({ w with pass := w.pass.drop, calling := none } :: ws) := by
  obtain ⟨kept, rest, hplace, hleft, hcalled, hnumber⟩ := h.running hcalling
  have hexpires : ∀ x, (Entry.returned w.number ⟨w.kind, n⟩ false).expires x = decide (⟨w.kind, n⟩ = x) := by
    intro x
    simp [Entry.expires]
  have hnodup := nodup_live log w.kind
  rw [← hleft] at hnodup
  have hkept : n ∉ kept := by
    intro hmem
    rw [List.nodup_append] at hnodup
    exact hnodup.2.2 n hmem n List.mem_cons_self rfl
  have hrest : n ∉ rest := by
    intro hmem
    rw [List.nodup_append, List.nodup_cons] at hnodup
    exact hnodup.2.1.1 hmem
  have hadvance := h.advance (e := .returned w.number ⟨w.kind, n⟩ false)
    (t := { w with pass := w.pass.drop, calling := none }) (u := v w.kind) rfl rfl nofun ?_ (fun _ _ => rfl)
    ⟨kept, rest, ?_⟩ ?_
  · rwa [Function.update_eq_self] at hadvance
  · intro x hx
    rw [hexpires] at hx
    obtain rfl := of_decide_eq_true hx
    refine ⟨rfl, ?_⟩
    rw [← hleft]
    simp
  · constructor
    · exact hplace.drop
    · show kept ++ [] ++ rest = live _ w.kind
      rw [live_returned, ← hleft]
      have hk : kept.filter (· ≠ n) = kept := List.filter_eq_self.mpr fun m hm => by
        simpa using fun heq : m = n => hkept (heq ▸ hm)
      have hr : rest.filter (· ≠ n) = rest := List.filter_eq_self.mpr fun m hm => by
        simpa using fun heq : m = n => hrest (heq ▸ hm)
      rw [List.filter_append, hk, List.filter_cons_of_neg (by simp), hr, List.append_nil]
    · have hsplit : (callsOf w.number log).filter (fun x => !expired (log ++ [.returned w.number ⟨w.kind, n⟩ false]) x) =
          ((callsOf w.number log).filter fun x => !expired log x).filter fun x => x ≠ ⟨w.kind, n⟩ := by
        rw [List.filter_filter]
        apply List.filter_congr
        intro x _
        rw [expired_concat, hexpires]
        simp [eq_comm, Bool.and_comm]
      have hk : (kept.map (Notifier.mk w.kind)).filter (fun x => x ≠ ⟨w.kind, n⟩) = kept.map (Notifier.mk w.kind) := by
        rw [List.filter_eq_self]
        intro x hx
        obtain ⟨m, hm, rfl⟩ := List.mem_map.mp hx
        have hne : m ≠ n := fun heq => hkept (heq ▸ hm)
        simp [hne]
      show (callsOf w.number (log ++ [.returned w.number ⟨w.kind, n⟩ false])).filter _ =
        (kept ++ []).map (Notifier.mk w.kind)
      rw [callsOf_concat, show Entry.call? w.number (.returned w.number ⟨w.kind, n⟩ false) = none from rfl,
        Option.toList_none, List.append_nil, hsplit, hcalled, List.map_append, List.filter_append, hk]
      simp
    · rw [begun_concat]
      exact hnumber
  · intro o ho hk
    exact absurd hk (halone o ho)

/-- `std::remove_if` ends, and what it has not kept is erased. -/
theorem Vectors.erase (h : Vectors log v (w :: ws)) (hcalling : w.calling = none) (hlast : w.pass.first = w.pass.last) :
    (∀ n < registered log w.kind, expired log ⟨w.kind, n⟩ = false → ⟨w.kind, n⟩ ∈ callsOf w.number log) ∧
      Vectors (log ++ [.ended w.number w.kind])
        (Function.update v w.kind ((v w.kind).take w.pass.result)) ws := by
  obtain ⟨kept, rest, hplace, hleft, hcalled, -⟩ := h.between hcalling
  obtain rfl : rest = [] := by
    have := hplace.first_add
    exact List.eq_nil_of_length_eq_zero (by omega)
  rw [List.append_nil] at hleft
  have hcalls : ∀ n < registered log w.kind, expired log ⟨w.kind, n⟩ = false →
      ⟨w.kind, n⟩ ∈ callsOf w.number log := by
    intro n hn hexpired
    have hmem : (⟨w.kind, n⟩ : Notifier) ∈ kept.map (Notifier.mk w.kind) := by
      rw [hleft]
      exact List.mem_map_of_mem (mem_live.mpr ⟨hn, hexpired⟩)
    rw [← hcalled] at hmem
    exact (List.mem_filter.mp hmem).1
  have hended := h.concat (e := .ended w.number w.kind) nofun (fun _ => rfl) fun _ => rfl
  have hlive : live (log ++ [.ended w.number w.kind]) w.kind = live log w.kind := live_concat nofun fun _ => rfl
  refine ⟨hcalls, ?_⟩
  constructor
  · exact hended.named
  · exact hended.fresh
  · intro kind hidle
    by_cases hk : kind = w.kind
    · subst hk
      rw [Function.update_self, hplace.erase, hleft, hlive]
    · rw [Function.update_of_ne hk]
      refine hended.idle kind fun o ho => ?_
      rcases List.mem_cons.mp ho with rfl | ho
      · exact Ne.symm hk
      · exact hidle o ho
  · intro o ho
    obtain ⟨kept', rest', hfo⟩ := hended.follows o (List.mem_cons_of_mem _ ho)
    refine ⟨kept', rest', ?_⟩
    by_cases hk : o.kind = w.kind
    · -- another one of the kind has removed nothing, and there was nothing to erase
      have hwhole := ((List.pairwise_cons.mp h.whole).1 o ho hk.symm).1
      have hsame : Function.update v w.kind ((v w.kind).take w.pass.result) o.kind = v o.kind := by
        rw [hk, Function.update_self, hplace.erase, ← List.append_nil kept, ← hplace.vector_eq hwhole]
      rw [hsame]
      exact hfo
    · rw [Function.update_of_ne hk]
      exact hfo
  · exact (List.pairwise_cons.mp h.numbers).2
  · exact (List.pairwise_cons.mp h.whole).2

end Vectors

end Wlcs.Reentrant
