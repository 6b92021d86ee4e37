import Wlcs.Lib.History

/-!
# Machines driven by a list of events

* `Transducer` : a machine that accepts every event and answers each with an output. `run` is the
  state after a list of events, `outputs` the answers; `Clean bad` says that no answer was `bad`.
* `Guarded` : a machine whose actions may be disabled. `exec` is the state after a list of actions,
  if every one of them was enabled.

The induction rules `clean_induction` and `exec_induction` relate the state to the whole history, so
that an invariant may speak of the events received so far. `Along P` says that `P` allows every action of
a run; `along_induction` is the rule for the invariants of such runs.
-/

namespace EventMachine

/-- A machine that answers every event with an output. -/
structure Transducer (S E O : Type*) where
  step : S → E → S × O

namespace Transducer
variable {S E O : Type*} (M : Transducer S E O)

def run (s : S) (es : List E) : S := es.foldl (fun s e => (M.step s e).1) s

def outputs (s : S) : List E → List O
  | [] => []
  | e :: es => (M.step s e).2 :: outputs (M.step s e).1 es

@[simp] theorem run_nil (s : S) : M.run s [] = s := rfl

@[simp] theorem run_concat (s : S) (es : List E) (e : E) :
    M.run s (es ++ [e]) = (M.step (M.run s es) e).1 := by
  simp [run, List.foldl_append]

@[simp] theorem outputs_nil (s : S) : M.outputs s [] = [] := rfl

@[simp] theorem outputs_concat (s : S) (es : List E) (e : E) :
    M.outputs s (es ++ [e]) = M.outputs s es ++ [(M.step (M.run s es) e).2] := by
  induction es generalizing s with
  | nil => rfl
  | cons x es ih =>
      simp only [List.cons_append, outputs, ih]
      rfl

/-- No output of the run is `bad`. -/
def Clean (bad : O → Prop) (s : S) (es : List E) : Prop := ∀ o ∈ M.outputs s es, ¬ bad o

instance (bad : O → Prop) [DecidablePred bad] (s : S) (es : List E) : Decidable (M.Clean bad s es) :=
  inferInstanceAs (Decidable (∀ o ∈ M.outputs s es, ¬ bad o))

variable {M} {bad : O → Prop} {s : S} {es : List E}

theorem clean_nil : M.Clean bad s [] := fun o h => by simp at h

theorem clean_concat {e : E} :
    M.Clean bad s (es ++ [e]) ↔ M.Clean bad s es ∧ ¬ bad (M.step (M.run s es) e).2 := by
  simp only [Clean, outputs_concat, List.mem_append, List.mem_singleton]
  constructor
  · intro h
    exact ⟨fun o ho => h o (Or.inl ho), h _ (Or.inr rfl)⟩
  · rintro ⟨h, he⟩ o (ho | rfl)
    · exact h o ho
    · exact he

/-- An invariant of the clean runs. -/
theorem clean_induction {P : List E → S → Prop} (init : P [] s)
    (step : ∀ es e, P es (M.run s es) → ¬ bad (M.step (M.run s es) e).2 →
      P (es ++ [e]) (M.step (M.run s es) e).1)
    (h : M.Clean bad s es) : P es (M.run s es) := by
  induction es using List.reverseRecOn with
  | nil => exact init
  | append_singleton es e ih =>
      obtain ⟨hes, he⟩ := clean_concat.mp h
      rw [run_concat]
      exact step es e (ih hes) he

/-- A run is clean exactly when no event of it meets a condition `C` on the history before it, provided `C` tells
the bad answers apart after the clean prefixes of the run. -/
theorem clean_iff_forall_step {C : List E → E → Prop}
    (hC : ∀ pre e, pre ++ [e] <+: es → M.Clean bad s pre → (bad (M.step (M.run s pre) e).2 ↔ C pre e)) :
    M.Clean bad s es ↔ ∀ pre e, pre ++ [e] <+: es → ¬ C pre e := by
  induction es using List.reverseRecOn with
  | nil =>
      simp only [clean_nil, true_iff]
      intro pre e h
      simpa using h.length_le
  | append_singleton es e ih =>
      have ih := ih fun pre x hx => hC pre x (hx.trans (List.prefix_append _ _))
      rw [clean_concat]
      constructor
      · rintro ⟨hes, he⟩ pre x hx
        rcases History.concat_prefix_concat.mp hx with ⟨rfl, rfl⟩ | hpre
        · rwa [← hC pre x hx hes]
        · exact ih.mp hes pre x hpre
      · intro h
        have hes : M.Clean bad s es := ih.mpr fun pre x hx => h pre x (hx.trans (List.prefix_append _ _))
        exact ⟨hes, fun hb => h es e (List.prefix_refl _) ((hC es e (List.prefix_refl _) hes).mp hb)⟩

theorem Clean.restrict {pre : List E} (h : M.Clean bad s es) (hp : pre <+: es) :
    M.Clean bad s pre := by
  induction es using List.reverseRecOn with
  | nil => rwa [List.prefix_nil.mp hp]
  | append_singleton es e ih =>
      rcases List.prefix_concat_iff.mp hp with rfl | hp
      · exact h
      · exact ih (clean_concat.mp h).1 hp

end Transducer

/-- A fold that succeeds has succeeded on every prefix. -/
theorem foldlM_restrict {S E : Type*} {next : S → E → Option S} {s t : S} {es pre : List E}
    (h : es.foldlM next s = some t) (hp : pre <+: es) : ∃ u, pre.foldlM next s = some u := by
  obtain ⟨rest, rfl⟩ := hp
  rw [List.foldlM_append] at h
  obtain ⟨u, hu, -⟩ := Option.bind_eq_some_iff.mp h
  exact ⟨u, hu⟩

/-- A machine whose actions may be disabled. -/
structure Guarded (S A : Type*) where
  step : S → A → Option S

namespace Guarded
variable {S A : Type*} (M : Guarded S A)

def exec (s : S) : List A → Option S
  | [] => some s
  | a :: as => (M.step s a).bind (exec · as)

@[simp] theorem exec_nil (s : S) : M.exec s [] = some s := rfl

theorem exec_append (s : S) (as bs : List A) : M.exec s (as ++ bs) = (M.exec s as).bind (M.exec · bs) := by
  induction as generalizing s with
  | nil => rfl
  | cons a as ih =>
      simp only [List.cons_append, exec]
      cases M.step s a with
      | none => rfl
      | some t => exact ih t

theorem exec_concat (s : S) (as : List A) (a : A) : M.exec s (as ++ [a]) = (M.exec s as).bind (M.step · a) := by
  rw [exec_append]
  congr 1
  funext t
  simp [exec]

/-- A prefix of a run is a run. -/
theorem exec_concat_eq_some {s t : S} {as : List A} {a : A} (h : M.exec s (as ++ [a]) = some t) :
    ∃ u, M.exec s as = some u ∧ M.step u a = some t := by
  rw [exec_concat] at h
  exact Option.bind_eq_some_iff.mp h

/-- The step that a run takes after a prefix. -/
theorem exec_next {s t u : S} {as pre : List A} {a : A} (h : M.exec s as = some t) (hp : pre ++ [a] <+: as)
    (hu : M.exec s pre = some u) : ∃ v, M.step u a = some v ∧ M.exec s (pre ++ [a]) = some v := by
  obtain ⟨rest, rfl⟩ := hp
  rw [exec_append] at h
  obtain ⟨v, hv, -⟩ := Option.bind_eq_some_iff.mp h
  refine ⟨v, ?_, hv⟩
  rwa [exec_concat, hu] at hv

/-- An invariant that may mention the history holds after every run. -/
theorem exec_induction {s : S} {P : List A → S → Prop} (init : P [] s)
    (step : ∀ as u a t, M.exec s as = some u → P as u → M.step u a = some t → P (as ++ [a]) t) :
    ∀ (as : List A) (t : S), M.exec s as = some t → P as t := by
  intro as
  induction as using List.reverseRecOn with
  | nil =>
      intro t h
      rw [exec_nil, Option.some.injEq] at h
      exact h ▸ init
  | append_singleton as a ih =>
      intro t h
      obtain ⟨u, hu, ht⟩ := M.exec_concat_eq_some h
      exact step as u a t hu (ih u hu) ht

/-- Each action of the run is one that `P` allows in the state in which it is taken. -/
def Along (P : S → A → Prop) (s : S) (as : List A) : Prop :=
  ∀ pre a u, pre ++ [a] <+: as → M.exec s pre = some u → P u a

theorem along_concat {P : S → A → Prop} {s : S} {as : List A} {a : A} :
    M.Along P s (as ++ [a]) ↔ M.Along P s as ∧ ∀ u, M.exec s as = some u → P u a := by
  constructor
  · intro h
    exact ⟨fun pre b u hpre => h pre b u (hpre.trans (List.prefix_append _ _)), fun u => h as a u (List.prefix_refl _)⟩
  · rintro ⟨has, ha⟩ pre b u hpre hu
    rcases History.concat_prefix_concat.mp hpre with ⟨rfl, rfl⟩ | hpre
    · exact ha u hu
    · exact has pre b u hpre hu

variable {M} in
theorem Along.restrict {P : S → A → Prop} {s : S} {as pre : List A} (h : M.Along P s as) (hp : pre <+: as) :
    M.Along P s pre :=
  fun pre' a u hpre => h pre' a u (hpre.trans hp)

theorem along_nil {P : S → A → Prop} {s : S} : M.Along P s [] := by
  intro pre a u hpre
  simpa using hpre.length_le

theorem along_cons {P : S → A → Prop} {s : S} {a : A} {as : List A} :
    M.Along P s (a :: as) ↔ P s a ∧ ∀ t, M.step s a = some t → M.Along P t as := by
  constructor
  · intro h
    refine ⟨h [] a s ⟨as, rfl⟩ rfl, fun t ht pre b u hpre hu => ?_⟩
    refine h (a :: pre) b u ((List.prefix_cons_inj a).mpr hpre) ?_
    rw [exec, ht]
    exact hu
  · rintro ⟨ha, has⟩ pre b u hpre hu
    cases pre with
    | nil =>
        obtain ⟨rfl, -⟩ : b = a ∧ [] <+: as := by simpa using hpre
        obtain rfl := Option.some.inj hu
        exact ha
    | cons c pre =>
        obtain ⟨rfl, hrest⟩ := List.cons_prefix_cons.mp hpre
        obtain ⟨t, ht, hu⟩ := Option.bind_eq_some_iff.mp hu
        exact has t ht pre b u hrest hu

/-- A run goes on from the state after its first step. -/
theorem exec_step {s t : S} {a : A} (h : M.step s a = some t) (as : List A) : M.exec s (a :: as) = M.exec t as := by
  rw [exec, h, Option.bind_some]

theorem along_step {P : S → A → Prop} {s t : S} {a : A} {as : List A} (h : M.step s a = some t) :
    M.Along P s (a :: as) ↔ P s a ∧ M.Along P t as := by
  rw [along_cons, h]
  constructor
  · rintro ⟨ha, has⟩
    exact ⟨ha, has t rfl⟩
  · rintro ⟨ha, has⟩
    refine ⟨ha, fun u hu => ?_⟩
    obtain rfl := Option.some.inj hu
    exact has

instance decidableAlong (P : S → A → Prop) [∀ s a, Decidable (P s a)] :
    ∀ (s : S) (as : List A), Decidable (M.Along P s as)
  | _, [] => isTrue M.along_nil
  | s, a :: as =>
    match h : M.step s a with
    | none => decidable_of_iff (P s a) (by simp [along_cons, h])
    | some t =>
      have := decidableAlong P t as
      decidable_of_iff (P s a ∧ M.Along P t as) (by simp [along_cons, h])

/-- An invariant of the runs whose actions are all allowed. -/
theorem along_induction {P : S → A → Prop} {I : S → Prop} {s : S} (init : I s)
    (step : ∀ u a t, I u → P u a → M.step u a = some t → I t) {as : List A} {t : S} (hP : M.Along P s as)
    (h : M.exec s as = some t) : I t := by
  refine M.exec_induction (P := fun as t => M.Along P s as → I t) (fun _ => init) ?_ as t h hP
  intro as u a t hu ih ht hP
  obtain ⟨has, ha⟩ := M.along_concat.mp hP
  exact step u a t (ih has) (ha u hu) ht

/-! ### Runs that come to rest

`internal` tells the machine's own actions from those of its environment. -/

section Rest
variable {M} {I : S → Prop} {internal : A → Prop} {work : S → Nat}

/-- A run of internal actions, each of which does one unit of work, is no longer than the work there is. -/
theorem exec_length (hI : ∀ s a t, I s → internal a → M.step s a = some t → I t)
    (hwork : ∀ s a t, I s → internal a → M.step s a = some t → work t + 1 = work s) {s t : S} (hs : I s)
    {as : List A} (hinternal : ∀ a ∈ as, internal a) (h : M.exec s as = some t) :
    I t ∧ as.length + work t = work s := by
  induction as generalizing s with
  | nil =>
      obtain rfl := Option.some.inj h
      exact ⟨hs, Nat.zero_add _⟩
  | cons a as ih =>
      obtain ⟨u, hu, ht⟩ := Option.bind_eq_some_iff.mp h
      have ha := hinternal a List.mem_cons_self
      obtain ⟨hIt, hlen⟩ := ih (hI s a u hs ha hu) (fun b hb => hinternal b (List.mem_cons_of_mem _ hb)) ht
      have hone := hwork s a u hs ha hu
      refine ⟨hIt, ?_⟩
      rw [List.length_cons]
      omega

/-- If an internal action is enabled as long as there is work, internal actions bring the machine to rest. -/
theorem exec_to_rest (hI : ∀ s a t, I s → internal a → M.step s a = some t → I t)
    (hwork : ∀ s a t, I s → internal a → M.step s a = some t → work t + 1 = work s)
    (hprogress : ∀ s, I s → work s ≠ 0 → ∃ a t, internal a ∧ M.step s a = some t) {s : S} (hs : I s) :
    ∃ as t, (∀ a ∈ as, internal a) ∧ M.exec s as = some t ∧ work t = 0 := by
  induction hn : work s generalizing s with
  | zero => exact ⟨[], s, fun a ha => (by cases ha), rfl, hn⟩
  | succ n ih =>
      obtain ⟨a, u, ha, hu⟩ := hprogress s hs (by omega)
      have hone := hwork s a u hs ha hu
      obtain ⟨as, t, has, ht, hrest⟩ := ih (hI s a u hs ha hu) (by omega)
      refine ⟨a :: as, t, fun b hb => ?_, ?_, hrest⟩
      · rcases List.mem_cons.mp hb with rfl | hb
        · exact ha
        · exact has b hb
      · rw [M.exec_step hu, ht]

end Rest

end Guarded

end EventMachine
