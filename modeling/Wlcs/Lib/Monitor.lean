import Mathlib.Data.List.Induction

/-!
# Monitors of a trace

A monitor follows a trace through the events that concern it, and gives up at the first that it does not expect. What is
known of its stages is then known of the trace:

* `watch_count` : the stage reached says how often each kind of event has occurred;
* `watch_at` : an event occurred at a stage that allows it.
-/

/-- `next l k` is the stage after an event of kind `k` at stage `l`, if it may occur there. -/
structure Monitor (L K : Type*) where
  start : L
  next : L → K → Option L

namespace Monitor
variable {L K E : Type*} (M : Monitor L K) (observe : E → Option K)

/-- An event that is not observed changes nothing. -/
def advance (l : L) (e : E) : Option L := (observe e).elim (some l) (M.next l)

/-- The stage after a trace, if every observed event was allowed. -/
def watch (trace : List E) : Option L := trace.foldlM (M.advance observe) M.start

@[simp] theorem watch_nil : M.watch observe [] = some M.start := rfl

theorem watch_append (trace more : List E) :
    M.watch observe (trace ++ more) = (M.watch observe trace).bind fun l => more.foldlM (M.advance observe) l := by
  simp [watch, List.foldlM_append]

theorem watch_concat (trace : List E) (e : E) :
    M.watch observe (trace ++ [e]) = (M.watch observe trace).bind (M.advance observe · e) := by
  simp [watch_append]

variable {M observe} {trace : List E} {e : E} {k : K} {l : L}

theorem watch_concat_other (he : observe e = none) : M.watch observe (trace ++ [e]) = M.watch observe trace := by
  rw [watch_concat]
  simp [advance, he]

theorem watch_concat_observed (h : M.watch observe trace = some l) (he : observe e = some k) :
    M.watch observe (trace ++ [e]) = M.next l k := by
  rw [watch_concat, h]
  simp [advance, he]

/-- An observed event took place at a stage that allows it. -/
theorem watch_at {pre post : List E} (h : M.watch observe (pre ++ e :: post) = some l) (he : observe e = some k) :
    ∃ a b, M.watch observe pre = some a ∧ M.next a k = some b := by
  rw [watch_append] at h
  obtain ⟨a, ha, hpost⟩ := Option.bind_eq_some_iff.mp h
  rw [List.foldlM_cons] at hpost
  obtain ⟨b, hb, -⟩ := Option.bind_eq_some_iff.mp hpost
  refine ⟨a, b, ha, ?_⟩
  simpa [advance, he] using hb

/-- If each event adds one to the tally of its kind, the tally counts the events. -/
theorem watch_count [DecidableEq K] (tally : L → K → Nat) (hstart : ∀ k, tally M.start k = 0)
    (hnext : ∀ a k b, M.next a k = some b → ∀ j, tally b j = tally a j + if j = k then 1 else 0)
    (h : M.watch observe trace = some l) (k : K) : trace.countP (fun e => observe e = some k) = tally l k := by
  induction trace using List.reverseRecOn generalizing l with
  | nil =>
      rw [watch_nil, Option.some.injEq] at h
      rw [← h, hstart, List.countP_nil]
  | append_singleton trace e ih =>
      rw [watch_concat] at h
      obtain ⟨a, ha, hadvance⟩ := Option.bind_eq_some_iff.mp h
      rw [List.countP_append, ih ha]
      cases he : observe e with
      | none =>
          obtain rfl : a = l := by simpa [advance, he] using hadvance
          simp [he]
      | some j =>
          have hj : M.next a j = some l := by simpa [advance, he] using hadvance
          rw [hnext a j l hj k]
          by_cases hk : k = j
          · simp [he, hk]
          · simp [he, hk, Ne.symm hk]

end Monitor
