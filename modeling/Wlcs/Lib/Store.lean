import Mathlib.Logic.Function.Basic

/-!
# Memory as a store

What lives at an address, as a partial function: `Function.update m a (some v)` puts something there, and
`Function.update m a none` takes it away.

* `put_eq_some_iff`, `take_eq_some_iff` : what lives there afterwards;
* `put_of_free` : the rest stays where it was if the address was free;
* `Numbered` : what lives has numbers that were handed out by a counter, each of them once.
-/

namespace Store
variable {α : Type*} {β : Type*} [DecidableEq α] {m : α → Option β} {a b : α} {v w : β}

theorem put_eq_some_iff :
    Function.update m a (some v) b = some w ↔ b = a ∧ v = w ∨ b ≠ a ∧ m b = some w := by
  by_cases h : b = a
  · subst h
    rw [Function.update_self, Option.some.injEq]
    simp
  · rw [Function.update_of_ne h]
    simp [h]

theorem take_eq_some_iff : Function.update m a none b = some w ↔ b ≠ a ∧ m b = some w := by
  by_cases h : b = a
  · subst h
    rw [Function.update_self]
    simp
  · rw [Function.update_of_ne h]
    simp [h]

omit [DecidableEq α] in
theorem ne_of_free (ha : m a = none) (hb : m b = some w) : b ≠ a := by
  rintro rfl
  rw [ha] at hb
  cases hb

theorem put_of_free (ha : m a = none) (hb : m b = some w) : Function.update m a (some v) b = some w :=
  put_eq_some_iff.mpr (Or.inr ⟨ne_of_free ha hb, hb⟩)

/-- The numbers are below the counter, and no two addresses have the same. -/
structure Numbered (number : β → Nat) (count : Nat) (m : α → Option β) : Prop where
  lt : ∀ a v, m a = some v → number v < count
  inj : ∀ a b v w, m a = some v → m b = some w → number v = number w → a = b

section Numbered
variable {number : β → Nat} {count : Nat}

/-- The next number is handed out. -/
theorem Numbered.put (h : Numbered number count m) (hv : number v = count) :
    Numbered number (count + 1) (Function.update m a (some v)) where
  lt b w hb := by
    rcases put_eq_some_iff.mp hb with ⟨-, rfl⟩ | ⟨-, hb⟩
    · omega
    · exact Nat.lt_succ_of_lt (h.lt b w hb)
  inj b c w x hb hc heq := by
    rcases put_eq_some_iff.mp hb with ⟨rfl, rfl⟩ | ⟨-, hb⟩
    · rcases put_eq_some_iff.mp hc with ⟨rfl, -⟩ | ⟨-, hc⟩
      · rfl
      · have := h.lt c x hc
        omega
    · rcases put_eq_some_iff.mp hc with ⟨-, rfl⟩ | ⟨-, hc⟩
      · have := h.lt b w hb
        omega
      · exact h.inj b c w x hb hc heq

/-- What lives at an address changes and keeps its number. -/
theorem Numbered.replace (h : Numbered number count m) (ha : m a = some w) (hv : number v = number w) :
    Numbered number count (Function.update m a (some v)) := by
  have hbefore : ∀ b x, Function.update m a (some v) b = some x → ∃ y, m b = some y ∧ number x = number y := by
    intro b x hb
    rcases put_eq_some_iff.mp hb with ⟨rfl, rfl⟩ | ⟨-, hb⟩
    · exact ⟨w, ha, hv⟩
    · exact ⟨x, hb, rfl⟩
  constructor
  · intro b x hb
    obtain ⟨y, hy, hnumber⟩ := hbefore b x hb
    rw [hnumber]
    exact h.lt b y hy
  · intro b c x x' hb hc heq
    obtain ⟨y, hy, hnumber⟩ := hbefore b x hb
    obtain ⟨y', hy', hnumber'⟩ := hbefore c x' hc
    exact h.inj b c y y' hy hy' (by rw [← hnumber, ← hnumber', heq])

theorem Numbered.take (h : Numbered number count m) (a : α) : Numbered number count (Function.update m a none) where
  lt b w hb := h.lt b w (take_eq_some_iff.mp hb).2
  inj b c w x hb hc := h.inj b c w x (take_eq_some_iff.mp hb).2 (take_eq_some_iff.mp hc).2

end Numbered

end Store
