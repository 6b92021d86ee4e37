import Mathlib.Data.List.Induction

/-!
# Queues with their history

A `Fifo` keeps everything that was pushed and how much of it was taken, so that what is in the queue, what has left it
and the order of both can be told from the same value.
-/

/-- A first-in first-out queue: `sent` is everything pushed so far, of which the first `taken` have been taken. -/
structure Fifo (α : Type*) where
  sent : List α
  taken : Nat
  taken_le : taken ≤ sent.length

namespace Fifo
variable {α : Type*}

def empty : Fifo α := ⟨[], 0, Nat.le_refl 0⟩

/-- What was pushed and not yet taken, the oldest first. -/
def queue (f : Fifo α) : List α := f.sent.drop f.taken

def push (f : Fifo α) (a : α) : Fifo α := ⟨f.sent ++ [a], f.taken, by
  have := f.taken_le
  rw [List.length_append]
  omega⟩

/-- Takes the oldest element, if there is one. -/
def pop (f : Fifo α) : Option (α × Fifo α) :=
  if h : f.taken < f.sent.length then some (f.sent.get ⟨f.taken, h⟩, ⟨f.sent, f.taken + 1, h⟩) else none

@[simp] theorem sent_empty : (empty : Fifo α).sent = [] := rfl

@[simp] theorem taken_empty : (empty : Fifo α).taken = 0 := rfl

@[simp] theorem sent_push (f : Fifo α) (a : α) : (f.push a).sent = f.sent ++ [a] := rfl

@[simp] theorem taken_push (f : Fifo α) (a : α) : (f.push a).taken = f.taken := rfl

theorem length_queue (f : Fifo α) : f.queue.length = f.sent.length - f.taken := by
  rw [queue, List.length_drop]

theorem pop_eq_some {f g : Fifo α} {a : α} :
    f.pop = some (a, g) ↔ f.sent[f.taken]? = some a ∧ g.sent = f.sent ∧ g.taken = f.taken + 1 := by
  unfold pop
  constructor
  · intro h
    split at h
    · rename_i hlt
      obtain ⟨rfl, rfl⟩ := Prod.mk.inj (Option.some.inj h)
      exact ⟨List.getElem?_eq_getElem hlt, rfl, rfl⟩
    · cases h
  · rintro ⟨ha, hsent, htaken⟩
    obtain ⟨hlt, hget⟩ := List.getElem?_eq_some_iff.mp ha
    obtain ⟨sent, taken, hle⟩ := g
    subst hsent htaken
    rw [dif_pos hlt]
    simp [hget]

theorem pop_isSome {f : Fifo α} (h : f.taken < f.sent.length) : ∃ a g, f.pop = some (a, g) := by
  unfold pop
  rw [dif_pos h]
  exact ⟨_, _, rfl⟩

theorem queue_of_pop {f g : Fifo α} {a : α} (h : f.pop = some (a, g)) : f.queue = a :: g.queue := by
  obtain ⟨hhead, hsent, htaken⟩ := pop_eq_some.mp h
  unfold queue
  rw [hsent, htaken, List.drop_eq_getElem?_toList_append, hhead]
  rfl

theorem pop_eq_none {f : Fifo α} (h : f.pop = none) : f.taken = f.sent.length := by
  have := f.taken_le
  by_contra hne
  obtain ⟨a, g, hpop⟩ := pop_isSome (f := f) (by omega)
  rw [h] at hpop
  cases hpop

end Fifo
