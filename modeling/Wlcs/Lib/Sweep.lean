import Mathlib.Data.List.Induction

/-!
# Sweeping a vector by index

`sweep` is the loop

  `for (i = 0; i < v.size(); ) { if (p(v[i])) { act(v[i]); v.erase(v.begin() + i); } else { ++i; } }`

in which the index stays where it is when an element goes. `sweep_eq` says that it keeps the other elements in order and
acts on those that go, in order.
-/

namespace Sweep
variable {α σ : Type*} (p : α → Bool) (act : σ → α → σ)

/-- The loop from index `i` on, with `act` changing what is not the vector. -/
def sweep : Nat → Nat → List α → σ → List α × σ
  | 0, _, v, s => (v, s)
  | fuel + 1, i, v, s =>
    match v[i]? with
    | none => (v, s)
    | some a => if p a then sweep fuel i (v.eraseIdx i) (act s a) else sweep fuel (i + 1) v s

/-- Each round takes an element away or passes one, so the length of what lies ahead bounds the rounds. -/
theorem sweep_append {fuel : Nat} (passed ahead : List α) (s : σ) (hfuel : ahead.length ≤ fuel) :
    sweep p act fuel passed.length (passed ++ ahead) s =
      (passed ++ ahead.filter (fun a => !p a), (ahead.filter p).foldl act s) := by
  induction fuel generalizing passed ahead s with
  | zero =>
      obtain rfl := List.length_eq_zero_iff.mp (Nat.le_zero.mp hfuel)
      rfl
  | succ fuel ih =>
      cases ahead with
      | nil => simp [sweep]
      | cons a ahead =>
          have hlt : ahead.length ≤ fuel := Nat.le_of_succ_le_succ hfuel
          simp only [sweep, List.getElem?_append_right (Nat.le_refl _), Nat.sub_self, List.getElem?_cons_zero]
          cases hp : p a with
          | true =>
              have herase : (passed ++ a :: ahead).eraseIdx passed.length = passed ++ ahead := by
                rw [List.eraseIdx_append_of_length_le (Nat.le_refl _), Nat.sub_self, List.eraseIdx_cons_zero]
              simp only [if_true, herase]
              rw [ih passed ahead (act s a) hlt]
              simp [hp]
          | false =>
              have hstep := ih (passed ++ [a]) ahead s hlt
              rw [List.length_append, List.length_singleton, List.append_assoc, List.singleton_append] at hstep
              simp only [Bool.false_eq_true, if_false]
              rw [hstep]
              simp [hp]

theorem sweep_eq (v : List α) (s : σ) :
    sweep p act v.length 0 v s = (v.filter (fun a => !p a), (v.filter p).foldl act s) :=
  sweep_append p act [] v s (Nat.le_refl _)

end Sweep
