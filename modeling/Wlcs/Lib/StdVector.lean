import Mathlib.Data.List.Induction
import Mathlib.Data.List.ReduceOption

/-!
# Erasing from a `std::vector`

* `Pass` : a call of `std::remove_if`, at some element of the vector. A place that has been moved from is `none`;
* `Pass.At v p kept rest` : the call has kept `kept`, and `rest` lies ahead of it. `At.keep`, `At.drop` are its steps;
* `removeErase` : the idiom `v.erase(std::remove_if(v.begin(), v.end(), ..), v.end())`;
* `Erasing` : elements erased one by one, through iterators that were taken before the first of them went.
-/

namespace StdVector
variable {α : Type*}

/-! ## `std::remove_if` -/

/-- `first` is the element that is looked at, `result` the place that the next element kept goes to. -/
structure Pass where
  first : Nat
  result : Nat
  last : Nat
deriving DecidableEq, Repr

namespace Pass

def start (v : List (Option α)) : Pass := ⟨0, 0, v.length⟩

/-- The vector after the element at `first` was kept: it is moved to `result`, unless nothing has gone before it. -/
def moveKept (p : Pass) (v : List (Option α)) : List (Option α) :=
  if p.result = p.first then v else (v.set p.result v[p.first]?.join).set p.first none

def keep (p : Pass) : Pass := { p with first := p.first + 1, result := p.result + 1 }

def drop (p : Pass) : Pass := { p with first := p.first + 1 }

/-- The call has kept `kept`, and `rest` lies ahead. Between them are the places of those that have gone. -/
def At (v : List (Option α)) (p : Pass) (kept rest : List α) : Prop :=
  ∃ stale, v = kept.map some ++ stale ++ rest.map some ∧ p.result = kept.length ∧
    p.first = kept.length + stale.length ∧ p.last = v.length

variable {v : List (Option α)} {p : Pass} {kept rest : List α} {x : α}

theorem at_start (xs : List α) : At (xs.map some) (start (xs.map some)) [] xs :=
  ⟨[], by simp, rfl, rfl, rfl⟩

theorem At.get (h : At v p kept (x :: rest)) : v[p.first]? = some (some x) := by
  obtain ⟨stale, rfl, -, hfirst, -⟩ := h
  rw [hfirst, List.getElem?_append_right (by simp)]
  simp

theorem At.last_eq (h : At v p kept rest) : p.last = v.length := by
  obtain ⟨stale, -, -, -, hlast⟩ := h
  exact hlast

theorem At.first_add (h : At v p kept rest) : p.first + rest.length = p.last := by
  obtain ⟨stale, rfl, -, hfirst, hlast⟩ := h
  rw [hlast, hfirst]
  simp [Nat.add_assoc]

/-- Nothing has gone yet. -/
theorem At.vector_eq (h : At v p kept rest) (hnone : p.result = p.first) : v = (kept ++ rest).map some := by
  obtain ⟨stale, rfl, hresult, hfirst, -⟩ := h
  obtain rfl : stale = [] := List.eq_nil_of_length_eq_zero (by omega)
  simp

theorem At.keep (h : At v p kept (x :: rest)) : At (p.moveKept v) p.keep (kept ++ [x]) rest := by
  have hget := h.get
  obtain ⟨stale, rfl, hresult, hfirst, hlast⟩ := h
  unfold moveKept
  rw [hget]
  cases stale with
  | nil =>
      rw [if_pos (by simp_all)]
      exact ⟨[], by simp, by simp [Pass.keep, hresult], by simp [Pass.keep, hfirst], hlast⟩
  | cons s stale =>
      have hne : ¬ p.result = p.first := by
        rw [hresult, hfirst, List.length_cons]
        omega
      rw [if_neg hne]
      refine ⟨stale ++ [none], ?_, by simp [Pass.keep, hresult], ?_, ?_⟩
      · rw [hresult, hfirst]
        have hmoved : (kept.map some ++ s :: stale ++ (x :: rest).map some).set kept.length (some x) =
            kept.map some ++ some x :: stale ++ (x :: rest).map some := by
          rw [List.append_assoc, List.set_append_right _ _ (by simp)]
          simp
        rw [Option.join_some, hmoved, List.set_append_right _ _ (by simp)]
        simp
      · simp [Pass.keep, hfirst]
        omega
      · simp [Pass.keep, hlast]

theorem At.drop (h : At v p kept (x :: rest)) : At v p.drop kept rest := by
  obtain ⟨stale, rfl, hresult, hfirst, hlast⟩ := h
  refine ⟨stale ++ [some x], by simp, hresult, ?_, hlast⟩
  simp [Pass.drop, hfirst]
  omega

/-- `v.erase(result, v.end())` after the last element. -/
theorem At.erase (h : At v p kept []) : v.take p.result = kept.map some := by
  obtain ⟨stale, rfl, hresult, -, -⟩ := h
  rw [hresult]
  simp

/-- The elements of a vector looked at in order, `true` for those that stay. -/
def run : List (Option α) → Pass → List Bool → List (Option α) × Pass
  | v, p, [] => (v, p)
  | v, p, true :: answers => run (p.moveKept v) p.keep answers
  | v, p, false :: answers => run v p.drop answers

theorem At.run {answers : List Bool} (hlen : answers.length = rest.length) (h : At v p kept rest) :
    At (run v p answers).1 (run v p answers).2 (kept ++ ((rest.zip answers).filter Prod.snd).map Prod.fst) [] := by
  induction answers generalizing v p kept rest with
  | nil =>
      obtain rfl := List.eq_nil_of_length_eq_zero hlen.symm
      simpa [Pass.run] using h
  | cons b answers ih =>
      cases rest with
      | nil => cases hlen
      | cons x rest =>
          have hrest : answers.length = rest.length := Nat.succ.inj hlen
          cases b with
          | true => simpa [Pass.run] using ih hrest h.keep
          | false => simpa [Pass.run] using ih hrest h.drop

end Pass

/-- `v.erase(std::remove_if(v.begin(), v.end(), ..), v.end())`, with `true` for the elements that stay. -/
def removeErase (v : List α) (answers : List Bool) : List α :=
  let done := Pass.run (v.map some) (Pass.start (v.map some)) answers
  (done.1.take done.2.result).reduceOption

theorem removeErase_eq {v : List α} {answers : List Bool} (h : answers.length = v.length) :
    removeErase v answers = ((v.zip answers).filter Prod.snd).map Prod.fst := by
  have hat := (Pass.at_start v).run h
  unfold removeErase
  dsimp only
  rw [hat.erase]
  simp [List.reduceOption]

/-! ## Erasing one by one -/

/-- A vector of which elements are erased at positions known beforehand; `none` is the vector after an erasure at its
end or behind it. -/
structure Erasing (α : Type*) where
  vector : Option (List α)
  erased : List Nat := []
  /-- the iterators that were used after an erasure at or before their position -/
  stale : List Nat := []
deriving DecidableEq, Repr

namespace Erasing

def erase (s : Erasing α) (position : Nat) : Erasing α where
  vector := s.vector.bind fun v => if position < v.length then some (v.eraseIdx position) else none
  erased := s.erased ++ [position]
  stale := if s.erased.any (· ≤ position) then s.stale ++ [position] else s.stale

def eraseAll (v : List α) (positions : List Nat) : Erasing α := positions.foldl erase { vector := some v }

theorem stale_subset (s : Erasing α) (positions : List Nat) : s.stale ⊆ (positions.foldl erase s).stale := by
  induction positions generalizing s with
  | nil => exact fun x hx => hx
  | cons position positions ih =>
      intro x hx
      apply ih
      unfold erase
      dsimp only
      split
      · exact List.mem_append_left _ hx
      · exact hx

/-- With positions in order, the second erasure already goes through a stale iterator. -/
theorem stale_eq_nil_iff {v : List α} {positions : List Nat} (hsorted : positions.Pairwise (· < ·)) :
    (eraseAll v positions).stale = [] ↔ positions.length ≤ 1 := by
  match positions with
  | [] => simp [eraseAll]
  | [i] => simp [eraseAll, erase]
  | i :: j :: positions =>
      have hlt : i < j := (List.pairwise_cons.mp hsorted).1 j (by simp)
      have hstale : j ∈ (eraseAll v (i :: j :: positions)).stale := by
        unfold eraseAll
        rw [List.foldl_cons, List.foldl_cons]
        apply stale_subset
        simp [erase, Nat.le_of_lt hlt]
      constructor
      · intro hnil
        rw [hnil] at hstale
        cases hstale
      · intro hlen
        simp at hlen

end Erasing

end StdVector
