import Mathlib.Data.List.Basic
import Mathlib.Data.List.Induction
import Mathlib.Order.Lattice

/-!
# Loops over ordered maps and sets

What a loop that erases every key of a set, or that writes every entry of one map into another, leaves at a key, and
what a loop over the entries finds at one. `rename` puts the entries under other keys, which changes their order;
`exists_rename_first` brings the entries of one kind to the front.
-/

namespace OrdMap
open Std
variable {κ : Type*} {ν : Type*} [Ord κ]

/-- `for (k : keys) m.erase(k)` -/
def eraseAll (m : TreeMap κ ν) (keys : TreeSet κ) : TreeMap κ ν := keys.foldl (fun m k => m.erase k) m

/-- `for (e : entries) m[e.first] = e.second` -/
def assignAll (m entries : TreeMap κ ν) : TreeMap κ ν := entries.foldl (fun m k v => m.insert k v) m

/-- The entries of a map under new keys. -/
def rename (f : κ → κ) (m : TreeMap κ ν) : TreeMap κ ν := m.foldl (fun r k v => r.insert (f k) v) {}

variable [TransOrd κ] [LawfulEqOrd κ] [DecidableEq κ]

theorem getElem?_foldl_erase (ks : List κ) (m : TreeMap κ ν) (k : κ) :
    (ks.foldl (fun m k => m.erase k) m)[k]? = if k ∈ ks then none else m[k]? := by
  induction ks generalizing m with
  | nil => simp
  | cons x ks ih =>
      rw [List.foldl_cons, ih, TreeMap.getElem?_erase]
      by_cases hx : x = k
      · simp [hx]
      · simp [hx, Ne.symm hx]

theorem getElem?_eraseAll (m : TreeMap κ ν) (keys : TreeSet κ) (k : κ) :
    (eraseAll m keys)[k]? = if k ∈ keys then none else m[k]? := by
  rw [eraseAll, TreeSet.foldl_eq_foldl_toList, getElem?_foldl_erase]
  simp only [TreeSet.mem_toList]

theorem getElem?_foldl_insert (es : List (κ × ν)) (m : TreeMap κ ν) (k : κ)
    (hd : es.Pairwise fun a b => a.1 ≠ b.1) :
    (es.foldl (fun m e => m.insert e.1 e.2) m)[k]? = ((es.find? (fun e => e.1 = k)).map Prod.snd).or m[k]? := by
  induction es generalizing m with
  | nil => simp
  | cons e es ih =>
      obtain ⟨he, hes⟩ := List.pairwise_cons.mp hd
      rw [List.foldl_cons, ih _ hes, TreeMap.getElem?_insert]
      by_cases hk : e.1 = k
      · have hnone : es.find? (fun x => x.1 = k) = none := by
          rw [List.find?_eq_none]
          intro x hx
          have := he x hx
          rw [hk] at this
          simpa using this.symm
        simp [hk, hnone]
      · simp [hk]

omit [DecidableEq κ] in
theorem toList_distinct (m : TreeMap κ ν) : m.toList.Pairwise fun a b => a.1 ≠ b.1 :=
  TreeMap.distinct_keys_toList.imp fun h he => h (by rw [he]; exact ReflCmp.compare_self)

omit [Ord κ] [TransOrd κ] [LawfulEqOrd κ] in
/-- In a list of entries with distinct keys a search for a key finds its entry. -/
theorem find?_eq_some_iff {es : List (κ × ν)} (hd : es.Pairwise fun a b => a.1 ≠ b.1) (k : κ) (e : κ × ν) :
    es.find? (fun e => e.1 = k) = some e ↔ e ∈ es ∧ e.1 = k := by
  constructor
  · intro h
    exact ⟨List.mem_of_find?_eq_some h, by simpa using List.find?_some h⟩
  · rintro ⟨hmem, hk⟩
    induction es with
    | nil => cases hmem
    | cons x es ih =>
        obtain ⟨hx, hes⟩ := List.pairwise_cons.mp hd
        rcases List.mem_cons.mp hmem with rfl | hmem
        · rw [List.find?_cons_of_pos (by simpa using hk)]
        · have hne : ¬ x.1 = k := fun heq => hx e hmem (heq.trans hk.symm)
          rw [List.find?_cons_of_neg (by simpa using hne), ih hes hmem]

omit [DecidableEq κ] in
/-- The entries of a map under some of the keys depend on what it holds there only. -/
theorem filter_toList_congr {m m' : TreeMap κ ν} {p : κ → Bool} (h : ∀ k, p k = true → m[k]? = m'[k]?) :
    m.toList.filter (fun e => p e.1) = m'.toList.filter (fun e => p e.1) := by
  have hmem : ∀ m : TreeMap κ ν, ∀ e, e ∈ m.toList.filter (fun e => p e.1) ↔ p e.1 = true ∧ m[e.1]? = some e.2 := by
    intro m e
    rw [List.mem_filter, and_comm, ← TreeMap.mem_toList_iff_getElem?_eq_some]
  have hnodup : ∀ m : TreeMap κ ν, (m.toList.filter fun e => p e.1).Nodup := by
    intro m
    exact ((toList_distinct m).imp fun hne heq => hne (congrArg Prod.fst heq)).filter _
  have hperm : (m.toList.filter fun e => p e.1).Perm (m'.toList.filter fun e => p e.1) := by
    rw [List.perm_ext_iff_of_nodup (hnodup m) (hnodup m')]
    intro e
    rw [hmem, hmem]
    exact and_congr_right fun hp => by rw [h e.1 hp]
  refine hperm.eq_of_pairwise ?_ (TreeMap.ordered_keys_toList.filter _) (TreeMap.ordered_keys_toList.filter _)
  intro a b _ _ hab hba
  rw [show compare b.1 a.1 = (compare a.1 b.1).swap from OrientedCmp.eq_swap, hab] at hba
  cases hba

omit [Ord κ] [TransOrd κ] [LawfulEqOrd κ] in
theorem filter_eq_toList_find? {es : List (κ × ν)} (hd : es.Pairwise fun a b => a.1 ≠ b.1) (k : κ) :
    es.filter (fun e => e.1 = k) = (es.find? (fun e => e.1 = k)).toList := by
  induction es with
  | nil => rfl
  | cons e es ih =>
      obtain ⟨he, hes⟩ := List.pairwise_cons.mp hd
      by_cases hk : e.1 = k
      · have hrest : es.filter (fun x => x.1 = k) = [] := by
          rw [List.filter_eq_nil_iff]
          intro x hx
          simpa [hk, eq_comm] using he x hx
        rw [List.filter_cons_of_pos (by simpa using hk), List.find?_cons_of_pos (by simpa using hk), hrest]
        rfl
      · rw [List.filter_cons_of_neg (by simpa using hk), List.find?_cons_of_neg (by simpa using hk), ih hes]

theorem find?_toList (m : TreeMap κ ν) (k : κ) :
    m.toList.find? (fun e => e.1 = k) = m[k]?.map fun v => (k, v) := by
  ext e
  rw [find?_eq_some_iff (toList_distinct m), Option.map_eq_some_iff]
  constructor
  · rintro ⟨hmem, rfl⟩
    exact ⟨e.2, TreeMap.mem_toList_iff_getElem?_eq_some.mp hmem, rfl⟩
  · rintro ⟨v, hget, rfl⟩
    exact ⟨TreeMap.mem_toList_iff_getElem?_eq_some.mpr hget, rfl⟩

/-- What a map holds at a key, read off its entries. -/
theorem filter_toList (m : TreeMap κ ν) (k : κ) :
    m.toList.filter (fun e => e.1 = k) = (m[k]?.map fun v => (k, v)).toList := by
  rw [filter_eq_toList_find? (toList_distinct m), find?_toList]

theorem getElem?_assignAll (m entries : TreeMap κ ν) (k : κ) :
    (assignAll m entries)[k]? = entries[k]?.or m[k]? := by
  rw [assignAll, TreeMap.foldl_eq_foldl_toList, getElem?_foldl_insert _ _ _ (toList_distinct entries), find?_toList,
    Option.map_map]
  congr 1
  exact Option.map_id'

theorem mem_toList_rename {f : κ → κ} {m : TreeMap κ ν} (hf : ∀ a ∈ m, ∀ b ∈ m, f a = f b → a = b) (e : κ × ν) :
    e ∈ (rename f m).toList ↔ ∃ e' ∈ m.toList, (f e'.1, e'.2) = e := by
  have hkey : ∀ e ∈ m.toList, e.1 ∈ m := by
    intro e he
    rw [TreeMap.mem_iff_isSome_getElem?, TreeMap.mem_toList_iff_getElem?_eq_some.mp he]
    rfl
  have hdistinct : (m.toList.map fun e => (f e.1, e.2)).Pairwise fun a b => a.1 ≠ b.1 := by
    rw [List.pairwise_map]
    apply (toList_distinct m).imp_of_mem
    intro a b ha hb hne heq
    exact hne (hf a.1 (hkey a ha) b.1 (hkey b hb) heq)
  have hentries : rename f m = (m.toList.map fun e => (f e.1, e.2)).foldl (fun r e => r.insert e.1 e.2) {} := by
    rw [rename, TreeMap.foldl_eq_foldl_toList, List.foldl_map]
  rw [show e = (e.1, e.2) from rfl, TreeMap.mem_toList_iff_getElem?_eq_some, hentries,
    getElem?_foldl_insert _ _ _ hdistinct, TreeMap.getElem?_emptyc, Option.or_none, Option.map_eq_some_iff]
  constructor
  · rintro ⟨e', hfind, hv⟩
    obtain ⟨hmem, hk⟩ := (find?_eq_some_iff hdistinct _ _).mp hfind
    obtain ⟨e'', hmem'', rfl⟩ := List.mem_map.mp hmem
    exact ⟨e'', hmem'', Prod.ext hk hv⟩
  · rintro ⟨e', hmem, heq⟩
    exact ⟨e, (find?_eq_some_iff hdistinct _ _).mpr ⟨List.mem_map.mpr ⟨e', hmem, heq⟩, rfl⟩, rfl⟩

omit [LawfulEqOrd κ] [DecidableEq κ] in
theorem toList_sorted [LT κ] [LE κ] [LawfulOrderOrd κ] [LawfulOrderLT κ] (m : TreeMap κ ν) :
    m.toList.Pairwise fun a b => a.1 < b.1 :=
  TreeMap.ordered_keys_toList.imp fun h => compare_eq_lt.mp h

/-- A loop over sorted entries that has come past some of them comes to the next one. -/
theorem filter_le_find? {κ : Type*} {ν : Type*} [LinearOrder κ] {l : List (κ × ν)} {p : κ → Bool} {e : κ × ν}
    (hsorted : l.Pairwise fun a b => a.1 < b.1) (hdown : ∀ a b, a < b → p b = true → p a = true)
    (hfind : l.find? (fun x => !p x.1) = some e) :
    l.filter (fun x => decide (x.1 ≤ e.1)) = l.filter (fun x => p x.1) ++ [e] := by
  induction l with
  | nil => cases hfind
  | cons x l ih =>
      obtain ⟨hx, hl⟩ := List.pairwise_cons.mp hsorted
      rw [List.find?_cons] at hfind
      cases hp : p x.1 with
      | true =>
          rw [hp] at hfind
          have hlt := hx e (List.mem_of_find?_eq_some hfind)
          rw [List.filter_cons_of_pos (by simpa using Std.le_of_lt hlt), List.filter_cons_of_pos (by simpa using hp), ih hl hfind]
          rfl
      | false =>
          rw [hp] at hfind
          obtain rfl : x = e := by simpa using hfind
          have hbehind : l.filter (fun y => decide (y.1 ≤ x.1)) = [] := by
            rw [List.filter_eq_nil_iff]
            intro y hy
            simpa using hx y hy
          have hahead : l.filter (fun y => p y.1) = [] := by
            rw [List.filter_eq_nil_iff]
            intro y hy hy'
            rw [hdown x.1 y.1 (hx y hy) hy'] at hp
            cases hp
          rw [List.filter_cons_of_pos (by simp), List.filter_cons_of_neg (by simp [hp]), hbehind, hahead]
          rfl

/-- Keys can be renamed among themselves such that those of one kind come before the others. -/
theorem exists_rename_first {κ : Type*} [DecidableEq κ] {R : κ → κ → Prop} (hirrefl : ∀ a, ¬ R a a) {ks : List κ}
    (hsorted : ks.Pairwise R) (p : κ → Bool) :
    ∃ f : κ → κ, (∀ a ∈ ks, f a ∈ ks) ∧ (∀ a ∈ ks, ∀ b ∈ ks, f a = f b → a = b) ∧
      ∀ a ∈ ks, ∀ b ∈ ks, p a = true → p b = false → R (f a) (f b) := by
  -- `ks'` has the keys in the order that they are to be renamed to: the first of it becomes the first of `ks`
  have hperm := List.filter_append_perm p ks
  generalize hks' : ks.filter p ++ ks.filter (fun k => !p k) = ks' at hperm
  have hmem : ∀ a, a ∈ ks' ↔ a ∈ ks := fun a => hperm.mem_iff
  have hidx : ∀ a ∈ ks, ks'.idxOf a < ks.length := by
    intro a ha
    rw [← hperm.length_eq]
    exact List.idxOf_lt_length_of_mem ((hmem a).mpr ha)
  have hget : ∀ a (ha : a ∈ ks), ks.getD (ks'.idxOf a) a = ks.get ⟨ks'.idxOf a, hidx a ha⟩ := by
    intro a ha
    rw [List.getD_eq_getElem?_getD, List.getElem?_eq_getElem (hidx a ha)]
    rfl
  have hlt : ∀ a ∈ ks, ∀ b ∈ ks, ks'.idxOf a < ks'.idxOf b → R (ks.getD (ks'.idxOf a) a) (ks.getD (ks'.idxOf b) b) := by
    intro a ha b hb hab
    rw [hget a ha, hget b hb]
    exact List.pairwise_iff_getElem.mp hsorted _ _ _ _ hab
  refine ⟨fun a => ks.getD (ks'.idxOf a) a, fun a ha => ?_, fun a ha b hb heq => ?_, fun a ha b hb hpa hpb => ?_⟩
  · simp only [hget a ha]
    exact List.get_mem _ _
  · simp only at heq
    rcases Nat.lt_trichotomy (ks'.idxOf a) (ks'.idxOf b) with hab | hab | hab
    · exact absurd (heq ▸ hlt a ha b hb hab) (hirrefl _)
    · exact (List.idxOf_inj ((hmem a).mpr ha)).mp hab
    · exact absurd (heq ▸ hlt b hb a ha hab) (hirrefl _)
  · apply hlt a ha b hb
    have hfirst : a ∈ ks.filter p := List.mem_filter.mpr ⟨ha, hpa⟩
    have hsecond : b ∉ ks.filter p := by
      intro hb'
      rw [(List.mem_filter.mp hb').2] at hpb
      cases hpb
    have hlength := List.idxOf_lt_length_of_mem hfirst
    rw [← hks', List.idxOf_append_of_mem hfirst, List.idxOf_append_of_notMem hsecond]
    omega

end OrdMap
