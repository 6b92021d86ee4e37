import Wlcs.Lib.Memory
import Wlcs.Client.ForeignToplevel

/-!
# The states of a toplevel

`xdg_toplevel.configure`, `zxdg_toplevel_v6.configure` and the `state` event of a foreign toplevel carry the states of a
toplevel as an array of 32-bit codes. Each of the three has a loop over the items of the array with a `switch` in it.

* `forEachItem` : the loop, with the loads that it makes (`forEachItem_eq`);
* `XdgToplevelStable.state`, `XdgToplevelV6.state`, `foreignState` : the three decoders;
* `toplevel_state_is_membership` : a flag is set exactly if its code is in the array;
* `toplevel_state_inside_iff` : the loads stay inside the array exactly if its size is a multiple of four.
-/

namespace Wlcs.ToplevelState
open Memory ForeignToplevel

/-! ## The loop -/

section Loop
variable {σ : Type*}

/-- `for (; (char*)item < (char*)array->data + array->size; item++)` from an item on: what the body makes of the state,
and the loads. An item is four bytes wide, of which the test looks at the first. -/
def forEachItem (body : σ → Nat → σ) (array : Block) (item : Nat) (state : σ) : σ × List Access :=
  if item < array.size then
    let rest := forEachItem body array (item + 4) (body state (array.load 4 item))
    (rest.1, ⟨item, 4⟩ :: rest.2)
  else
    (state, [])
termination_by array.size - item

/-- The number of turns of the loop. -/
def turns (array : Block) : Nat := (array.size + 3) / 4

theorem forEachItem_done (body : σ → Nat → σ) {array : Block} {item : Nat} (h : array.size ≤ item) (state : σ) :
    forEachItem body array item state = (state, []) := by
  rw [forEachItem, if_neg (by omega)]

theorem forEachItem_step (body : σ → Nat → σ) {array : Block} {item : Nat} (h : item < array.size) (state : σ) :
    forEachItem body array item state =
      ((forEachItem body array (item + 4) (body state (array.load 4 item))).1,
        ⟨item, 4⟩ :: (forEachItem body array (item + 4) (body state (array.load 4 item))).2) := by
  rw [forEachItem, if_pos h]

theorem forEachItem_from (body : σ → Nat → σ) (array : Block) (k n : Nat) (h : k + n = turns array) (state : σ) :
    forEachItem body array (4 * k) state =
      (((List.range' k n).map fun k => array.load 4 (4 * k)).foldl body state,
        (List.range' k n).map fun k => ⟨4 * k, 4⟩) := by
  -- `n` turns are left: the loop goes on as long as the first byte of the item is inside
  unfold turns at h
  induction n generalizing k state with
  | zero => exact forEachItem_done body (by omega) state
  | succ n ih =>
      have hrest := ih (k + 1) (by omega) (body state (array.load 4 (4 * k)))
      rw [Nat.mul_succ] at hrest
      rw [forEachItem_step body (by omega), hrest, List.range'_succ, List.map_cons, List.map_cons, List.foldl_cons]

/-- The loop ends after `turns` turns; it has run its body on the items in their order. -/
theorem forEachItem_eq (body : σ → Nat → σ) (array : Block) (state : σ) :
    forEachItem body array 0 state =
      ((array.items 4 (turns array)).foldl body state, Block.itemReads 4 (turns array)) := by
  have h := forEachItem_from body array 0 (turns array) (Nat.zero_add _) state
  rw [← List.range_eq_range'] at h
  exact h

end Loop

/-- The array of these codes. -/
def wlArray (codes : List UInt32) (beyond : Nat → UInt8) : Block :=
  Block.ofItems 4 (codes.map UInt32.toNat) beyond

theorem turns_wlArray (codes : List UInt32) (beyond : Nat → UInt8) : turns (wlArray codes beyond) = codes.length := by
  rw [turns, wlArray, Block.size_ofItems, List.length_map]
  omega

/-- In an array of whole items the loop goes over the codes. -/
theorem forEachItem_wlArray {σ : Type*} (body : σ → Nat → σ) (codes : List UInt32) (beyond : Nat → UInt8) (state : σ) :
    (forEachItem body (wlArray codes beyond) 0 state).1 = (codes.map UInt32.toNat).foldl body state := by
  have hbound : ∀ n ∈ codes.map UInt32.toNat, n < 2 ^ (8 * 4) := by
    intro n hn
    obtain ⟨code, -, rfl⟩ := List.mem_map.mp hn
    exact code.toNat_lt
  have hitems := Block.items_ofItems beyond hbound
  rw [List.length_map] at hitems
  rw [forEachItem_eq, turns_wlArray, wlArray, hitems]

/-! ## The decoders -/

/-- `XdgToplevelStable::State` and `XdgToplevelV6::State`, which have the same members. -/
structure State where
  width : Int
  height : Int
  maximized : Bool
  fullscreen : Bool
  resizing : Bool
  activated : Bool
deriving DecidableEq, Repr

def State.initial (width height : Int) : State where
  width := width
  height := height
  maximized := false
  fullscreen := false
  resizing := false
  activated := false

/-- The `switch` over `xdg_toplevel_state`. The case of `ACTIVATED` has no `break` and goes on with those of the tiled
states, which do nothing. -/
def XdgToplevelStable.setState (state : State) : Nat → State
  | 1 => { state with maximized := true }
  | 2 => { state with fullscreen := true }
  | 3 => { state with resizing := true }
  | 4 => { state with activated := true }
  | 5 | 6 | 8 | 7 => state
  | _ => state

/-- The `switch` over `zxdg_toplevel_v6_state`. -/
def XdgToplevelV6.setState (state : State) : Nat → State
  | 1 => { state with maximized := true }
  | 2 => { state with fullscreen := true }
  | 3 => { state with resizing := true }
  | 4 => { state with activated := true }
  | _ => state

/-- The two constructors: no array leaves every flag unset. -/
def decode (setState : State → Nat → State) (width height : Int) : Option Block → State × List Access
  | none => (State.initial width height, [])
  | some states => forEachItem setState states 0 (State.initial width height)

def XdgToplevelStable.state : Int → Int → Option Block → State × List Access := decode setState

def XdgToplevelV6.state : Int → Int → Option Block → State × List Access := decode setState

/-- The `state` handler of a foreign toplevel. -/
def foreignState (self : ForeignToplevelHandle) (state : Block) : ForeignToplevelHandle × List Access :=
  let reset := { self with maximized := false, minimized := false, activated := false, fullscreen := false }
  let result := forEachItem ForeignToplevelHandle.setState state 0 reset
  ({ result.1 with dirty := true }, result.2)

/-! ## Flags -/

/-- The state with these codes: a flag for each code that has one. -/
def State.ofCodes (width height : Int) (codes : List UInt32) : State where
  width := width
  height := height
  maximized := 1 ∈ codes
  fullscreen := 2 ∈ codes
  resizing := 3 ∈ codes
  activated := 4 ∈ codes

/-- The handle with the flags of these codes. -/
def withCodes (self : ForeignToplevelHandle) (codes : List UInt32) : ForeignToplevelHandle :=
  { self with
    maximized := 0 ∈ codes
    minimized := 1 ∈ codes
    activated := 2 ∈ codes
    fullscreen := 3 ∈ codes
    dirty := true }

theorem stable_setState_eq (state : State) (code : Nat) :
    XdgToplevelStable.setState state code = XdgToplevelV6.setState state code := by
  match code with
  | 0 | 1 | 2 | 3 | 4 | 5 | 6 | 7 | 8 => rfl
  | code + 9 => rfl

theorem foldl_setState (codes : List Nat) (state : State) :
    codes.foldl XdgToplevelV6.setState state =
      { state with
        maximized := state.maximized || decide (1 ∈ codes)
        fullscreen := state.fullscreen || decide (2 ∈ codes)
        resizing := state.resizing || decide (3 ∈ codes)
        activated := state.activated || decide (4 ∈ codes) } := by
  induction codes generalizing state with
  | nil => simp
  | cons code codes ih =>
      rw [List.foldl_cons, ih]
      match code with
      | 0 => simp [XdgToplevelV6.setState]
      | 1 => simp [XdgToplevelV6.setState]
      | 2 => simp [XdgToplevelV6.setState]
      | 3 => simp [XdgToplevelV6.setState]
      | 4 => simp [XdgToplevelV6.setState]
      | code + 5 => simp [XdgToplevelV6.setState]

theorem mem_map_toNat (code : UInt32) (codes : List UInt32) : code.toNat ∈ codes.map UInt32.toNat ↔ code ∈ codes := by
  constructor
  · intro h
    obtain ⟨other, hother, heq⟩ := List.mem_map.mp h
    rwa [← UInt32.toNat_inj.mp heq]
  · exact List.mem_map_of_mem

theorem v6_state_wlArray (width height : Int) (codes : List UInt32) (beyond : Nat → UInt8) :
    (XdgToplevelV6.state width height (some (wlArray codes beyond))).1 = State.ofCodes width height codes := by
  have hmem := fun code => propext (mem_map_toNat code codes)
  show (forEachItem XdgToplevelV6.setState (wlArray codes beyond) 0 (State.initial width height)).1 = _
  rw [forEachItem_wlArray, foldl_setState]
  simp only [State.initial, State.ofCodes, Bool.false_or, ← hmem]
  rfl

theorem stable_state_wlArray (width height : Int) (codes : List UInt32) (beyond : Nat → UInt8) :
    (XdgToplevelStable.state width height (some (wlArray codes beyond))).1 = State.ofCodes width height codes := by
  have hswitch : XdgToplevelStable.setState = XdgToplevelV6.setState := by
    funext state code
    exact stable_setState_eq state code
  rw [XdgToplevelStable.state, hswitch]
  exact v6_state_wlArray width height codes beyond

/-- The handler does with the array what the listener does with its codes. -/
theorem foreignState_wlArray (self : ForeignToplevelHandle) (codes : List UInt32) (beyond : Nat → UInt8) :
    (foreignState self (wlArray codes beyond)).1 = self.receive (.state (codes.map UInt32.toNat)) := by
  unfold foreignState ForeignToplevelHandle.receive
  simp only [forEachItem_wlArray]

theorem receive_state_eq (self : ForeignToplevelHandle) (codes : List UInt32) :
    self.receive (.state (codes.map UInt32.toNat)) = withCodes self codes := by
  have hmem := fun code => propext (mem_map_toNat code codes)
  rw [ForeignToplevelHandle.receive_state]
  simp only [withCodes, ← hmem]
  rfl

/-- Arrays in which the same of the first codes occur have the same flags. -/
theorem State.ofCodes_congr {codes codes' : List UInt32} (width height : Int)
    (h : ∀ code ∈ ([1, 2, 3, 4] : List UInt32), code ∈ codes ↔ code ∈ codes') :
    State.ofCodes width height codes = State.ofCodes width height codes' := by
  unfold State.ofCodes
  simp only [h 1 (by decide), h 2 (by decide), h 3 (by decide), h 4 (by decide)]

theorem withCodes_congr {codes codes' : List UInt32} (self : ForeignToplevelHandle)
    (h : ∀ code ∈ ([0, 1, 2, 3] : List UInt32), code ∈ codes ↔ code ∈ codes') :
    withCodes self codes = withCodes self codes' := by
  unfold withCodes
  simp only [h 0 (by decide), h 1 (by decide), h 2 (by decide), h 3 (by decide)]

/-- One more code changes nothing for the others, and nothing at all if it was there before. -/
theorem mem_insert_iff {known before after : List UInt32} {code : UInt32}
    (h : code ∈ before ++ after ∨ code ∉ known) :
    ∀ other ∈ known, other ∈ before ++ code :: after ↔ other ∈ before ++ after := by
  intro other hother
  have hcons : other ∈ before ++ code :: after ↔ other = code ∨ other ∈ before ++ after := by
    simp only [List.mem_append, List.mem_cons]
    tauto
  rw [hcons, or_iff_right_iff_imp]
  intro heq
  subst heq
  exact h.resolve_right (fun hnot => hnot hother)

section Decoded
variable (width height : Int) (self : ForeignToplevelHandle) (codes : List UInt32) (beyond : Nat → UInt8)

/-- What `XdgToplevelStable::State` makes of an array of these codes. -/
def stableOf : State := (XdgToplevelStable.state width height (some (wlArray codes beyond))).1

/-- What `XdgToplevelV6::State` makes of an array of these codes. -/
def v6Of : State := (XdgToplevelV6.state width height (some (wlArray codes beyond))).1

/-- What the handler of a foreign toplevel makes of an array of these codes. -/
def foreignOf : ForeignToplevelHandle := (foreignState self (wlArray codes beyond)).1

theorem stableOf_eq : stableOf width height codes beyond = State.ofCodes width height codes :=
  stable_state_wlArray width height codes beyond

theorem v6Of_eq : v6Of width height codes beyond = State.ofCodes width height codes :=
  v6_state_wlArray width height codes beyond

theorem foreignOf_eq : foreignOf self codes beyond = withCodes self codes :=
  (foreignState_wlArray self codes beyond).trans (receive_state_eq self codes)

end Decoded

/-- The flags of a foreign toplevel. -/
def flags (self : ForeignToplevelHandle) : Bool × Bool × Bool × Bool :=
  (self.maximized, self.minimized, self.activated, self.fullscreen)

/-- Each flag says whether its code is in the array. So the order of the codes, repeated codes and codes without a flag
make no difference, the two versions of the shell agree, and the flags that a foreign toplevel had before are gone. -/
theorem toplevel_state_is_membership (width height : Int) (self : ForeignToplevelHandle) (codes : List UInt32)
    (beyond : Nat → UInt8) :
    (((stableOf width height codes beyond).maximized ↔ 1 ∈ codes) ∧
      ((stableOf width height codes beyond).fullscreen ↔ 2 ∈ codes) ∧
      ((stableOf width height codes beyond).resizing ↔ 3 ∈ codes) ∧
      ((stableOf width height codes beyond).activated ↔ 4 ∈ codes)) ∧
    (((v6Of width height codes beyond).maximized ↔ 1 ∈ codes) ∧
      ((v6Of width height codes beyond).fullscreen ↔ 2 ∈ codes) ∧
      ((v6Of width height codes beyond).resizing ↔ 3 ∈ codes) ∧
      ((v6Of width height codes beyond).activated ↔ 4 ∈ codes)) ∧
    (((foreignOf self codes beyond).maximized ↔ 0 ∈ codes) ∧
      ((foreignOf self codes beyond).minimized ↔ 1 ∈ codes) ∧
      ((foreignOf self codes beyond).activated ↔ 2 ∈ codes) ∧
      ((foreignOf self codes beyond).fullscreen ↔ 3 ∈ codes)) ∧
    (∀ codes' beyond', codes.Perm codes' →
      stableOf width height codes beyond = stableOf width height codes' beyond' ∧
      v6Of width height codes beyond = v6Of width height codes' beyond' ∧
      foreignOf self codes beyond = foreignOf self codes' beyond') ∧
    (∀ before code after beyond', codes = before ++ code :: after →
      (code ∈ before ++ after ∨ code ∉ ([1, 2, 3, 4] : List UInt32) →
        stableOf width height codes beyond = stableOf width height (before ++ after) beyond' ∧
        v6Of width height codes beyond = v6Of width height (before ++ after) beyond') ∧
      (code ∈ before ++ after ∨ code ∉ ([0, 1, 2, 3] : List UInt32) →
        foreignOf self codes beyond = foreignOf self (before ++ after) beyond')) ∧
    (∀ codes' beyond', (∀ code ∈ ([1, 2, 3, 4] : List UInt32), code ∈ codes ↔ code ∈ codes') →
      stableOf width height codes beyond = v6Of width height codes' beyond') ∧
    (∀ self', flags (foreignOf self codes beyond) = flags (foreignOf self' codes beyond)) := by
  simp only [stableOf_eq, v6Of_eq, foreignOf_eq]
  refine ⟨by simp [State.ofCodes], by simp [State.ofCodes], by simp [withCodes], ?_, ?_, ?_, fun _ => rfl⟩
  · intro codes' _ hperm
    have hxdg := State.ofCodes_congr width height (fun _ _ => hperm.mem_iff)
    exact ⟨hxdg, hxdg, withCodes_congr self (fun _ _ => hperm.mem_iff)⟩
  · intro before code after _ hcodes
    subst hcodes
    constructor
    · intro h
      have hxdg := State.ofCodes_congr width height (mem_insert_iff h)
      exact ⟨hxdg, hxdg⟩
    · intro h
      exact withCodes_congr self (mem_insert_iff h)
  · intro codes' _ h
    exact State.ofCodes_congr width height h

theorem toplevel_state_is_membership_tiled :
    stableOf 640 480 [5, 4, 7, 4] (fun _ => 255) = v6Of 640 480 [4] (fun _ => 0) ∧
      (stableOf 640 480 [5, 4, 7, 4] (fun _ => 255)).activated = true :=
  let facts := toplevel_state_is_membership 640 480 ⟨0, false, none, none, [], true, false, false, false, false⟩
    [5, 4, 7, 4] (fun _ => 255)
  ⟨facts.2.2.2.2.2.1 [4] (fun _ => 0) (by simp), facts.1.2.2.2.mpr (by decide)⟩

/-! ## Loads -/

theorem stable_reads (array : Block) (width height : Int) :
    (XdgToplevelStable.state width height (some array)).2 = Block.itemReads 4 (turns array) :=
  congrArg Prod.snd (forEachItem_eq _ array _)

theorem v6_reads (array : Block) (width height : Int) :
    (XdgToplevelV6.state width height (some array)).2 = Block.itemReads 4 (turns array) :=
  congrArg Prod.snd (forEachItem_eq _ array _)

theorem foreign_reads (array : Block) (self : ForeignToplevelHandle) :
    (foreignState self array).2 = Block.itemReads 4 (turns array) :=
  congrArg Prod.snd (forEachItem_eq _ array _)

/-- All three loops end after a turn for each item that begins inside the array, and leave the array with the last of
them unless its size is a multiple of four. -/
theorem toplevel_state_inside_iff (array : Block) (width height : Int) (self : ForeignToplevelHandle) :
    ((XdgToplevelStable.state width height (some array)).2.length = (array.size + 3) / 4 ∧
      (array.Inside (XdgToplevelStable.state width height (some array)).2 ↔ 4 ∣ array.size)) ∧
    ((XdgToplevelV6.state width height (some array)).2.length = (array.size + 3) / 4 ∧
      (array.Inside (XdgToplevelV6.state width height (some array)).2 ↔ 4 ∣ array.size)) ∧
    ((foreignState self array).2.length = (array.size + 3) / 4 ∧
      (array.Inside (foreignState self array).2 ↔ 4 ∣ array.size)) := by
  have hlength : (Block.itemReads 4 (turns array)).length = (array.size + 3) / 4 := by
    rw [Block.itemReads, List.length_map, List.length_range, turns]
  have hinside : array.Inside (Block.itemReads 4 (turns array)) ↔ 4 ∣ array.size := by
    rw [Block.inside_itemReads_iff array (by decide), turns]
    omega
  rw [stable_reads, v6_reads, foreign_reads]
  exact ⟨⟨hlength, hinside⟩, ⟨hlength, hinside⟩, ⟨hlength, hinside⟩⟩

/-- An array of five bytes: `ACTIVATED`, and a fifth byte. -/
def fiveBytes : Block := ⟨[4, 0, 0, 0, 1], fun _ => 0⟩

theorem toplevel_state_leaves_five_bytes :
    ¬ fiveBytes.Inside (XdgToplevelStable.state 0 0 (some fiveBytes)).2 ∧
      ¬ fiveBytes.Inside (XdgToplevelV6.state 0 0 (some fiveBytes)).2 ∧
      ¬ fiveBytes.Inside (foreignState { handle := 0 } fiveBytes).2 := by
  have hturns : turns fiveBytes = 2 := rfl
  rw [stable_reads, v6_reads, foreign_reads, hturns]
  decide

end Wlcs.ToplevelState
