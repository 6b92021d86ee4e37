import Wlcs.Client.Globals

/-!
# Outputs by their index

`output_state` and `add_output_done_notifier` check their index before they look it up among the outputs, and the
constructor of `XdgOutputV1` calls them one after the other. The check lets the number of the outputs itself pass.

* `Bindings.addOutputDoneNotifier`, `makeXdgOutput` : the accessors beside `Bindings.outputState`;
* `Checked` : an accessor throws for the indices that no output has, and otherwise reaches an output;
* `indexed` : a client that is fed with events and called with indices;
* `output_index_checked_iff` : no run reads beyond the outputs exactly if no call has their number as index.
-/

namespace Wlcs
open EventMachine

/-- `Client::add_output_done_notifier`; `none` is what comes of `outputs[index]` behind the last output. -/
def Bindings.addOutputDoneNotifier (me : Bindings) (index notifier : Nat) : Except String (Option Bindings) :=
  if index > me.outputCount then
    .error "Invalid output index"
  else
    .ok (me.outputs[index]?.map fun o =>
      { me with outputs := me.outputs.set index { o with doneNotifiers := o.doneNotifiers ++ [notifier] } })

namespace OutputIndex

/-! ## Accesses -/

/-- What became of an index. -/
inductive Access
  | threw (what : String)
  | element
  | outside
deriving DecidableEq, Repr

def accessOf {α : Type*} : Except String (Option α) → Access
  | .error what => .threw what
  | .ok (some _) => .element
  | .ok none => .outside

/-- The client after a notifier was added, if it was. -/
def addedTo (me : Bindings) : Except String (Option Bindings) → Bindings
  | .ok (some me') => me'
  | _ => me

/-- The constructor of `XdgOutputV1`, whose proxy has the version: the client after it, and its accesses. What an access
outside the outputs leads to is undefined; here the constructor goes on. -/
def makeXdgOutput (me : Bindings) (index version notifier : Nat) : Bindings × List Access :=
  match accessOf (me.outputState index) with
  | .threw what => (me, [.threw what])
  | access =>
    if version ≥ 3 then
      (addedTo me (me.addOutputDoneNotifier index notifier), [access, accessOf (me.addOutputDoneNotifier index notifier)])
    else
      (me, [access])

/-- Throws exactly for the indices that no output has, and otherwise reaches an output. -/
def Checked (me : Bindings) (index : Nat) (access : Access) : Prop :=
  ((∃ what, access = .threw what) ↔ index ≥ me.outputCount) ∧ ((∃ what, access = .threw what) ∨ access = .element)

/-- What comes of an index that is let pass unless it is greater than the number of the outputs. -/
def lookup (me : Bindings) (index : Nat) : Access :=
  if index < me.outputCount then .element
  else if index = me.outputCount then .outside
  else .threw "Invalid output index"

theorem accessOf_guarded {α : Type*} (me : Bindings) (index : Nat) (f : Output → α) :
    accessOf (if index > me.outputCount then .error "Invalid output index" else .ok (me.outputs[index]?.map f)) =
      lookup me index := by
  unfold lookup
  rcases Nat.lt_trichotomy index me.outputCount with hlt | heq | hgt
  · rw [if_neg (by omega), if_pos hlt, List.getElem?_eq_getElem hlt]
    rfl
  · rw [if_neg (by omega), if_neg (by omega), if_pos heq, List.getElem?_eq_none (Nat.le_of_eq heq.symm)]
    rfl
  · rw [if_pos hgt, if_neg (by omega), if_neg (by omega)]
    rfl

theorem accessOf_outputState (me : Bindings) (index : Nat) : accessOf (me.outputState index) = lookup me index :=
  accessOf_guarded me index _

theorem accessOf_addOutputDoneNotifier (me : Bindings) (index notifier : Nat) :
    accessOf (me.addOutputDoneNotifier index notifier) = lookup me index := accessOf_guarded me index _

theorem lookup_eq_outside (me : Bindings) (index : Nat) : lookup me index = .outside ↔ index = me.outputCount := by
  unfold lookup
  by_cases hlt : index < me.outputCount
  · rw [if_pos hlt]
    exact iff_of_false (fun h => nomatch h) (by omega)
  · by_cases heq : index = me.outputCount
    · rw [if_neg hlt, if_pos heq]
      exact iff_of_true rfl heq
    · rw [if_neg hlt, if_neg heq]
      exact iff_of_false (fun h => nomatch h) heq

theorem checked_lookup_iff (me : Bindings) (index : Nat) : Checked me index (lookup me index) ↔ index ≠ me.outputCount := by
  unfold Checked lookup
  rcases Nat.lt_trichotomy index me.outputCount with hlt | heq | hgt
  · rw [if_pos hlt]
    refine iff_of_true ⟨iff_of_false (fun h => nomatch h) (by omega), Or.inr rfl⟩ (by omega)
  · rw [if_neg (by omega), if_pos heq]
    exact iff_of_false (fun h => nomatch h.2) (fun h => h heq)
  · rw [if_neg (by omega), if_neg (by omega)]
    exact iff_of_true ⟨iff_of_true ⟨_, rfl⟩ (by omega), Or.inl ⟨_, rfl⟩⟩ (by omega)

/-- The constructor looks its index up once or twice, unless the first time throws. -/
theorem outside_mem_makeXdgOutput (me : Bindings) (index version notifier : Nat) :
    Access.outside ∈ (makeXdgOutput me index version notifier).2 ↔ index = me.outputCount := by
  rw [makeXdgOutput, accessOf_outputState, accessOf_addOutputDoneNotifier, ← lookup_eq_outside]
  by_cases hversion : version ≥ 3
  · cases lookup me index <;> simp [hversion]
  · cases lookup me index <;> simp [hversion]

/-! ## Runs -/

/-- What happens to a client: an event of its registry or its outputs, or a call with an index. -/
inductive Request
  | event (e : RegistryEvent)
  | outputState (index : Nat)
  | addOutputDoneNotifier (index notifier : Nat)
  | makeXdgOutput (index version notifier : Nat)
deriving DecidableEq, Repr

def Request.index? : Request → Option Nat
  | .event _ => none
  | .outputState index | .addOutputDoneNotifier index _ | .makeXdgOutput index _ _ => some index

section Runs
variable (interfaceVersion : String → Nat)

/-- The client, which answers each request with its accesses. -/
def indexed : Transducer Bindings Request (List Access) where
  step me
    | .event e => (((registryListener interfaceVersion).step me e).1, [])
    | .outputState index => (me, [accessOf (me.outputState index)])
    | .addOutputDoneNotifier index notifier =>
      (addedTo me (me.addOutputDoneNotifier index notifier), [accessOf (me.addOutputDoneNotifier index notifier)])
    | .makeXdgOutput index version notifier => makeXdgOutput me index version notifier

/-- A client after some requests. -/
def served (supportedExtensions : Option (Std.TreeMap String Nat)) (requests : List Request) : Bindings :=
  (indexed interfaceVersion).run { supportedExtensions := supportedExtensions } requests

theorem outside_mem_step (me : Bindings) (request : Request) :
    Access.outside ∈ ((indexed interfaceVersion).step me request).2 ↔ request.index? = some me.outputCount := by
  cases request with
  | event e => exact iff_of_false (fun h => nomatch h) (fun h => nomatch h)
  | outputState index =>
      show Access.outside ∈ [accessOf (me.outputState index)] ↔ some index = some me.outputCount
      rw [accessOf_outputState, List.mem_singleton, eq_comm, lookup_eq_outside, Option.some.injEq]
  | addOutputDoneNotifier index notifier =>
      show Access.outside ∈ [accessOf (me.addOutputDoneNotifier index notifier)] ↔ some index = some me.outputCount
      rw [accessOf_addOutputDoneNotifier, List.mem_singleton, eq_comm, lookup_eq_outside, Option.some.injEq]
  | makeXdgOutput index version notifier =>
      show Access.outside ∈ (OutputIndex.makeXdgOutput me index version notifier).2 ↔ some index = some me.outputCount
      rw [outside_mem_makeXdgOutput, Option.some.injEq]

/-- A run reads no output that is not there exactly if none of its calls has the number of the outputs as its index; and
in every client that a run leads to, an index is handled as it should be exactly if it is not that number. -/
theorem output_index_checked_iff (supportedExtensions : Option (Std.TreeMap String Nat)) (requests : List Request) :
    ((indexed interfaceVersion).Clean (Access.outside ∈ ·) { supportedExtensions := supportedExtensions } requests ↔
      ∀ pre request, pre ++ [request] <+: requests →
        request.index? ≠ some (served interfaceVersion supportedExtensions pre).outputCount) ∧
    (∀ index version notifier, let me := served interfaceVersion supportedExtensions requests
      (Checked me index (accessOf (me.outputState index)) ↔ index ≠ me.outputCount) ∧
      (Checked me index (accessOf (me.addOutputDoneNotifier index notifier)) ↔ index ≠ me.outputCount) ∧
      (Access.outside ∉ (makeXdgOutput me index version notifier).2 ↔ index ≠ me.outputCount)) := by
  constructor
  · exact Transducer.clean_iff_forall_step fun pre request _ _ =>
      outside_mem_step interfaceVersion (served interfaceVersion supportedExtensions pre) request
  · intro index version notifier me
    rw [accessOf_outputState, accessOf_addOutputDoneNotifier]
    exact ⟨checked_lookup_iff me index, checked_lookup_iff me index,
      not_congr (outside_mem_makeXdgOutput me index version notifier)⟩

end Runs

/-- A client with one output. -/
def oneOutput : Bindings := served (fun _ => 4) none [.event (.global 1 "wl_output" 4 11)]

theorem output_index_outside :
    oneOutput.outputCount = 1 ∧
      accessOf (oneOutput.outputState 1) = .outside ∧ ¬ Checked oneOutput 1 (accessOf (oneOutput.outputState 1)) ∧
      accessOf (oneOutput.addOutputDoneNotifier 1 0) = .outside ∧
      ¬ Checked oneOutput 1 (accessOf (oneOutput.addOutputDoneNotifier 1 0)) ∧
      (makeXdgOutput oneOutput 1 3 0).2 = [.outside, .outside] := by
  have hcount : oneOutput.outputCount = 1 := by decide +kernel
  have hlookup : lookup oneOutput 1 = .outside := (lookup_eq_outside oneOutput 1).mpr hcount.symm
  have hchecked : ¬ Checked oneOutput 1 (lookup oneOutput 1) := by
    rw [checked_lookup_iff]
    exact fun h => h hcount.symm
  rw [makeXdgOutput, accessOf_outputState, accessOf_addOutputDoneNotifier]
  refine ⟨hcount, hlookup, hchecked, hlookup, hchecked, ?_⟩
  rw [hlookup]
  rfl

end OutputIndex

end Wlcs
