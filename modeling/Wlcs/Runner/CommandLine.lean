import Mathlib.Data.List.Basic
import Wlcs.Runner.Listener

/-!
# The command line

What InitGoogleTest leaves of the command line begins with the program and the integration module. `main` shuffles the
module out of `argv` and keeps the rest for the servers, which hand it to `create_server` of the integration.

* `shuffle` : the loop; the slots that it writes, and those it leaves alone (`shuffle_spec`);
* `prepare` : `main` up to the point at which it runs the tests;
* `inProcessServer` : the way from the helpers to `create_server`;
* `ShuffledOut` : the vector without the module, with a null pointer at its end;
* `command_line_shuffled_iff` : the arguments are the right ones, but the null pointer stays one slot behind.
-/

namespace Wlcs.Runner

/-! ## The loop -/

section Loop
variable {α : Type*}

/-- `for (auto i = 1 ; i < (argc - 1) ; ++i)` from some `i` on. `none` stands for a slot outside the array. -/
def shuffle (argc i : Nat) (argv : List α) : Option (List α) :=
  if i < argc - 1 then do
    let arg ← argv[i + 1]?
    shuffle argc (i + 1) (argv.set i arg)
  else
    some argv
termination_by argc - 1 - i

theorem shuffle_done {argc i : Nat} (h : argc - 1 ≤ i) (argv : List α) : shuffle argc i argv = some argv := by
  rw [shuffle, if_neg (by omega)]

theorem shuffle_step {argc i : Nat} (h : i < argc - 1) {argv : List α} {arg : α} (harg : argv[i + 1]? = some arg) :
    shuffle argc i argv = shuffle argc (i + 1) (argv.set i arg) := by
  rw [shuffle, if_pos h, harg]
  rfl

/-- The slots from `i` on get what their neighbours held, up to the last argument, which stays where it was. -/
theorem shuffle_spec {argc : Nat} (i : Nat) (argv : List α) (h : argc ≤ argv.length) :
    ∃ argv', shuffle argc i argv = some argv' ∧ argv'.length = argv.length ∧
      ∀ j, argv'[j]? = if i ≤ j ∧ j < argc - 1 then argv[j + 1]? else argv[j]? := by
  -- the number of turns that are left
  generalize hn : argc - 1 - i = n
  induction n generalizing i argv with
  | zero =>
      refine ⟨argv, shuffle_done (by omega) argv, rfl, fun j => ?_⟩
      rw [if_neg (by omega)]
  | succ n ih =>
      have hnext : i + 1 < argv.length := by omega
      have harg := List.getElem?_eq_getElem hnext
      obtain ⟨argv', hrest, hlength, hslots⟩ := ih (i + 1) (argv.set i argv[i + 1])
        (by rw [List.length_set]; exact h) (by omega)
      refine ⟨argv', ?_, ?_, fun j => ?_⟩
      · rw [shuffle_step (by omega) harg, hrest]
      · rw [hlength, List.length_set]
      · rw [hslots, List.getElem?_set, List.getElem?_set]
        by_cases hj : i = j
        · subst hj
          rw [if_neg (by omega), if_pos rfl, if_pos (by omega), if_pos (by omega), harg]
        · by_cases hin : i ≤ j ∧ j < argc - 1
          · rw [if_pos (by omega), if_neg (by omega), if_pos hin]
          · rw [if_neg (by omega), if_neg hj, if_neg hin]

end Loop

/-! ## `main` up to the tests -/

/-- A `char*`: the string that it points to, or null. -/
abbrev CString := Option String

/-- The hooks of an integration; `create_server` reads its two arguments. -/
structure WlcsServerIntegration (σ : Type) where
  createServer : Nat → List CString → σ

/-- The statics of the helpers. `argv` is the array of `main`, which is not written any more once it is kept here. -/
structure Helpers (σ : Type) where
  argc : Nat := 0
  argv : List CString := []
  entryPoint : Option (WlcsServerIntegration σ) := none

/-- `dlopen` and `dlsym`, with the text of `dlerror` where they fail. -/
structure DynamicLinker (σ : Type) where
  dlopen : String → Except String Nat
  dlsym : Nat → String → Except String (WlcsServerIntegration σ)

/-- Where `main` is before `RUN_ALL_TESTS`, and what it has printed. -/
structure Prepared (σ : Type) where
  startup : Startup
  cerr : List String
  helpers : Helpers σ

section Main
variable {σ : Type}

namespace Helpers

def setCommandLine (me : Helpers σ) (argc : Nat) (argv : List CString) : Helpers σ :=
  { me with argc := argc, argv := argv }

def setEntryPoint (me : Helpers σ) (entryPoint : WlcsServerIntegration σ) : Helpers σ :=
  { me with entryPoint := some entryPoint }

def getArgc (me : Helpers σ) : Nat := me.argc

def getArgv (me : Helpers σ) : List CString := me.argv

def getTestHooks (me : Helpers σ) : Option (WlcsServerIntegration σ) := me.entryPoint

end Helpers

/-- The string at a slot, unless the pointer there is null. -/
def stringAt (argv : List CString) (i : Nat) : Option String := argv[i]?.join

/-- `argc < 2 || !argv[1] || std::string{"--help"} == argv[1]` -/
def refuses (argc : Nat) (argv : List CString) : Bool :=
  argc < 2 || stringAt argv 1 = none || stringAt argv 1 = some "--help"

def usage (program : String) : List String :=
  ["WayLand Conformance Suite test runner",
    "Usage: " ++ program ++ " COMPOSITOR_INTEGRATION_MODULE [GTEST OPTIONS]... [COMPOSITOR_OPTIONS]..."]

/-- `SharedLibrary`, `load_function` and `set_entry_point`. -/
def load (linker : DynamicLinker σ) (integrationFilename : String) (helpers : Helpers σ) : Prepared σ :=
  match linker.dlopen integrationFilename with
  | .error what =>
    ⟨.moduleFailed, ["Failed to load compositor integration module " ++ integrationFilename ++ ": " ++ what], helpers⟩
  | .ok so =>
    match linker.dlsym so "wlcs_server_integration" with
    | .error what => ⟨.entryPointFailed, ["Failed to load compositor entry point: " ++ what], helpers⟩
    | .ok entryPoint => ⟨.ready, [], helpers.setEntryPoint entryPoint⟩

/-- `main` from the arguments that InitGoogleTest leaves. `none` stands for a slot outside the array, or a string that is
not there. -/
def prepare (linker : DynamicLinker σ) (argc : Nat) (argv : List CString) : Option (Prepared σ) :=
  if refuses argc argv then do
    let program ← stringAt argv 0
    return ⟨.usage, usage program, {}⟩
  else do
    let integrationFilename ← stringAt argv 1
    let argv ← shuffle argc 1 argv
    return load linker integrationFilename (({} : Helpers σ).setCommandLine (argc - 1) argv)

/-- The constructors of `InProcessServer`, `Server` and `Server::Impl`, as far as `create_server`. -/
def inProcessServer (helpers : Helpers σ) : Option σ :=
  helpers.getTestHooks.map fun hooks => hooks.createServer helpers.getArgc helpers.getArgv

end Main

/-! ## What the integration gets -/

/-- The vector is the old one without the argument at 1, and a null pointer follows the arguments. -/
structure ShuffledOut (argc : Nat) (argv : List CString) (argc' : Nat) (argv' : List CString) : Prop where
  count : argc' = argc - 1
  arguments : argv'.take argc' = (argv.take argc).eraseIdx 1
  terminated : argv'[argc']? = some none

section Handed
variable {σ : Type} {argc : Nat} {argv argv' : List CString}

/-- The loop removes the argument at 1 from the others. -/
theorem take_eq_eraseIdx (hargc : 2 ≤ argc) (hlength : argc ≤ argv.length)
    (hslots : ∀ j, argv'[j]? = if 1 ≤ j ∧ j < argc - 1 then argv[j + 1]? else argv[j]?) :
    argv'.take (argc - 1) = (argv.take argc).eraseIdx 1 := by
  apply List.ext_getElem?
  intro j
  rw [List.getElem?_take, List.getElem?_eraseIdx, hslots]
  by_cases hj : j < argc - 1
  · rw [if_pos hj]
    by_cases hone : j < 1
    · rw [if_neg (by omega), if_pos hone, List.getElem?_take_of_lt (by omega)]
    · rw [if_pos (by omega), if_neg hone, List.getElem?_take_of_lt (by omega)]
  · rw [if_neg hj, if_neg (by omega), List.getElem?_eq_none (by rw [List.length_take]; omega)]

/-- Whatever comes of the integration module, the helpers keep the vector; and if it is loaded, the servers hand the
vector to its `create_server`. -/
theorem load_spec (linker : DynamicLinker σ) (integrationFilename : String) (helpers : Helpers σ) :
    let prepared := load linker integrationFilename helpers
    prepared.helpers.argc = helpers.argc ∧ prepared.helpers.argv = helpers.argv ∧
      (prepared.startup = .ready → ∃ so hooks, linker.dlopen integrationFilename = .ok so ∧
        linker.dlsym so "wlcs_server_integration" = .ok hooks ∧
        inProcessServer prepared.helpers = some (hooks.createServer helpers.argc helpers.argv)) := by
  unfold load
  cases hopen : linker.dlopen integrationFilename with
  | error what => exact ⟨rfl, rfl, nofun⟩
  | ok so =>
      cases hsym : linker.dlsym so "wlcs_server_integration" with
      | error what => simp [hsym]
      | ok hooks =>
          simp only [hsym]
          exact ⟨rfl, rfl, fun _ => ⟨so, hooks, rfl, hsym, rfl⟩⟩

/-- With a module on the command line, `main` goes on to load it. -/
theorem prepare_of_module (linker : DynamicLinker σ) {integrationFilename : String} (hargc : 2 ≤ argc)
    (hfile : argv[1]? = some (some integrationFilename)) (hhelp : integrationFilename ≠ "--help")
    (hshuffle : shuffle argc 1 argv = some argv') :
    prepare linker argc argv =
      some (load linker integrationFilename (({} : Helpers σ).setCommandLine (argc - 1) argv')) := by
  have hstring : stringAt argv 1 = some integrationFilename := by
    rw [stringAt, hfile]
    rfl
  have hcount : ¬ argc < 2 := by omega
  have hrefuses : refuses argc argv = false := by simp [refuses, hstring, hhelp, hcount]
  rw [prepare, hrefuses, hstring, hshuffle]
  rfl

/-- The servers get the right number of the right arguments. The null pointer that ends the vector is not moved, and what
follows the arguments is the last of them once more: a null pointer only if that was one, as no argument is. -/
theorem command_line_shuffled_iff (linker : DynamicLinker σ) (argc : Nat) (argv : List CString)
    (integrationFilename : String) (hargc : 2 ≤ argc) (hnull : argv[argc]? = some none)
    (hfile : argv[1]? = some (some integrationFilename)) (hhelp : integrationFilename ≠ "--help") :
    ∃ prepared argc' argv', prepare linker argc argv = some prepared ∧
      prepared.helpers.getArgc = argc' ∧ prepared.helpers.getArgv = argv' ∧
      (prepared.startup = .ready → ∃ so hooks, linker.dlopen integrationFilename = .ok so ∧
        linker.dlsym so "wlcs_server_integration" = .ok hooks ∧
        inProcessServer prepared.helpers = some (hooks.createServer argc' argv')) ∧
      argc' = argc - 1 ∧ argv'.take argc' = (argv.take argc).eraseIdx 1 ∧ argv'[argc']? = argv[argc - 1]? ∧
      (ShuffledOut argc argv argc' argv' ↔ argv[argc - 1]? = some none) ∧
      ((∀ i < argc, ∃ arg, argv[i]? = some (some arg)) → ¬ ShuffledOut argc argv argc' argv') := by
  have hlength : argc < argv.length := (List.getElem?_eq_some_iff.mp hnull).1
  obtain ⟨argv', hshuffle, -, hslots⟩ := shuffle_spec 1 argv (Nat.le_of_lt hlength)
  obtain ⟨hcount, hvector, hready⟩ := load_spec linker integrationFilename
    (({} : Helpers σ).setCommandLine (argc - 1) argv')
  have harguments := take_eq_eraseIdx hargc (Nat.le_of_lt hlength) hslots
  have hlast : argv'[argc - 1]? = argv[argc - 1]? := by rw [hslots, if_neg (by omega)]
  have hiff : ShuffledOut argc argv (argc - 1) argv' ↔ argv[argc - 1]? = some none := by
    rw [← hlast]
    constructor
    · intro hout
      exact hout.terminated
    · intro hend
      exact ⟨rfl, harguments, hend⟩
  refine ⟨_, argc - 1, argv', prepare_of_module linker hargc hfile hhelp hshuffle, hcount, hvector, hready, rfl,
    harguments, hlast, hiff, fun hstrings hout => ?_⟩
  obtain ⟨arg, harg⟩ := hstrings (argc - 1) (by omega)
  rw [hiff.mp hout] at harg
  cases harg

end Handed

/-- An integration whose servers are the arguments that they are made from. -/
def recordingLinker : DynamicLinker (Nat × List CString) where
  dlopen _ := .ok 1
  dlsym _ _ := .ok ⟨fun argc argv => (argc, argv)⟩

/-- The shortest vector, on which the loop makes no turn. -/
theorem command_line_shuffled_iff_module :
    ∃ prepared, prepare recordingLinker 2 [some "wlcs", some "libmir.so", none] = some prepared ∧
      ¬ ShuffledOut 2 [some "wlcs", some "libmir.so", none] prepared.helpers.getArgc prepared.helpers.getArgv := by
  obtain ⟨prepared, argc', argv', hprepare, hargc, hargv, -, -, -, -, -, hnever⟩ :=
    command_line_shuffled_iff recordingLinker 2 [some "wlcs", some "libmir.so", none] "libmir.so" (by decide) rfl rfl
      (by decide)
  refine ⟨prepared, hprepare, ?_⟩
  rw [hargc, hargv]
  apply hnever
  intro i hi
  match i with
  | 0 => exact ⟨"wlcs", rfl⟩
  | 1 => exact ⟨"libmir.so", rfl⟩

/-- A reader that goes on to the null pointer sees the option twice. -/
theorem command_line_repeats_option :
    (prepare recordingLinker 3 [some "wlcs", some "libmir.so", some "--verbose", none]).bind
        (fun prepared => inProcessServer prepared.helpers) =
      some (2, [some "wlcs", some "--verbose", some "--verbose", none]) ∧
    ¬ ShuffledOut 3 [some "wlcs", some "libmir.so", some "--verbose", none] 2
      [some "wlcs", some "--verbose", some "--verbose", none] := by
  have hshuffle : shuffle 3 1 [some "wlcs", some "libmir.so", some "--verbose", none] =
      some [some "wlcs", some "--verbose", some "--verbose", none] := by
    rw [shuffle_step (by decide) rfl, shuffle_done (by decide)]
    rfl
  constructor
  · rw [prepare_of_module recordingLinker (by decide) rfl (by decide) hshuffle]
    rfl
  · intro hout
    exact absurd hout.terminated (by decide)

end Wlcs.Runner
