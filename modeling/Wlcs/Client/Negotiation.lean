import Mathlib.Order.Bounds.Basic
import Mathlib.Data.List.Induction
import Wlcs.Runner.Listener

/-!
# Binding extensions

`bind_if_supported` binds a global at the best version that the specifier, the compositor and WLCS agree on; where there
is none it tells an extension that the integration does not claim to support from one that is missing
(`bind_if_supported_verdict`).

`Admissible` is the versions that may be bound, and `selectVersion_spec` says that `select_version` picks the greatest.
-/

namespace Wlcs
open Runner (TestProperty)

/-! ## Version specifiers -/

inductive VersionSpecifier
  | exactlyVersion (version : Nat)
  | atLeastVersion (version : Nat)
  | atMostVersion (version : Nat)
deriving DecidableEq, Repr

namespace VersionSpecifier

/-- `AnyVersion` -/
def anyVersion : VersionSpecifier := .atLeastVersion 1

/-- The text of the `logic_error`. -/
def tooHigh (version maxSupportedVersion : Nat) : String :=
  "Required version " ++ toString version ++ " is higher than the highest version supported by WLCS (" ++
    toString maxSupportedVersion ++ ")"

/-- The version to bind, if there is one; the error is a `logic_error`. -/
def selectVersion (maxAvailableVersion maxSupportedVersion : Nat) : VersionSpecifier → Except String (Option Nat)
  | .exactlyVersion version =>
    if version > maxSupportedVersion then .error (tooHigh version maxSupportedVersion)
    else if version > maxAvailableVersion then .ok none
    else .ok (some version)
  | .atLeastVersion version =>
    if version > maxSupportedVersion then .error (tooHigh version maxSupportedVersion)
    else if version > maxAvailableVersion then .ok none
    else .ok (some (min maxAvailableVersion maxSupportedVersion))
  | .atMostVersion version => .ok (some (min version (min maxAvailableVersion maxSupportedVersion)))

def describe : VersionSpecifier → String
  | .exactlyVersion version => "= " ++ toString version
  | .atLeastVersion version => ">= " ++ toString version
  | .atMostVersion version => "<= " ++ toString version

/-- The version is one that the specifier asks for. -/
def Satisfied (n : Nat) : VersionSpecifier → Prop
  | .exactlyVersion version => n = version
  | .atLeastVersion version => version ≤ n
  | .atMostVersion version => n ≤ version

/-- WLCS knows the version that the specifier requires. -/
def Known (maxSupportedVersion : Nat) : VersionSpecifier → Prop
  | .exactlyVersion version => version ≤ maxSupportedVersion
  | .atLeastVersion version => version ≤ maxSupportedVersion
  | .atMostVersion _ => True

instance (maxSupportedVersion : Nat) : DecidablePred (Known maxSupportedVersion)
  | .exactlyVersion version => inferInstanceAs (Decidable (version ≤ maxSupportedVersion))
  | .atLeastVersion version => inferInstanceAs (Decidable (version ≤ maxSupportedVersion))
  | .atMostVersion _ => inferInstanceAs (Decidable True)

/-- The versions that may be bound when `available` is on offer. -/
def Admissible (specifier : VersionSpecifier) (available supported : Nat) : Set Nat :=
  {n | specifier.Satisfied n ∧ n ≤ available ∧ n ≤ supported}

variable {supported : Nat}

/-- `select_version` picks the greatest admissible version, if there is any. -/
theorem selectVersion_spec (specifier : VersionSpecifier) (available : Nat) (h : specifier.Known supported) :
    (∃ n, specifier.selectVersion available supported = .ok (some n) ∧
        IsGreatest (specifier.Admissible available supported) n) ∨
      specifier.selectVersion available supported = .ok none ∧ specifier.Admissible available supported = ∅ := by
  cases specifier with
  | exactlyVersion version =>
      have hknown : ¬ version > supported := Nat.not_lt.mpr h
      simp only [selectVersion, if_neg hknown]
      by_cases hmissing : version > available
      · refine Or.inr ⟨if_pos hmissing, Set.eq_empty_of_forall_notMem ?_⟩
        rintro n ⟨rfl, havailable, -⟩
        omega
      · refine Or.inl ⟨version, if_neg hmissing, ⟨rfl, by omega, by omega⟩, ?_⟩
        rintro n ⟨rfl, -, -⟩
        exact Nat.le_refl _
  | atLeastVersion version =>
      have hknown : ¬ version > supported := Nat.not_lt.mpr h
      simp only [selectVersion, if_neg hknown]
      by_cases hmissing : version > available
      · refine Or.inr ⟨if_pos hmissing, Set.eq_empty_of_forall_notMem ?_⟩
        rintro n ⟨hsatisfied, havailable, -⟩
        change version ≤ n at hsatisfied
        omega
      · refine Or.inl ⟨min available supported, if_neg hmissing, ⟨?_, Nat.min_le_left _ _, Nat.min_le_right _ _⟩, ?_⟩
        · change version ≤ min available supported
          omega
        · rintro n ⟨-, havailable, hsupported⟩
          exact Nat.le_min.mpr ⟨havailable, hsupported⟩
  | atMostVersion version =>
      refine Or.inl ⟨min version (min available supported), rfl, ⟨?_, by omega, by omega⟩, ?_⟩
      · exact Nat.min_le_left _ _
      · rintro n ⟨hsatisfied, havailable, hsupported⟩
        change n ≤ version at hsatisfied
        omega

/-- `select_version` throws for the specifiers that WLCS cannot meet whatever is on offer, and for no others. -/
theorem selectVersion_eq_error_iff (specifier : VersionSpecifier) (available : Nat) :
    (∃ message, specifier.selectVersion available supported = .error message) ↔ ¬ specifier.Known supported := by
  constructor
  · rintro ⟨message, herror⟩ hknown
    rcases specifier.selectVersion_spec available hknown with ⟨n, hselect, -⟩ | ⟨hselect, -⟩
    · rw [hselect] at herror
      cases herror
    · rw [hselect] at herror
      cases herror
  · intro hunknown
    cases specifier with
    | exactlyVersion version =>
        have hhigh : version > supported := Nat.lt_of_not_le hunknown
        exact ⟨_, if_pos hhigh⟩
    | atLeastVersion version =>
        have hhigh : version > supported := Nat.lt_of_not_le hunknown
        exact ⟨_, if_pos hhigh⟩
    | atMostVersion version => exact absurd trivial hunknown

end VersionSpecifier

/-! ## `bind_if_supported` -/

/-- What `wl_interface` says of the interface to bind. -/
structure WlInterface where
  name : String
  version : Nat
deriving DecidableEq, Repr

structure Global where
  id : Nat
  version : Nat
deriving DecidableEq, Repr

/-- The members of `Client::Impl` that binding reads. -/
structure Registry where
  /-- absent when the integration is too old to declare its extensions -/
  supportedExtensions : Option (Std.TreeMap String Nat) := none
  globals : Std.TreeMap String Global := {}

/-- A call of `wl_registry_bind`. -/
structure BindRequest where
  id : Nat
  interface : WlInterface
  version : Nat
deriving DecidableEq, Repr

inductive BindError
  | logicError (message : String)
  | extensionExpectedlyNotSupported (message : String)
  | runtimeError (message : String)
  /-- `throw_wayland_error`, when `wl_registry_bind` returns no proxy -/
  | waylandError
deriving DecidableEq, Repr

/-- What a call of `bind_if_supported` comes to: its result, the requests it made and the properties it recorded for the
running test. -/
structure Binding (Proxy : Type) where
  result : Except BindError Proxy
  requests : List BindRequest := []
  recorded : List TestProperty := []

section Bind
variable {Proxy : Type} (wlRegistryBind : BindRequest → Option Proxy)

/-- The constructor of the exception marks the running test as skipped. -/
def extensionExpectedlyNotSupported (extension : String) (version : VersionSpecifier) : Binding Proxy where
  result := .error (.extensionExpectedlyNotSupported
    ("Extension: " ++ extension ++ " version " ++ version.describe ++ " not supported by compositor under test."))
  recorded := [⟨"wlcs-skip-test", "Missing extension: " ++ extension ++ version.describe⟩]

def failedToBind (toBind : WlInterface) (version : VersionSpecifier) : Binding Proxy where
  result := .error (.runtimeError ("Failed to bind to " ++ toBind.name ++ " version " ++ version.describe))

/-- Whether the integration says that it supports the extension, if it says anything. -/
def Registry.expectedToBeSupported (r : Registry) (toBind : WlInterface) (version : VersionSpecifier) :
    Except String (Option Bool) :=
  match r.supportedExtensions with
  | none => .ok none
  | some extensions =>
    match extensions[toBind.name]? with
    | none => .ok (some false)
    | some declared => (version.selectVersion declared toBind.version).map fun selected => some selected.isSome

def Registry.bindIfSupported (r : Registry) (toBind : WlInterface) (version : VersionSpecifier) : Binding Proxy :=
  match r.expectedToBeSupported toBind version with
  | .error message => { result := .error (.logicError message) }
  | .ok expected =>
    match r.globals[toBind.name]? with
    | some global =>
      match version.selectVersion global.version toBind.version with
      | .error message => { result := .error (.logicError message) }
      | .ok (some versionToBind) =>
        let request : BindRequest := ⟨global.id, toBind, versionToBind⟩
        match wlRegistryBind request with
        | some proxy => { result := .ok proxy, requests := [request] }
        | none => { result := .error .waylandError, requests := [request] }
      | .ok none =>
        if !expected.getD true then extensionExpectedlyNotSupported toBind.name version
        else failedToBind toBind version
    | none =>
      if !expected.getD true then extensionExpectedlyNotSupported toBind.name version
      else failedToBind toBind version

/-! ## The verdict -/

/-- The compositor offers the interface at a version that lets it be bound. -/
def Registry.CanBind (r : Registry) (toBind : WlInterface) (version : VersionSpecifier) : Prop :=
  ∃ global, r.globals[toBind.name]? = some global ∧ (version.Admissible global.version toBind.version).Nonempty

/-- The integration says what it supports, and no version that it lists would do. -/
def Registry.Disclaims (r : Registry) (toBind : WlInterface) (version : VersionSpecifier) : Prop :=
  ∃ extensions, r.supportedExtensions = some extensions ∧
    ¬ ∃ declared, extensions[toBind.name]? = some declared ∧ (version.Admissible declared toBind.version).Nonempty

variable {r : Registry} {toBind : WlInterface} {version : VersionSpecifier}

theorem expectedToBeSupported_spec (h : version.Known toBind.version) :
    ∃ expected, r.expectedToBeSupported toBind version = .ok expected ∧
      ((!expected.getD true) = true ↔ r.Disclaims toBind version) := by
  cases htable : r.supportedExtensions with
  | none =>
      refine ⟨none, by simp only [Registry.expectedToBeSupported, htable], iff_of_false (by decide) ?_⟩
      rintro ⟨extensions, hsome, -⟩
      rw [htable] at hsome
      cases hsome
  | some extensions =>
      have hdisclaims : r.Disclaims toBind version ↔ ¬ ∃ declared, extensions[toBind.name]? = some declared ∧
          (version.Admissible declared toBind.version).Nonempty := by
        unfold Registry.Disclaims
        rw [htable]
        simp only [Option.some.injEq, exists_eq_left']
      cases hdeclared : extensions[toBind.name]? with
      | none =>
          refine ⟨some false, by simp only [Registry.expectedToBeSupported, htable, hdeclared], ?_⟩
          rw [hdisclaims, hdeclared]
          simp
      | some declared =>
          rw [hdeclared] at hdisclaims
          simp only [Option.some.injEq, exists_eq_left'] at hdisclaims
          rcases version.selectVersion_spec declared h with ⟨n, hselect, hgreatest⟩ | ⟨hselect, hempty⟩
          · refine ⟨some true, ?_, iff_of_false (by decide) ?_⟩
            · simp only [Registry.expectedToBeSupported, htable, hdeclared, hselect]
              rfl
            · rw [hdisclaims, not_not]
              exact ⟨n, hgreatest.1⟩
          · refine ⟨some false, ?_, iff_of_true rfl ?_⟩
            · simp only [Registry.expectedToBeSupported, htable, hdeclared, hselect]
              rfl
            · rw [hdisclaims, hempty]
              exact Set.not_nonempty_empty

/-- Nothing can be bound: the test is skipped or fails. -/
theorem bindIfSupported_of_not_canBind (h : version.Known toBind.version) (hbind : ¬ r.CanBind toBind version) :
    (r.Disclaims toBind version ∧
        r.bindIfSupported wlRegistryBind toBind version = extensionExpectedlyNotSupported toBind.name version) ∨
      (¬ r.Disclaims toBind version ∧
        r.bindIfSupported wlRegistryBind toBind version = failedToBind toBind version) := by
  obtain ⟨expected, hexpected, hdisclaims⟩ := expectedToBeSupported_spec (r := r) h
  have hbinding : r.bindIfSupported wlRegistryBind toBind version =
      if !expected.getD true then extensionExpectedlyNotSupported toBind.name version
      else failedToBind toBind version := by
    cases hglobal : r.globals[toBind.name]? with
    | none => simp only [Registry.bindIfSupported, hexpected, hglobal]
    | some global =>
        rcases version.selectVersion_spec global.version h with ⟨n, -, hgreatest⟩ | ⟨hselect, -⟩
        · exact absurd ⟨global, hglobal, n, hgreatest.1⟩ hbind
        · simp only [Registry.bindIfSupported, hexpected, hglobal, hselect]
  by_cases hskip : (!expected.getD true) = true
  · exact Or.inl ⟨hdisclaims.mp hskip, by rw [hbinding, if_pos hskip]⟩
  · exact Or.inr ⟨fun hd => hskip (hdisclaims.mpr hd), by rw [hbinding, if_neg hskip]⟩

theorem bindIfSupported_of_canBind (h : version.Known toBind.version) (hbind : r.CanBind toBind version) :
    ∃ global n, r.globals[toBind.name]? = some global ∧ IsGreatest (version.Admissible global.version toBind.version) n ∧
      r.bindIfSupported wlRegistryBind toBind version =
        { result := (wlRegistryBind ⟨global.id, toBind, n⟩).elim (.error .waylandError) .ok
          requests := [⟨global.id, toBind, n⟩] } := by
  obtain ⟨expected, hexpected, -⟩ := expectedToBeSupported_spec (r := r) h
  obtain ⟨global, hglobal, hadmissible⟩ := hbind
  rcases version.selectVersion_spec global.version h with ⟨n, hselect, hgreatest⟩ | ⟨-, hempty⟩
  · refine ⟨global, n, hglobal, hgreatest, ?_⟩
    simp only [Registry.bindIfSupported, hexpected, hglobal, hselect]
    cases wlRegistryBind ⟨global.id, toBind, n⟩ with
    | none => rfl
    | some proxy => rfl
  · rw [hempty] at hadmissible
    exact absurd hadmissible Set.not_nonempty_empty

/-- Whatever the specifier, only the global that is kept for the interface is bound. -/
theorem bindIfSupported_request {request : BindRequest}
    (h : request ∈ (r.bindIfSupported wlRegistryBind toBind version).requests) :
    ∃ global, r.globals[toBind.name]? = some global ∧ request.id = global.id := by
  unfold Registry.bindIfSupported at h
  split at h
  · cases h
  · split at h
    · rename_i global hglobal
      refine ⟨global, hglobal, ?_⟩
      split at h
      · cases h
      · simp only at h
        split at h
        · rw [List.mem_singleton.mp h]
        · rw [List.mem_singleton.mp h]
      · split at h
        · cases h
        · cases h
    · split at h
      · cases h
      · cases h

/-- **Negotiation**: an interface is bound exactly when the compositor offers an admissible version, and then at the
greatest one. Otherwise the test is skipped if the integration says that it supports no such version, and fails if not. -/
theorem bind_if_supported_verdict (r : Registry) (toBind : WlInterface) (version : VersionSpecifier)
    (h : version.Known toBind.version) :
    let binding := r.bindIfSupported wlRegistryBind toBind version
    (binding.requests ≠ [] ↔ r.CanBind toBind version) ∧
    (∀ request ∈ binding.requests, binding.requests = [request] ∧ request.interface = toBind ∧
      (∃ global, r.globals[toBind.name]? = some global ∧ request.id = global.id ∧
        IsGreatest {n | version.Satisfied n ∧ n ≤ global.version ∧ n ≤ toBind.version} request.version) ∧
      binding.result = (wlRegistryBind request).elim (.error .waylandError) .ok) ∧
    ((∃ message, binding.result = .error (.extensionExpectedlyNotSupported message)) ↔
      ¬ r.CanBind toBind version ∧ r.Disclaims toBind version) ∧
    ((∃ property ∈ binding.recorded, property.key = "wlcs-skip-test") ↔
      ¬ r.CanBind toBind version ∧ r.Disclaims toBind version) ∧
    ((∃ message, binding.result = .error (.runtimeError message)) ↔
      ¬ r.CanBind toBind version ∧ ¬ r.Disclaims toBind version) := by
  intro binding
  by_cases hbind : r.CanBind toBind version
  · obtain ⟨global, n, hglobal, hgreatest, heq⟩ := bindIfSupported_of_canBind wlRegistryBind h hbind
    have hresult : binding.result = (wlRegistryBind ⟨global.id, toBind, n⟩).elim (.error .waylandError) .ok := by
      show (r.bindIfSupported wlRegistryBind toBind version).result = _
      rw [heq]
    have hrequests : binding.requests = [⟨global.id, toBind, n⟩] := congrArg Binding.requests heq
    have hrecorded : binding.recorded = [] := congrArg Binding.recorded heq
    -- `wl_registry_bind` fails with neither of the two errors
    have hother (error : BindError) (hne : error ≠ .waylandError) : binding.result ≠ .error error := by
      rw [hresult]
      cases wlRegistryBind ⟨global.id, toBind, n⟩ with
      | none => exact fun he => hne (Except.error.inj he).symm
      | some proxy => exact fun he => by cases he
    refine ⟨iff_of_true (by rw [hrequests]; exact List.cons_ne_nil _ _) hbind, ?_, ?_, ?_, ?_⟩
    · intro request hrequest
      rw [hrequests, List.mem_singleton] at hrequest
      subst hrequest
      exact ⟨hrequests, rfl, ⟨global, hglobal, rfl, hgreatest⟩, hresult⟩
    · exact iff_of_false (fun ⟨message, he⟩ => hother _ (fun heq => by cases heq) he) (fun hneg => hneg.1 hbind)
    · rw [hrecorded]
      exact iff_of_false (fun ⟨property, hmem, _⟩ => by cases hmem) (fun hneg => hneg.1 hbind)
    · exact iff_of_false (fun ⟨message, he⟩ => hother _ (fun heq => by cases heq) he) (fun hneg => hneg.1 hbind)
  · rcases bindIfSupported_of_not_canBind wlRegistryBind h hbind with ⟨hdisclaims, heq⟩ | ⟨hclaims, heq⟩
    · simp only [binding, heq]
      refine ⟨iff_of_false (fun hne => hne rfl) hbind, fun request hrequest => (by cases hrequest),
        iff_of_true ⟨_, rfl⟩ ⟨hbind, hdisclaims⟩, iff_of_true ⟨_, List.mem_singleton_self _, rfl⟩ ⟨hbind, hdisclaims⟩,
        iff_of_false ?_ fun hneg => hneg.2 hdisclaims⟩
      rintro ⟨message, he⟩
      cases he
    · simp only [binding, heq]
      refine ⟨iff_of_false (fun hne => hne rfl) hbind, fun request hrequest => (by cases hrequest),
        iff_of_false ?_ fun hneg => hclaims hneg.2, iff_of_false ?_ fun hneg => hclaims hneg.2,
        iff_of_true ⟨_, rfl⟩ ⟨hbind, hclaims⟩⟩
      · rintro ⟨message, he⟩
        cases he
      · rintro ⟨property, hmem, -⟩
        cases hmem

end Bind

/-- A compositor that offers `xdg_wm_base` at version 3, from an integration that claims version 2. -/
def partialShell : Registry where
  supportedExtensions := some (Std.TreeMap.empty.insert "xdg_wm_base" 2)
  globals := (Std.TreeMap.empty.insert "wl_compositor" ⟨1, 4⟩).insert "xdg_wm_base" ⟨2, 3⟩

/-- Version 4 is neither there nor claimed. -/
theorem bind_if_supported_verdict_partialShell :
    (VersionSpecifier.atLeastVersion 4).Known 6 ∧
      (partialShell.bindIfSupported some ⟨"xdg_wm_base", 6⟩ (.atLeastVersion 4)).recorded =
        [⟨"wlcs-skip-test", "Missing extension: xdg_wm_base>= 4"⟩] ∧
      ((∃ property ∈ (partialShell.bindIfSupported some ⟨"xdg_wm_base", 6⟩ (.atLeastVersion 4)).recorded,
          property.key = "wlcs-skip-test") ↔
        ¬ partialShell.CanBind ⟨"xdg_wm_base", 6⟩ (.atLeastVersion 4) ∧
          partialShell.Disclaims ⟨"xdg_wm_base", 6⟩ (.atLeastVersion 4)) :=
  ⟨by decide, by decide +kernel,
    (bind_if_supported_verdict some partialShell ⟨"xdg_wm_base", 6⟩ (.atLeastVersion 4) (by decide)).2.2.2.1⟩

end Wlcs
