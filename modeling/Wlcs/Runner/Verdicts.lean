import Mathlib.Data.Finset.Disjoint
import Wlcs.Runner.Masking

/-!
# One verdict for each test

The two sets of names are filled part by part, and a test may declare itself skipped between two failing parts.
`one_verdict_iff` says that a test ends up in one set, and the line printed at its end agrees with the sets, exactly
when no test fails both before and after it has declared itself skipped.

`Verdicts` reads the sets off the run of the test in progress.
-/

namespace Wlcs.Runner
open EventMachine History

/-! ## Runs -/

/-- gtest runs each test once in an iteration, and tests have different names. -/
def NamesDistinct (events : List Event) : Prop :=
  ∀ pre info, pre ++ [.testStart info] <+: events →
    ∀ other, .testStart other ∈ openGroup Event.startsIteration pre → other.fullName ≠ info.fullName

theorem NamesDistinct.restrict {events more : List Event} (h : NamesDistinct more) (hp : events <+: more) :
    NamesDistinct events :=
  fun pre info hpre => h pre info (hpre.trans hp)

/-- After the events `pre` a failing part comes while a test runs that has declared itself skipped. -/
def ExcusedAt (pre : List Event) (result : TestPartResult) : Prop :=
  result.failed = true ∧ ∃ info, (after pre).gtest.running = some info ∧ (after pre).gtest.Skips info

def UnexcusedPart (pre : List Event) (e : Event) : Prop := ∃ result, e = .testPartResult result ∧ UnexcusedAt pre result

/-- No test has a failing part without an excuse and then, after it has declared itself skipped, another failing part. -/
def Steady (events : List Event) : Prop :=
  ∀ pre result, pre ++ [.testPartResult result] <+: events → ExcusedAt pre result →
    ¬ Since Event.endsTest UnexcusedPart pre

theorem Steady.restrict {events more : List Event} (h : Steady more) (hp : events <+: more) : Steady events :=
  fun pre result hpre => h pre result (hpre.trans hp)

/-- At the end of every iteration no test is in both sets, and each test of the iteration was announced as skipped if it
is in the one, and left to the printer otherwise. -/
def OneVerdict (events : List Event) : Prop :=
  ∀ pre unitTest iteration, pre ++ [.testIterationEnd unitTest iteration] <+: events →
    Disjoint (after pre).listener.failedTestNames (after pre).listener.skippedTestNames ∧
      ∀ before info mid, pre = before ++ .testEnd info :: mid → (∀ e ∈ mid, e.startsIteration = false) →
        let printed := (runner.step (after before) (.testEnd info)).2
        let skipped := info.fullName ∈ (after pre).listener.skippedTestNames ∧
          info.fullName ∉ (after pre).listener.failedTestNames
        (.skip info.fullName ∈ printed ↔ skipped) ∧ (.delegate (.testEnd info) ∈ printed ↔ ¬ skipped)

/-! ## The invariant -/

/-- A test of this name has ended in this iteration. -/
def EndedIn (events : List Event) (name : String) : Prop :=
  Since Event.startsIteration (fun _ e => ∃ info, e = .testEnd info ∧ info.fullName = name) events

/-- A test of this name has started in this iteration. -/
def StartedIn (events : List Event) (name : String) : Prop :=
  ∃ info, .testStart info ∈ openGroup Event.startsIteration events ∧ info.fullName = name

structure Verdicts (events : List Event) (p : Phase) : Prop where
  started : ∀ name, name ∈ (after events).listener.failedTestNames ∨ name ∈ (after events).listener.skippedTestNames ∨
    EndedIn events name → StartedIn events name
  outside : p.test = none → ¬ Since Event.endsTest UnexcusedPart events
  current : ∀ info, p = .testing info → StartedIn events info.fullName ∧ ¬ EndedIn events info.fullName
  skipped : ∀ info, p = .testing info → (info.fullName ∈ (after events).listener.skippedTestNames ↔
    (after events).listener.currentSkipReasons.isSome = true)
  failed : ∀ info, p = .testing info → (info.fullName ∈ (after events).listener.failedTestNames ↔
    Since Event.endsTest UnexcusedPart events)

theorem startedIn_concat {events : List Event} {e : Event} {name : String} (he : e.startsIteration = false)
    (h : StartedIn events name) : StartedIn (events ++ [e]) name := by
  obtain ⟨info, hmem, hname⟩ := h
  refine ⟨info, ?_, hname⟩
  rw [openGroup_concat, he]
  exact List.mem_append_left _ hmem

theorem endedIn_concat {events : List Event} {e : Event} {name : String} (he : e.startsIteration = false)
    (hend : e.endsTest = false) : EndedIn (events ++ [e]) name ↔ EndedIn events name := by
  rw [EndedIn, since_concat, and_iff_left he, ← EndedIn]
  refine or_iff_right ?_
  rintro ⟨info, rfl, -⟩
  cases hend

theorem since_unexcused_concat {events : List Event} {e : Event} (hend : e.endsTest = false)
    (hpart : ∀ result, e ≠ .testPartResult result) :
    Since Event.endsTest UnexcusedPart (events ++ [e]) ↔ Since Event.endsTest UnexcusedPart events := by
  rw [since_concat, and_iff_left hend]
  refine or_iff_right ?_
  rintro ⟨result, heq, -⟩
  exact hpart result heq

/-- The names from before are still those of tests that have started. -/
theorem Verdicts.started_concat {events : List Event} {p : Phase} {e : Event} (h : Verdicts events p)
    (hiteration : e.startsIteration = false) (hend : e.endsTest = false) {name : String}
    (hname : name ∈ (after events).listener.failedTestNames ∨ name ∈ (after events).listener.skippedTestNames ∨
      EndedIn (events ++ [e]) name) : StartedIn (events ++ [e]) name := by
  rw [endedIn_concat hiteration hend] at hname
  exact startedIn_concat hiteration (h.started name hname)

/-- An event at which the listener keeps its names and its skip reasons, no test starts or ends, and nothing fails. -/
theorem Verdicts.quiet {events : List Event} {p q : Phase} {e : Event} (h : Verdicts events p)
    (hq : q = p ∨ q.test = none ∧ p.test = none) (hiteration : e.startsIteration = false) (hend : e.endsTest = false)
    (hpart : ¬ UnexcusedPart events e)
    (hfailed : (after (events ++ [e])).listener.failedTestNames = (after events).listener.failedTestNames)
    (hskipped : (after (events ++ [e])).listener.skippedTestNames = (after events).listener.skippedTestNames)
    (hreasons : (after (events ++ [e])).listener.currentSkipReasons = (after events).listener.currentSkipReasons) :
    Verdicts (events ++ [e]) q := by
  have hsince : Since Event.endsTest UnexcusedPart (events ++ [e]) ↔ Since Event.endsTest UnexcusedPart events := by
    rw [since_concat, and_iff_left hend, or_iff_right hpart]
  have htest (info : TestInfo) (hinfo : q = .testing info) : p = .testing info := by
    rcases hq with rfl | ⟨hnone, -⟩
    · exact hinfo
    · rw [hinfo] at hnone
      cases hnone
  refine ⟨fun name hname => ?_, fun hnone => ?_, fun info hinfo => ?_, fun info hinfo => ?_, fun info hinfo => ?_⟩
  · rw [hfailed, hskipped] at hname
    exact h.started_concat hiteration hend hname
  · rw [hsince]
    refine h.outside ?_
    rcases hq with rfl | ⟨-, hp⟩
    · exact hnone
    · exact hp
  · rw [endedIn_concat hiteration hend]
    exact ⟨startedIn_concat hiteration (h.current info (htest info hinfo)).1, (h.current info (htest info hinfo)).2⟩
  · rw [hskipped, hreasons]
    exact h.skipped info (htest info hinfo)
  · rw [hfailed, hsince]
    exact h.failed info (htest info hinfo)

/-- A failing part of the test in progress. -/
theorem Verdicts.part {events : List Event} {info : TestInfo} {result : TestPartResult}
    (h : Verdicts events (.testing info)) (hc : Current (.testing info) (after events))
    (hresult : result.failed = true) : Verdicts (events ++ [.testPartResult result]) (.testing info) := by
  obtain ⟨hrunning, hcurrent⟩ := hc.running info rfl
  obtain ⟨hstarted, hnotEnded⟩ := h.current info rfl
  have hstep := startedIn_concat (e := .testPartResult result) rfl hstarted
  have hkept : StartedIn (events ++ [.testPartResult result]) info.fullName ∧
      ¬ EndedIn (events ++ [.testPartResult result]) info.fullName := by
    rw [endedIn_concat rfl rfl]
    exact ⟨hstep, hnotEnded⟩
  obtain ⟨l, out, hpart, hcases⟩ := step_failing (after events) hresult
  have hafter : (after (events ++ [.testPartResult result])).listener = l := by rw [after_concat, hpart]
  cases hcases with
  | dangling hnone =>
      rw [hcurrent] at hnone
      cases hnone
  | @skipped other reasons hinfo hskip =>
      rw [hcurrent] at hinfo
      obtain rfl := Option.some.inj hinfo
      have hskips : (after events).gtest.Skips info := by
        rcases hskip with hskip | hreasons
        · exact hskip
        · obtain ⟨other, hother, hskips⟩ := hc.reasons hreasons
          exact Phase.testing.inj hother ▸ hskips
      have hexcused : ¬ UnexcusedPart events (.testPartResult result) := by
        rintro ⟨part, -, -, test, htest, hnot⟩
        rw [hrunning] at htest
        exact hnot (Option.some.inj htest ▸ hskips)
      refine ⟨fun name hname => ?_, fun hnone => (by cases hnone), fun test htest => ?_, fun test htest => ?_,
        fun test htest => ?_⟩
      · rw [hafter, Finset.mem_insert] at hname
        rcases hname with hname | (rfl | hname) | hname
        · exact h.started_concat rfl rfl (Or.inl hname)
        · exact hstep
        · exact h.started_concat rfl rfl (Or.inr (Or.inl hname))
        · exact h.started_concat rfl rfl (Or.inr (Or.inr hname))
      · exact Phase.testing.inj htest ▸ hkept
      · rw [hafter]
        refine iff_of_true ?_ rfl
        rw [← Phase.testing.inj htest]
        exact Finset.mem_insert_self _ _
      · rw [hafter, since_concat, and_iff_left (show (Event.testPartResult result).endsTest = false from rfl),
          or_iff_right hexcused]
        exact h.failed test htest
  | @failed other hinfo hskip hreasons =>
      rw [hcurrent] at hinfo
      obtain rfl := Option.some.inj hinfo
      refine ⟨fun name hname => ?_, fun hnone => (by cases hnone), fun test htest => ?_, fun test htest => ?_,
        fun test htest => ?_⟩
      · rw [hafter, Finset.mem_insert] at hname
        rcases hname with (rfl | hname) | hname
        · exact hstep
        · exact h.started_concat rfl rfl (Or.inl hname)
        · exact h.started_concat rfl rfl (Or.inr hname)
      · exact Phase.testing.inj htest ▸ hkept
      · rw [hafter]
        exact h.skipped test htest
      · rw [hafter, since_concat]
        refine iff_of_true ?_ (Or.inl ⟨result, rfl, hresult, info, hrunning, hskip⟩)
        rw [← Phase.testing.inj htest]
        exact Finset.mem_insert_self _ _

theorem Verdicts.iterationStart {events : List Event} (h : Verdicts events .outside) (iteration : Nat) :
    Verdicts (events ++ [.testIterationStart iteration]) .iterating := by
  have hafter : (after (events ++ [.testIterationStart iteration])).listener =
      { (after events).listener with failedTestNames := ∅, skippedTestNames := ∅ } := by
    rw [after_concat]
    rfl
  refine ⟨fun name hname => ?_, fun _ => ?_, fun info hinfo => (by cases hinfo), fun info hinfo => (by cases hinfo),
    fun info hinfo => (by cases hinfo)⟩
  · rw [hafter, EndedIn, since_concat] at hname
    rcases hname with hname | hname | ⟨info, heq, -⟩ | ⟨-, hmark⟩
    · cases hname
    · cases hname
    · cases heq
    · cases hmark
  · rw [since_unexcused_concat rfl fun result heq => by cases heq]
    exact h.outside rfl

/-- A test starts whose name no test of the iteration had. -/
theorem Verdicts.testStart {events : List Event} {info : TestInfo} (h : Verdicts events .iterating)
    (hc : Current .iterating (after events)) (hdistinct : NamesDistinct (events ++ [.testStart info])) :
    Verdicts (events ++ [.testStart info]) (.testing info) := by
  have hafter : (after (events ++ [.testStart info])).listener =
      { (after events).listener with currentTestInfo := some info } := by
    rw [after_concat]
    rfl
  have hnew (hname : info.fullName ∈ (after events).listener.failedTestNames ∨
      info.fullName ∈ (after events).listener.skippedTestNames ∨ EndedIn events info.fullName) : False := by
    obtain ⟨other, hother, hsame⟩ := h.started _ hname
    exact hdistinct events info (List.prefix_refl _) other hother hsame
  refine ⟨fun name hname => ?_, fun hnone => (by cases hnone), fun test htest => ?_, fun test htest => ?_,
    fun test htest => ?_⟩
  · rw [hafter] at hname
    exact h.started_concat rfl rfl hname
  · rw [endedIn_concat rfl rfl, ← Phase.testing.inj htest]
    refine ⟨⟨info, ?_, rfl⟩, fun hended => hnew (Or.inr (Or.inr hended))⟩
    rw [openGroup_concat]
    exact List.mem_append_right _ (List.mem_singleton_self _)
  · rw [hafter, ← Phase.testing.inj htest]
    refine iff_of_false (fun hmem => hnew (Or.inr (Or.inl hmem))) fun hreasons => ?_
    obtain ⟨other, hother, -⟩ := hc.reasons hreasons
    cases hother
  · rw [hafter, ← Phase.testing.inj htest, since_unexcused_concat rfl fun result heq => by cases heq]
    exact iff_of_false (fun hmem => hnew (Or.inl hmem)) (h.outside rfl)

theorem Verdicts.testEnd {events : List Event} {info : TestInfo} (h : Verdicts events (.testing info)) :
    Verdicts (events ++ [.testEnd info]) .iterating := by
  have hafter : (after (events ++ [.testEnd info])).listener =
      { (after events).listener with currentSkipReasons := none } := by
    rw [after_concat]
    rfl
  refine ⟨fun name hname => ?_, fun _ => ?_, fun test htest => (by cases htest), fun test htest => (by cases htest),
    fun test htest => (by cases htest)⟩
  · rw [hafter, EndedIn, since_concat, and_iff_left (show (Event.testEnd info).startsIteration = false from rfl),
      ← EndedIn] at hname
    apply startedIn_concat rfl
    rcases hname with hname | hname | ⟨other, heq, rfl⟩ | hname
    · exact h.started name (Or.inl hname)
    · exact h.started name (Or.inr (Or.inl hname))
    · rw [← Event.testEnd.inj heq]
      exact (h.current info rfl).1
    · exact h.started name (Or.inr (Or.inr hname))
  · rw [since_concat]
    rintro (⟨result, heq, -⟩ | ⟨-, hmark⟩)
    · cases heq
    · cases hmark

theorem Verdicts.step {events : List Event} {p q : Phase} {e : Event} (h : Verdicts events p)
    (hc : Current p (after events)) (hdistinct : NamesDistinct (events ++ [e])) (hstep : PhaseStep p e q) :
    Verdicts (events ++ [e]) q := by
  cases hstep with
  | @passedOn p e he =>
      have hsame : after (events ++ [e]) = after events := by rw [after_concat, step_passedOn he]
      have hkind : e.startsIteration = false ∧ e.endsTest = false ∧ ∀ result, e ≠ .testPartResult result := by
        cases e with
        | testIterationStart | testStart | recordProperty | testPartResult | testEnd | testIterationEnd => cases he
        | _ => exact ⟨rfl, rfl, fun result heq => (by cases heq)⟩
      refine h.quiet (Or.inl rfl) hkind.1 hkind.2.1 ?_ (by rw [hsame]) (by rw [hsame]) (by rw [hsame])
      rintro ⟨result, heq, -⟩
      exact hkind.2.2 result heq
  | @testIterationStart iteration => exact h.iterationStart iteration
  | @testStart info => exact h.testStart hc hdistinct
  | @recordProperty info property =>
      have hafter : (after (events ++ [.recordProperty property])).listener = (after events).listener := by
        rw [after_concat]
        rfl
      refine h.quiet (Or.inl rfl) rfl rfl ?_ (by rw [hafter]) (by rw [hafter]) (by rw [hafter])
      rintro ⟨result, heq, -⟩
      cases heq
  | @testPartResult info result =>
      by_cases hresult : result.failed = true
      · exact h.part hc hresult
      · have hsame : after (events ++ [.testPartResult result]) = after events := by
          rw [after_concat, step_passing _ hresult]
        refine h.quiet (Or.inl rfl) rfl rfl ?_ (by rw [hsame]) (by rw [hsame]) (by rw [hsame])
        rintro ⟨other, heq, hother, -⟩
        exact hresult (Event.testPartResult.inj heq ▸ hother)
  | @testEnd info => exact h.testEnd
  | @testIterationEnd unitTest iteration =>
      refine h.quiet (Or.inr ⟨rfl, rfl⟩) rfl rfl ?_ (by rw [after_concat]; rfl) (by rw [after_concat]; rfl)
        (by rw [after_concat]; rfl)
      rintro ⟨result, heq, -⟩
      cases heq

theorem run_verdicts {events : List Event} {p : Phase} (h : phase events = some p) (hdistinct : NamesDistinct events) :
    Verdicts events p := by
  induction events using List.reverseRecOn generalizing p with
  | nil =>
      obtain rfl := Option.some.inj h
      refine ⟨?_, fun _ => not_since_nil, fun info hinfo => (by cases hinfo), fun info hinfo => (by cases hinfo),
        fun info hinfo => (by cases hinfo)⟩
      rintro name (hname | hname | hname)
      · cases hname
      · cases hname
      · exact absurd hname not_since_nil
  | append_singleton events e ih =>
      rw [phase_concat] at h
      obtain ⟨q, hq, hnext⟩ := Option.bind_eq_some_iff.mp h
      have hpre := hdistinct.restrict (List.prefix_append events [e])
      exact (ih hq hpre).step (run_accounted hq).1 hdistinct (phaseStep_of_next hnext)

/-! ## The sets of names -/

/-- What an event does to the two sets. -/
theorem names_cases {events : List Event} {p q : Phase} {e : Event} (hc : Current p (after events))
    (hstep : PhaseStep p e q) :
    let l := (after events).listener
    let l' := (after (events ++ [e])).listener
    e.startsIteration = true ∧ l'.failedTestNames = ∅ ∧ l'.skippedTestNames = ∅ ∨
      l'.failedTestNames = l.failedTestNames ∧ l'.skippedTestNames = l.skippedTestNames ∧
        (∀ result, e = .testPartResult result → ¬ ExcusedAt events result) ∨
      (∃ info result, p = .testing info ∧ e = .testPartResult result ∧ ExcusedAt events result ∧
        l'.failedTestNames = l.failedTestNames ∧ l'.skippedTestNames = insert info.fullName l.skippedTestNames) ∨
      ∃ info result, p = .testing info ∧ e = .testPartResult result ∧ UnexcusedAt events result ∧
        l'.failedTestNames = insert info.fullName l.failedTestNames ∧ l'.skippedTestNames = l.skippedTestNames := by
  intro l l'
  have hl' : l' = (runner.step (after events) e).1.listener := by rw [← after_concat]
  rw [hl']
  cases hstep with
  | passedOn he =>
      refine Or.inr (Or.inl ⟨by rw [step_passedOn he], by rw [step_passedOn he], ?_⟩)
      rintro result rfl
      cases he
  | testIterationStart => exact Or.inl ⟨rfl, rfl, rfl⟩
  | @testPartResult info result =>
      obtain ⟨hrunning, hcurrent⟩ := hc.running info rfl
      by_cases hfailed : result.failed = true
      · obtain ⟨l, out, hpart, hcases⟩ := step_failing (after events) hfailed
        rw [hpart]
        cases hcases with
        | dangling hnone =>
            rw [hcurrent] at hnone
            cases hnone
        | @skipped other reasons hinfo hskip =>
            rw [hcurrent] at hinfo
            obtain rfl := Option.some.inj hinfo
            refine Or.inr (Or.inr (Or.inl ⟨info, result, rfl, rfl, ⟨hfailed, info, hrunning, ?_⟩, rfl, rfl⟩))
            rcases hskip with hskip | hreasons
            · exact hskip
            · obtain ⟨other, hother, hskips⟩ := hc.reasons hreasons
              exact Phase.testing.inj hother ▸ hskips
        | @failed other hinfo hskip hreasons =>
            rw [hcurrent] at hinfo
            obtain rfl := Option.some.inj hinfo
            exact Or.inr (Or.inr (Or.inr ⟨info, result, rfl, rfl, ⟨hfailed, info, hrunning, hskip⟩, rfl, rfl⟩))
      · refine Or.inr (Or.inl ⟨by rw [step_passing _ hfailed], by rw [step_passing _ hfailed], ?_⟩)
        intro other heq hexcused
        exact hfailed (Event.testPartResult.inj heq ▸ hexcused.1)
  | testStart | recordProperty | testEnd | testIterationEnd =>
      exact Or.inr (Or.inl ⟨rfl, rfl, fun result heq => (by cases heq)⟩)

theorem disjoint_of_steady {events : List Event} {p : Phase} (h : phase events = some p)
    (hdistinct : NamesDistinct events) (hsteady : Steady events) :
    Disjoint (after events).listener.failedTestNames (after events).listener.skippedTestNames := by
  induction events using List.reverseRecOn generalizing p with
  | nil => exact Finset.disjoint_empty_left _
  | append_singleton events e ih =>
      rw [phase_concat] at h
      obtain ⟨q, hq, hnext⟩ := Option.bind_eq_some_iff.mp h
      have hpre := hdistinct.restrict (List.prefix_append events [e])
      have ih := ih hq hpre (hsteady.restrict (List.prefix_append events [e]))
      have hverdicts := run_verdicts hq hpre
      have hc := (run_accounted hq).1
      rcases names_cases hc (phaseStep_of_next hnext) with ⟨-, hfailed, -⟩ | ⟨hfailed, hskipped, -⟩ |
        ⟨info, result, rfl, rfl, hexcused, hfailed, hskipped⟩ | ⟨info, result, rfl, rfl, hunexcused, hfailed, hskipped⟩
      · rw [hfailed]
        exact Finset.disjoint_empty_left _
      · rw [hfailed, hskipped]
        exact ih
      · rw [hfailed, hskipped, Finset.disjoint_insert_right]
        refine ⟨fun hmem => ?_, ih⟩
        exact hsteady events result (List.prefix_refl _) hexcused ((hverdicts.failed info rfl).mp hmem)
      · rw [hfailed, hskipped, Finset.disjoint_insert_left]
        refine ⟨fun hmem => ?_, ih⟩
        obtain ⟨other, hother, hskips⟩ := hc.reasons ((hverdicts.skipped info rfl).mp hmem)
        obtain ⟨-, test, htest, hnot⟩ := hunexcused
        rw [(hc.running info rfl).1] at htest
        rw [← Phase.testing.inj hother, Option.some.inj htest] at hskips
        exact hnot hskips

/-- A test that has ended stays where it is until the next iteration. -/
theorem verdict_kept {pre more : List Event} {p : Phase} {name : String} (h : phase (pre ++ more) = some p)
    (hdistinct : NamesDistinct (pre ++ more)) (hended : EndedIn pre name)
    (hmore : ∀ e ∈ more, e.startsIteration = false) :
    EndedIn (pre ++ more) name ∧
      (name ∈ (after (pre ++ more)).listener.failedTestNames ↔ name ∈ (after pre).listener.failedTestNames) ∧
      (name ∈ (after (pre ++ more)).listener.skippedTestNames ↔ name ∈ (after pre).listener.skippedTestNames) := by
  induction more using List.reverseRecOn generalizing p with
  | nil =>
      rw [List.append_nil]
      exact ⟨hended, Iff.rfl, Iff.rfl⟩
  | append_singleton more e ih =>
      rw [← List.append_assoc] at h hdistinct ⊢
      rw [phase_concat] at h
      obtain ⟨q, hq, hnext⟩ := Option.bind_eq_some_iff.mp h
      have hpre := hdistinct.restrict (List.prefix_append (pre ++ more) [e])
      obtain ⟨hstill, hfailed, hskipped⟩ := ih hq hpre fun x hx => hmore x (List.mem_append_left _ hx)
      have hiteration := hmore e (List.mem_append_right _ (List.mem_singleton_self _))
      have hcurrent := (run_verdicts hq hpre).current
      refine ⟨since_concat.mpr (Or.inr ⟨hstill, hiteration⟩), ?_⟩
      rcases names_cases (run_accounted hq).1 (phaseStep_of_next hnext) with ⟨hstarts, -⟩ | ⟨hf, hs, -⟩ |
        ⟨info, result, rfl, rfl, -, hf, hs⟩ | ⟨info, result, rfl, rfl, -, hf, hs⟩
      · rw [hiteration] at hstarts
        cases hstarts
      · rw [hf, hs]
        exact ⟨hfailed, hskipped⟩
      · have hne : name ≠ info.fullName := fun heq => (hcurrent info rfl).2 (heq ▸ hstill)
        rw [hf, hs, Finset.mem_insert, or_iff_right hne]
        exact ⟨hfailed, hskipped⟩
      · have hne : name ≠ info.fullName := fun heq => (hcurrent info rfl).2 (heq ▸ hstill)
        rw [hf, hs, Finset.mem_insert, or_iff_right hne]
        exact ⟨hfailed, hskipped⟩

/-- An iteration that has started comes to its end. -/
theorem exists_iterationEnd {pre more : List Event} {p : Phase} (hpre : phase pre = some p) (hp : p ≠ .outside)
    (h : phase (pre ++ more) = some .outside) :
    ∃ mid unitTest iteration rest, more = mid ++ .testIterationEnd unitTest iteration :: rest ∧
      ∀ e ∈ mid, e.startsIteration = false := by
  induction more generalizing pre p with
  | nil =>
      rw [List.append_nil, hpre] at h
      exact absurd (Option.some.inj h) hp
  | cons e more ih =>
      rw [List.append_cons] at h
      obtain ⟨q, hq⟩ := phase_restrict h (List.prefix_append _ _)
      have hnext := next_of_phase hpre hq
      have hagain (hq' : q ≠ .outside) (he : e.startsIteration = false) :
          ∃ mid unitTest iteration rest, e :: more = mid ++ .testIterationEnd unitTest iteration :: rest ∧
            ∀ x ∈ mid, x.startsIteration = false := by
        obtain ⟨mid, unitTest, iteration, rest, rfl, hmid⟩ := ih hq hq' h
        refine ⟨e :: mid, unitTest, iteration, rest, rfl, fun x hx => ?_⟩
        rcases List.mem_cons.mp hx with rfl | hx
        · exact he
        · exact hmid x hx
      cases phaseStep_of_next hnext with
      | passedOn he =>
          refine hagain hp ?_
          cases e with
          | testIterationStart => cases he
          | _ => rfl
      | testIterationStart => exact absurd rfl hp
      | testIterationEnd => exact ⟨[], _, _, more, rfl, fun x hx => (by cases hx)⟩
      | testStart | recordProperty | testPartResult | testEnd => exact hagain (fun heq => by cases heq) rfl

/-! ## The verdict -/

/-- The line at the end of a test. -/
theorem printed_iff (s : State) (info : TestInfo) :
    (.skip info.fullName ∈ (runner.step s (.testEnd info)).2 ↔ s.listener.currentSkipReasons.isSome = true) ∧
      (.delegate (.testEnd info) ∈ (runner.step s (.testEnd info)).2 ↔
        ¬ s.listener.currentSkipReasons.isSome = true) := by
  have hprinted : (runner.step s (.testEnd info)).2 = (s.listener.onTestEnd info).2 := rfl
  rw [hprinted]
  unfold Listener.onTestEnd
  cases s.listener.currentSkipReasons with
  | none => simp
  | some reasons => simp

/-- **Verdicts**: every test has one verdict in every iteration, exactly when no test fails both before and after it has
declared itself skipped. -/
theorem one_verdict_iff (events : List Event) (h : WellFormed events) (hdistinct : NamesDistinct events) :
    OneVerdict events ↔ Steady events := by
  constructor
  · intro hone pre result hpre hexcused hsince
    obtain ⟨p, hphase⟩ := phase_restrict h ((List.prefix_append _ _).trans hpre)
    obtain ⟨q, hq⟩ := phase_restrict h hpre
    obtain ⟨more, rfl⟩ := hpre
    have hprefix := List.prefix_append (pre ++ [.testPartResult result]) more
    have hnext := next_of_phase hphase hq
    -- the part comes from a test
    cases p with
    | outside | iterating => cases hnext
    | testing info =>
        obtain rfl : Phase.testing info = q := Option.some.inj hnext
        have hverdicts := run_verdicts hphase (hdistinct.restrict ((List.prefix_append _ _).trans hprefix))
        have hfailed := (hverdicts.failed info rfl).mpr hsince
        obtain ⟨mid, unitTest, iteration, rest, rfl, hmid⟩ := exists_iterationEnd hq (fun heq => by cases heq) h
        have hskipped : info.fullName ∈ (after (pre ++ [.testPartResult result])).listener.skippedTestNames := by
          rcases names_cases (run_accounted hphase).1 (phaseStep_of_next hnext) with ⟨hstarts, -⟩ | ⟨-, -, hnot⟩ |
            ⟨test, other, htest, -, -, -, hs⟩ | ⟨test, other, -, heq, hunexcused, -⟩
          · cases hstarts
          · exact absurd hexcused (hnot result rfl)
          · rw [hs, Phase.testing.inj htest]
            exact Finset.mem_insert_self _ _
          · obtain ⟨-, a, ha, hskips⟩ := hexcused
            obtain ⟨-, b, hb, hnot⟩ := hunexcused
            exact absurd (Option.some.inj (ha.symm.trans hb) ▸ hskips) hnot
        have hpart : ∀ e ∈ [Event.testPartResult result], e.startsIteration = false := by simp [Event.startsIteration]
        have hf := (names_subset_append hmid).1 ((names_subset_append hpart).1 hfailed)
        have hs := (names_subset_append hmid).2 hskipped
        have hend : pre ++ [.testPartResult result] ++ mid ++ [.testIterationEnd unitTest iteration] <+:
            pre ++ [.testPartResult result] ++ (mid ++ .testIterationEnd unitTest iteration :: rest) :=
          ⟨rest, by simp⟩
        exact Finset.disjoint_left.mp (hone _ unitTest iteration hend).1 hf hs
  · intro hsteady pre unitTest iteration hpre
    have hbefore : pre <+: events := (List.prefix_append _ _).trans hpre
    obtain ⟨p, hphase⟩ := phase_restrict h hbefore
    have hdisjoint := disjoint_of_steady hphase (hdistinct.restrict hbefore) (hsteady.restrict hbefore)
    refine ⟨hdisjoint, ?_⟩
    rintro before info mid rfl hmid
    intro printed skipped
    obtain ⟨q, hq⟩ := phase_restrict hphase (List.prefix_append before (.testEnd info :: mid))
    rw [List.append_cons] at hphase hbefore hdisjoint
    obtain ⟨r, hr⟩ := phase_restrict hphase (List.prefix_append _ _)
    have hnext := next_of_phase hq hr
    have htesting : q = .testing info := by
      cases phaseStep_of_next hnext with
      | passedOn he => cases he
      | testEnd => rfl
    subst htesting
    have hskips := (run_verdicts hq (hdistinct.restrict ((List.prefix_append _ _).trans
      ((List.prefix_append _ _).trans hbefore)))).skipped info rfl
    have hended : EndedIn (before ++ [.testEnd info]) info.fullName :=
      ⟨before, _, [], rfl, ⟨info, rfl, rfl⟩, fun x hx => (by cases hx)⟩
    obtain ⟨-, -, hkept⟩ := verdict_kept hphase (hdistinct.restrict hbefore) hended hmid
    have hsame : (after (before ++ [.testEnd info])).listener.skippedTestNames =
        (after before).listener.skippedTestNames := by
      rw [after_concat]
      rfl
    rw [hsame, hskips] at hkept
    have hverdict : skipped ↔ (after before).listener.currentSkipReasons.isSome = true := by
      rw [← hkept]
      show info.fullName ∈ (after (before ++ .testEnd info :: mid)).listener.skippedTestNames ∧
        info.fullName ∉ (after (before ++ .testEnd info :: mid)).listener.failedTestNames ↔ _
      rw [List.append_cons]
      exact and_iff_left_of_imp fun hmem => Finset.disjoint_right.mp hdisjoint hmem
    rw [hverdict]
    exact printed_iff (after before) info

/-- A test that fails, declares itself skipped and fails again. -/
def failedThenSkipped : List Event :=
  let info : TestInfo := ⟨0, "XdgPopupTest", "popup_moves"⟩
  [.testProgramStart, .testIterationStart 0, .testStart info, .testPartResult ⟨true, "no popup"⟩,
    .recordProperty ⟨"wlcs-skip-test", "Missing extension"⟩, .testPartResult ⟨true, "not supported"⟩, .testEnd info,
    .testIterationEnd ⟨1, 1, 0, 0⟩ 0, .testProgramEnd]

theorem namesDistinct_failedThenSkipped : NamesDistinct failedThenSkipped := by
  intro pre info hpre other hother
  obtain ⟨rest, heq⟩ := hpre
  -- there is one start, and nothing of the iteration before it
  have hlen : pre.length = 2 := by
    have hget : failedThenSkipped[pre.length]? = some (.testStart info) := by
      rw [← heq]
      simp
    match hn : pre.length, hget with
    | 2, _ => rfl
    | 0, hget | 1, hget | 3, hget | 4, hget | 5, hget | 6, hget | 7, hget | 8, hget => cases hget
    | n + 9, hget => simp [failedThenSkipped] at hget
  have hpre : pre = failedThenSkipped.take 2 := by
    rw [← heq, ← hlen]
    simp
  rw [hpre] at hother
  cases hother

theorem one_verdict_iff_failedThenSkipped :
    WellFormed failedThenSkipped ∧ NamesDistinct failedThenSkipped ∧
      (OneVerdict failedThenSkipped ↔ Steady failedThenSkipped) :=
  ⟨by decide, namesDistinct_failedThenSkipped,
    one_verdict_iff failedThenSkipped (by decide) namesDistinct_failedThenSkipped⟩

/-- The test is in both sets, and was announced as skipped. -/
theorem two_verdicts :
    WellFormed failedThenSkipped ∧ NamesDistinct failedThenSkipped ∧ ¬ OneVerdict failedThenSkipped := by
  refine ⟨by decide, namesDistinct_failedThenSkipped, fun hone => ?_⟩
  have hdisjoint := (hone (failedThenSkipped.take 7) ⟨1, 1, 0, 0⟩ 0 ⟨[.testProgramEnd], rfl⟩).1
  exact absurd hdisjoint (by decide)

end Wlcs.Runner
