import Wlcs.Runner.Listener

/-!
# The exit status

`main` reports failure exactly when some test had a failing part at a moment when it had not declared itself skipped
(`exit_failure_iff`). The verdict passes through the names collected in an iteration and the flag that its end sets from
them; `Accounted` is the invariant that ties both to the parts seen so far.
-/

namespace Wlcs.Runner
open EventMachine

/-! ## Runs of gtest -/

/-- Where a run is between its brackets. -/
inductive Phase
  | outside
  | iterating
  | testing (info : TestInfo)
deriving DecidableEq, Repr

/-- Tests lie inside iterations, and results and properties inside tests. -/
def Phase.next : Phase → Event → Option Phase
  | .outside, .testProgramStart | .outside, .testProgramEnd => some .outside
  | .outside, .testIterationStart _ => some .iterating
  | .iterating, .environmentsSetUpStart | .iterating, .environmentsSetUpEnd => some .iterating
  | .iterating, .environmentsTearDownStart | .iterating, .environmentsTearDownEnd => some .iterating
  | .iterating, .testCaseStart _ | .iterating, .testCaseEnd _ => some .iterating
  | .iterating, .testStart info => some (.testing info)
  | .testing info, .recordProperty _ | .testing info, .testPartResult _ => some (.testing info)
  | .testing info, .testEnd ended => if ended = info then some .iterating else none
  | .iterating, .testIterationEnd _ _ => some .outside
  | _, _ => none

/-- Where the run is after the events, if they came in order. -/
def phase (events : List Event) : Option Phase := events.foldlM Phase.next .outside

theorem phase_concat (events : List Event) (e : Event) : phase (events ++ [e]) = (phase events).bind (·.next e) := by
  simp [phase, List.foldlM_append]

theorem phase_restrict {events more : List Event} {p : Phase} (h : phase more = some p) (hp : events <+: more) :
    ∃ q, phase events = some q := foldlM_restrict h hp

theorem next_of_phase {events : List Event} {e : Event} {p q : Phase} (hp : phase events = some p)
    (hq : phase (events ++ [e]) = some q) : p.next e = some q := by
  rw [phase_concat, hp] at hq
  exact hq

/-- An event that only the wrapped printer cares about. -/
def Event.passedOn : Event → Bool
  | .testProgramStart | .testProgramEnd | .environmentsSetUpStart | .environmentsSetUpEnd
  | .environmentsTearDownStart | .environmentsTearDownEnd | .testCaseStart _ | .testCaseEnd _ => true
  | _ => false

/-- The events that may come in a phase, and the phase after them. -/
inductive PhaseStep : Phase → Event → Phase → Prop
  | passedOn {p : Phase} {e : Event} (he : e.passedOn = true) : PhaseStep p e p
  | testIterationStart {iteration : Nat} : PhaseStep .outside (.testIterationStart iteration) .iterating
  | testStart {info : TestInfo} : PhaseStep .iterating (.testStart info) (.testing info)
  | recordProperty {info : TestInfo} {property : TestProperty} :
      PhaseStep (.testing info) (.recordProperty property) (.testing info)
  | testPartResult {info : TestInfo} {result : TestPartResult} :
      PhaseStep (.testing info) (.testPartResult result) (.testing info)
  | testEnd {info : TestInfo} : PhaseStep (.testing info) (.testEnd info) .iterating
  | testIterationEnd {unitTest : UnitTest} {iteration : Nat} :
      PhaseStep .iterating (.testIterationEnd unitTest iteration) .outside

theorem phaseStep_of_next {p q : Phase} {e : Event} (h : p.next e = some q) : PhaseStep p e q := by
  cases p with
  | outside =>
      cases e with
      | testProgramStart | testProgramEnd =>
          obtain rfl := Option.some.inj h
          exact .passedOn rfl
      | testIterationStart iteration =>
          obtain rfl := Option.some.inj h
          exact .testIterationStart
      | _ => cases h
  | iterating =>
      cases e with
      | environmentsSetUpStart | environmentsSetUpEnd | environmentsTearDownStart | environmentsTearDownEnd
      | testCaseStart | testCaseEnd =>
          obtain rfl := Option.some.inj h
          exact .passedOn rfl
      | testStart info =>
          obtain rfl := Option.some.inj h
          exact .testStart
      | testIterationEnd unitTest iteration =>
          obtain rfl := Option.some.inj h
          exact .testIterationEnd
      | _ => cases h
  | testing info =>
      cases e with
      | recordProperty property =>
          obtain rfl := Option.some.inj h
          exact .recordProperty
      | testPartResult result =>
          obtain rfl := Option.some.inj h
          exact .testPartResult
      | testEnd ended =>
          simp only [Phase.next] at h
          split at h
          · rename_i heq
            obtain rfl := Option.some.inj h
            rw [heq]
            exact .testEnd
          · cases h
      | _ => cases h

/-- A run of whole iterations. -/
def WellFormed (events : List Event) : Prop := phase events = some .outside

instance (events : List Event) : Decidable (WellFormed events) :=
  inferInstanceAs (Decidable (phase events = some .outside))

/-! ## Failures that nothing excuses -/

/-- The test has declared itself skipped. -/
def Gtest.Skips (g : Gtest) (info : TestInfo) : Prop := ∃ p ∈ g.properties info, p.key = skipKey

/-- After the events `pre` a failing part comes while a test runs that has not declared itself skipped. -/
def UnexcusedAt (pre : List Event) (result : TestPartResult) : Prop :=
  result.failed = true ∧ ∃ info, (after pre).gtest.running = some info ∧ ¬ (after pre).gtest.Skips info

/-- Some failing part of the run is not excused. -/
def Unexcused (events : List Event) : Prop :=
  ∃ pre result, pre ++ [.testPartResult result] <+: events ∧ UnexcusedAt pre result

theorem unexcused_concat {events : List Event} {e : Event} :
    Unexcused (events ++ [e]) ↔
      Unexcused events ∨ ∃ result, e = .testPartResult result ∧ UnexcusedAt events result := by
  constructor
  · rintro ⟨pre, result, hp, hbad⟩
    rcases History.concat_prefix_concat.mp hp with ⟨rfl, rfl⟩ | hp
    · exact Or.inr ⟨result, rfl, hbad⟩
    · exact Or.inl ⟨pre, result, hp, hbad⟩
  · rintro (⟨pre, result, hp, hbad⟩ | ⟨result, rfl, hbad⟩)
    · exact ⟨pre, result, hp.trans (List.prefix_append _ _), hbad⟩
    · exact ⟨events, result, List.prefix_refl _, hbad⟩

theorem skipReasons_isEmpty {properties : List TestProperty} :
    (skipReasons properties).isEmpty = true ↔ ¬ ∃ p ∈ properties, p.key = skipKey := by
  simp [skipReasons]

/-- Recording a property does not take back that the test is skipped. -/
theorem record_skips {properties : List TestProperty} (property : TestProperty)
    (h : ∃ p ∈ properties, p.key = skipKey) : ∃ p ∈ record properties property, p.key = skipKey := by
  obtain ⟨p, hp, hkey⟩ := h
  unfold record
  split
  · by_cases hsame : p.key = property.key
    · exact ⟨property, List.mem_map.mpr ⟨p, hp, if_pos hsame⟩, hsame ▸ hkey⟩
    · exact ⟨p, List.mem_map.mpr ⟨p, hp, if_neg hsame⟩, hkey⟩
  · exact ⟨p, List.mem_append_left _ hp, hkey⟩

/-! ## Part results -/

/-- What the listener makes of a failing part: there is no test to ask about, or the test that started last is skipped
for its own reasons or for reasons left over, or it fails. -/
inductive FailingPart (g : Gtest) (l : Listener) (result : TestPartResult) : Listener → List Output → Prop
  | dangling (hnone : l.currentTestInfo = none) : FailingPart g l result { l with dangling := true } []
  | skipped {info : TestInfo} {reasons : List String} (hinfo : l.currentTestInfo = some info)
      (hskip : g.Skips info ∨ l.currentSkipReasons.isSome = true) : FailingPart g l result
        { l with
          currentSkipReasons := some reasons
          skippedTestNames := insert info.fullName l.skippedTestNames } []
  | failed {info : TestInfo} (hinfo : l.currentTestInfo = some info) (hskip : ¬ g.Skips info)
      (hreasons : l.currentSkipReasons = none) : FailingPart g l result
        { l with failedTestNames := insert info.fullName l.failedTestNames } [.delegate (.testPartResult result)]

theorem failingPart (g : Gtest) (l : Listener) {result : TestPartResult} (h : result.failed = true) :
    FailingPart g l result (l.onTestPartResult g result).1 (l.onTestPartResult g result).2 := by
  cases hinfo : l.currentTestInfo with
  | none =>
      have heq : l.onTestPartResult g result = ({ l with dangling := true }, []) := by
        simp [Listener.onTestPartResult, h, hinfo]
      rw [heq]
      exact .dangling hinfo
  | some info =>
      -- the reasons after the loop over the properties
      by_cases hskip : g.Skips info ∨ l.currentSkipReasons.isSome = true
      · obtain ⟨reasons, hreasons⟩ : ∃ reasons, l.addSkipReasons (g.properties info) =
            { l with currentSkipReasons := some reasons } := by
          unfold Listener.addSkipReasons
          split
          · next hempty =>
              obtain ⟨reasons, hsome⟩ := Option.isSome_iff_exists.mp
                (hskip.resolve_left (skipReasons_isEmpty.mp hempty))
              exact ⟨reasons, by rw [← hsome]⟩
          · exact ⟨_, rfl⟩
        have heq : l.onTestPartResult g result =
            ({ l with
              currentSkipReasons := some reasons
              skippedTestNames := insert info.fullName l.skippedTestNames }, []) := by
          simp [Listener.onTestPartResult, h, hinfo, hreasons]
        rw [heq]
        exact .skipped hinfo hskip
      · obtain ⟨hskip, hreasons⟩ := not_or.mp hskip
        rw [Option.not_isSome_iff_eq_none] at hreasons
        have heq : l.onTestPartResult g result =
            ({ l with failedTestNames := insert info.fullName l.failedTestNames },
              [.delegate (.testPartResult result)]) := by
          simp [Listener.onTestPartResult, Listener.addSkipReasons, h, hinfo, hreasons, skipReasons_isEmpty.mpr hskip]
        rw [heq]
        exact .failed hinfo hskip hreasons

theorem step_failing (s : State) {result : TestPartResult} (h : result.failed = true) :
    ∃ l out, runner.step s (.testPartResult result) = (⟨s.gtest, l⟩, out) ∧
      FailingPart s.gtest s.listener result l out :=
  ⟨_, _, rfl, failingPart s.gtest s.listener h⟩

theorem step_passing (s : State) {result : TestPartResult} (h : ¬ result.failed = true) :
    (runner.step s (.testPartResult result)).1 = s := by
  simp [runner, Gtest.step, Listener.handle, Listener.onTestPartResult, h]

/-! ## The invariant -/

/-- The test that the phase says is running is the one that gtest and the listener have, and there are skip reasons
only while it has declared itself skipped. -/
structure Current (p : Phase) (s : State) : Prop where
  running : ∀ info, p = .testing info → s.gtest.running = some info ∧ s.listener.currentTestInfo = some info
  reasons : s.listener.currentSkipReasons.isSome = true → ∃ info, p = .testing info ∧ s.gtest.Skips info

theorem Current.reasons_none {info : TestInfo} {s : State} (h : Current (.testing info) s)
    (hskip : ¬ s.gtest.Skips info) : s.listener.currentSkipReasons = none := by
  rw [← Option.not_isSome_iff_eq_none]
  intro hsome
  obtain ⟨other, hp, hskips⟩ := h.reasons hsome
  obtain rfl := Phase.testing.inj hp
  exact hskip hskips

/-- The verdict so far is that of the parts seen so far, and outside an iteration it is in the flag. -/
structure Accounted (events : List Event) (p : Phase) (l : Listener) : Prop where
  verdict : (l.failed = true ∨ l.failedTestNames ≠ ∅) ↔ Unexcused events
  flagged : p = .outside → l.failedTestNames ≠ ∅ → l.failed = true

theorem after_concat (events : List Event) (e : Event) :
    after (events ++ [e]) = (runner.step (after events) e).1 := runner.run_concat _ events e

theorem step_passedOn {e : Event} (h : e.passedOn = true) (s : State) : (runner.step s e).1 = s := by
  cases e with
  | testIterationStart | testStart | recordProperty | testPartResult | testEnd | testIterationEnd => cases h
  | _ => rfl

/-- What a part result does while a test runs: it passes, or the test is skipped, or the test fails. -/
theorem part_cases {info : TestInfo} {s : State} (h : Current (.testing info) s) (result : TestPartResult) :
    (runner.step s (.testPartResult result)).1.gtest = s.gtest ∧
      (result.failed = false ∧ (runner.step s (.testPartResult result)).1.listener = s.listener ∨
        result.failed = true ∧ s.gtest.Skips info ∧ (∃ reasons names,
          (runner.step s (.testPartResult result)).1.listener =
            { s.listener with currentSkipReasons := some reasons, skippedTestNames := names }) ∨
        result.failed = true ∧ ¬ s.gtest.Skips info ∧ (runner.step s (.testPartResult result)).1.listener =
            { s.listener with failedTestNames := insert info.fullName s.listener.failedTestNames }) := by
  obtain ⟨-, hinfo⟩ := h.running info rfl
  by_cases hfailed : result.failed = true
  · obtain ⟨l, out, hstep, hpart⟩ := step_failing s hfailed
    rw [hstep]
    refine ⟨rfl, Or.inr ?_⟩
    cases hpart with
    | dangling hnone =>
        rw [hinfo] at hnone
        cases hnone
    | skipped hother hskip =>
        obtain rfl := Option.some.inj (hinfo.symm.trans hother)
        -- no reasons are left over from another test
        have hskips : s.gtest.Skips info := by
          by_contra hnot
          rcases hskip with hskip | hsome
          · exact hnot hskip
          · rw [h.reasons_none hnot] at hsome
            cases hsome
        exact Or.inl ⟨hfailed, hskips, _, _, rfl⟩
    | failed hother hskip hreasons =>
        obtain rfl := Option.some.inj (hinfo.symm.trans hother)
        exact Or.inr ⟨hfailed, hskip, rfl⟩
  · rw [step_passing s hfailed]
    exact ⟨rfl, Or.inl ⟨Bool.eq_false_iff.mpr hfailed, rfl⟩⟩

theorem Current.step {p q : Phase} {e : Event} {s : State} (h : Current p s) (hstep : PhaseStep p e q) :
    Current q (runner.step s e).1 := by
  cases hstep with
  | passedOn he => rwa [step_passedOn he]
  | testIterationStart | testIterationEnd =>
      refine ⟨fun info hp => (by cases hp), fun hsome => ?_⟩
      obtain ⟨info, hp, -⟩ := h.reasons hsome
      cases hp
  | @testStart info =>
      refine ⟨fun other hp => ?_, fun hsome => ?_⟩
      · cases hp
        exact ⟨rfl, rfl⟩
      · obtain ⟨other, hp, -⟩ := h.reasons hsome
        cases hp
  | @recordProperty info property =>
      obtain ⟨hrunning, hinfo⟩ := h.running info rfl
      have hgtest : (runner.step s (.recordProperty property)).1.gtest =
          { s.gtest with
            properties := Function.update s.gtest.properties info (record (s.gtest.properties info) property) } := by
        simp [runner, Gtest.step, hrunning]
      refine ⟨fun other hp => ?_, fun hsome => ⟨info, rfl, ?_⟩⟩
      · obtain rfl := Phase.testing.inj hp
        rw [hgtest]
        exact ⟨hrunning, hinfo⟩
      · obtain ⟨other, hp, hskips⟩ := h.reasons hsome
        obtain rfl := Phase.testing.inj hp
        rw [hgtest, Gtest.Skips]
        simp only [Function.update_self]
        exact record_skips property hskips
  | @testPartResult info result =>
      obtain ⟨hrunning, hinfo⟩ := h.running info rfl
      obtain ⟨hgtest, hpart⟩ := part_cases h result
      rcases hpart with ⟨-, heq⟩ | ⟨-, hskip, reasons, names, heq⟩ | ⟨-, -, heq⟩
      · exact ⟨by rw [hgtest, heq]; exact h.running, by rw [heq, hgtest]; exact h.reasons⟩
      · refine ⟨fun other hp => ?_, fun _ => ⟨info, rfl, by rw [hgtest]; exact hskip⟩⟩
        rw [hgtest, heq]
        exact h.running other hp
      · exact ⟨by rw [hgtest, heq]; exact h.running, by rw [heq, hgtest]; exact h.reasons⟩
  | @testEnd info => exact ⟨fun other hp => (by cases hp), fun hsome => (by cases hsome)⟩

theorem unexcused_concat_other {events : List Event} {e : Event} (h : ∀ result, e ≠ .testPartResult result) :
    Unexcused (events ++ [e]) ↔ Unexcused events := by
  rw [unexcused_concat]
  exact or_iff_left fun ⟨result, heq, _⟩ => h result heq

theorem Accounted.step {events : List Event} {p q : Phase} {e : Event}
    (h : Accounted events p (after events).listener) (hc : Current p (after events)) (hstep : PhaseStep p e q) :
    Accounted (events ++ [e]) q (after (events ++ [e])).listener := by
  rw [after_concat]
  cases hstep with
  | passedOn he =>
      rw [step_passedOn he]
      refine ⟨?_, h.flagged⟩
      rw [unexcused_concat_other fun result heq => by rw [heq] at he; cases he]
      exact h.verdict
  | testIterationStart =>
      -- the names are dropped, and the flag has them
      refine ⟨?_, fun hp => (by cases hp)⟩
      rw [unexcused_concat_other fun result heq => (by cases heq), ← h.verdict]
      constructor
      · rintro (hfailed | hnames)
        · exact Or.inl hfailed
        · exact absurd rfl hnames
      · rintro (hfailed | hnames)
        · exact Or.inl hfailed
        · exact Or.inl (h.flagged rfl hnames)
  | testStart | recordProperty | testEnd =>
      refine ⟨?_, fun hp => (by cases hp)⟩
      rw [unexcused_concat_other fun result heq => (by cases heq)]
      exact h.verdict
  | @testPartResult info result =>
      obtain ⟨hrunning, -⟩ := hc.running info rfl
      obtain ⟨-, hpart⟩ := part_cases hc result
      refine ⟨?_, fun hp => (by cases hp)⟩
      rw [unexcused_concat, ← h.verdict]
      rcases hpart with ⟨hfailed, heq⟩ | ⟨-, hskip, reasons, names, heq⟩ | ⟨hfailed, hskip, heq⟩
      · rw [heq]
        refine (or_iff_left ?_).symm
        rintro ⟨other, hother, hbad, -⟩
        obtain rfl := Event.testPartResult.inj hother
        rw [hfailed] at hbad
        cases hbad
      · rw [heq]
        refine (or_iff_left ?_).symm
        rintro ⟨other, hother, -, test, htest, hnot⟩
        rw [hrunning] at htest
        exact hnot (Option.some.inj htest ▸ hskip)
      · rw [heq]
        refine iff_of_true (Or.inr (Finset.insert_ne_empty _ _)) (Or.inr ⟨result, rfl, hfailed, info, hrunning, hskip⟩)
  | @testIterationEnd unitTest iteration =>
      have hflag : (runner.step (after events) (.testIterationEnd unitTest iteration)).1.listener =
          { (after events).listener with
            failed := (after events).listener.failed || decide ((after events).listener.failedTestNames ≠ ∅) } := rfl
      rw [hflag]
      refine ⟨?_, fun _ hnames => ?_⟩
      · rw [unexcused_concat_other fun result heq => (by cases heq), ← h.verdict]
        simp only [Bool.or_eq_true, decide_eq_true_eq]
        tauto
      · simp only [Bool.or_eq_true, decide_eq_true_eq]
        exact Or.inr hnames

theorem run_accounted {events : List Event} {p : Phase} (h : phase events = some p) :
    Current p (after events) ∧ Accounted events p (after events).listener := by
  induction events using List.reverseRecOn generalizing p with
  | nil =>
      obtain rfl := Option.some.inj h
      refine ⟨⟨fun info hp => (by cases hp), fun hsome => (by cases hsome)⟩, ⟨?_, fun _ hnames => absurd rfl hnames⟩⟩
      refine iff_of_false ?_ ?_
      · rintro (hfailed | hnames)
        · cases hfailed
        · exact hnames rfl
      · rintro ⟨pre, result, hp, -⟩
        simpa using hp.length_le
  | append_singleton events e ih =>
      rw [phase_concat] at h
      obtain ⟨q, hq, hnext⟩ := Option.bind_eq_some_iff.mp h
      obtain ⟨hc, ha⟩ := ih hq
      have hstep := phaseStep_of_next hnext
      refine ⟨?_, ha.step hc hstep⟩
      rw [after_concat]
      exact hc.step hstep

/-- **The exit status**: when the tests run, `main` returns `EXIT_FAILURE` exactly when a failing part came from a test
that had not declared itself skipped by then. -/
theorem exit_failure_iff (events : List Event) (h : WellFormed events) :
    main .ready events = exitFailure ↔ ∃ pre result, pre ++ [.testPartResult result] <+: events ∧
      result.failed = true ∧ ∃ info, (after pre).gtest.running = some info ∧
        ∀ property ∈ (after pre).gtest.properties info, property.key ≠ "wlcs-skip-test" := by
  obtain ⟨-, hverdict, hflagged⟩ := run_accounted h
  have hmain : main .ready events = exitFailure ↔ (after events).listener.failed = true := by
    unfold main
    cases (after events).listener.failed <;> decide
  have hunexcused : Unexcused events ↔ ∃ pre result, pre ++ [.testPartResult result] <+: events ∧
      result.failed = true ∧ ∃ info, (after pre).gtest.running = some info ∧
        ∀ property ∈ (after pre).gtest.properties info, property.key ≠ "wlcs-skip-test" := by
    unfold Unexcused UnexcusedAt Gtest.Skips skipKey
    push Not
    exact Iff.rfl
  rw [hmain, ← hunexcused, ← hverdict]
  exact ⟨Or.inl, fun hor => hor.elim id (hflagged rfl)⟩

/-- Two iterations of one test, which is skipped in the first and fails in the second. -/
def skippedThenFailed : List Event :=
  let info : TestInfo := ⟨0, "FrameSubmission", "post_one_frame_at_a_time"⟩
  [.testProgramStart, .testIterationStart 0, .testStart info, .recordProperty ⟨"wlcs-skip-test", "Missing extension"⟩,
    .testPartResult ⟨true, "not supported"⟩, .testEnd info, .testIterationEnd ⟨1, 1, 0, 0⟩ 0,
    .testIterationStart 1, .testStart info, .testPartResult ⟨true, "no frame"⟩, .testEnd info,
    .testIterationEnd ⟨1, 1, 0, 0⟩ 1, .testProgramEnd]

theorem exit_failure_iff_skippedThenFailed :
    WellFormed skippedThenFailed ∧ main .ready skippedThenFailed = exitFailure ∧
      (main .ready skippedThenFailed = exitFailure ↔ ∃ pre result,
        pre ++ [.testPartResult result] <+: skippedThenFailed ∧ result.failed = true ∧
        ∃ info, (after pre).gtest.running = some info ∧
          ∀ property ∈ (after pre).gtest.properties info, property.key ≠ "wlcs-skip-test") := by
  have hformed : WellFormed skippedThenFailed := by decide
  exact ⟨hformed, by decide, exit_failure_iff skippedThenFailed hformed⟩

end Wlcs.Runner
