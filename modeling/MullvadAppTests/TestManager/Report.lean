import MullvadAppTests.TestManager.RunLogs
import MullvadAppTests.TestManager.SummaryTable

/-!
The way of a test's result from the loop of `run_tests.rs` through the summary
file into the table of `summary.rs`. The loop may be left at any point, by a test
that must succeed or by an error of the manager, and the report then holds what
was logged until there. A failing write is the exception: it may leave a part of
its line behind, on which the parser stops.
-/

namespace MullvadAppTests.TestManager

open Lib

/-! ### Leaving the loop -/

/-- A part of the body goes on in `P`, or returns early in `Q`. -/
def Ends (P Q : RunState → Prop) : RunM → Prop
  | .ok s => P s
  | .error (_, s) => Q s

theorem Ends.bind {P P' Q : RunState → Prop} {m : RunM} {f : RunState → RunM}
    (h : Ends P Q m) (hnext : ∀ s, m = .ok s → P s → Ends P' Q (f s)) : Ends P' Q (m >>= f) := by
  cases m with
  | error e => exact h
  | ok s => exact hnext s rfl h

theorem Ends.mono {P P' Q Q' : RunState → Prop} {m : RunM} (h : Ends P Q m)
    (hp : ∀ s, P s → P' s) (hq : ∀ s, Q s → Q' s) : Ends P' Q' m := by
  cases m with
  | error e => exact hq e.2 h
  | ok s => exact hp s h

theorem ends_createClient (test : RegisteredTest) (s : RunState) :
    Ends (SameProgress s) (SameProgress s) (createClient test s) := by
  unfold createClient initDefaultSettings
  cases test.calls.client with
  | error e => exact ⟨rfl, rfl, rfl, rfl⟩
  | ok _ =>
      dsimp only
      split
      · cases test.calls.getSettings <;> exact ⟨rfl, rfl, rfl, rfl⟩
      · exact ⟨rfl, rfl, rfl, rfl⟩

theorem ends_executeTest (printOnly : Bool) (test : RegisteredTest) (s : RunState) :
    Ends (SameProgress s) (SameProgress s) (executeTest printOnly test s) := by
  unfold executeTest
  cases runTest test <;> cases printOnly <;> exact ⟨rfl, rfl, rfl, rfl⟩

theorem ends_cleanupAfterTest (test : RegisteredTest) (s : RunState) :
    Ends (SameProgress s) (SameProgress s) (cleanupAfterTest test s) := by
  unfold cleanupAfterTest
  split
  · cases test.calls.newClient with
    | error e => exact ⟨rfl, rfl, rfl, rfl⟩
    | ok _ =>
        dsimp only
        split
        · exact ⟨rfl, rfl, rfl, rfl⟩
        · cases test.calls.cleanup <;> exact ⟨rfl, rfl, rfl, rfl⟩
  · exact ⟨rfl, rfl, rfl, rfl⟩

/-- The call of `log_test_result` for a test. -/
def RegisteredTest.summaryCall (test : RegisteredTest) : SummaryLogger.Call :=
  ⟨test.calls.summaryIo, test.metadata.name, if test.failed then .fail else .pass⟩

theorem logAll_snoc {first logger after : SummaryLogger} {calls : List SummaryLogger.Call}
    {call : SummaryLogger.Call} (h : first.logAll calls = .ok logger)
    (hcall : logger.logTestResult call.io call.testName call.testResult = .ok after) :
    first.logAll (calls ++ [call]) = .ok after := by
  rw [SummaryLogger.logAll] at h ⊢
  rw [List.foldlM_append, h]
  simp only [bind, Except.bind, List.foldlM_cons, hcall]
  rfl

/-- The tests in `reported`, in this order, are what the report and the lists at
the end of the run are about. -/
structure Reported (first : SummaryLogger) (reported : List RegisteredTest) (s : RunState) :
    Prop where
  logged : ∃ logger, s.summaryLogger = some logger ∧
    first.logAll (reported.map (·.summaryCall)) = .ok logger
  successful : s.successfulTests =
    (reported.filter fun test => !test.failed).map (·.metadata.name)
  failed : s.failedTests = (reported.filter (·.failed)).map (·.metadata.name)

namespace Reported

variable {first : SummaryLogger} {reported : List RegisteredTest} {s next : RunState}

theorem of_sameProgress (h : Reported first reported s) (hsame : SameProgress s next) :
    Reported first reported next where
  logged := by
    rw [hsame.summaryLogger]
    exact h.logged
  successful := hsame.successfulTests.trans h.successful
  failed := hsame.failedTests.trans h.failed

/-- A result that is written is also counted, before anything else can fail. -/
theorem logResult_account (h : Reported first reported s) (test : RegisteredTest) :
    Ends (fun next => Reported first (reported ++ [test]) (account test next))
      (Reported first reported) (logResult test s) := by
  obtain ⟨logger, hlogger, hlogAll⟩ := h.logged
  have hresult : (if test.calls.outcome.succeeded then TestResult.pass else .fail) =
      if test.failed then .fail else .pass := by
    unfold RegisteredTest.failed
    cases test.calls.outcome.succeeded <;> rfl
  unfold logResult
  rw [hlogger, hresult]
  simp only [maybeLogTestResult]
  cases hcall : logger.logTestResult test.calls.summaryIo test.metadata.name
      (if test.failed then .fail else .pass) with
  | error e => exact h
  | ok after =>
      have hafter : first.logAll (reported.map (·.summaryCall) ++ [test.summaryCall]) =
          .ok after := logAll_snoc hlogAll hcall
      constructor
      · refine ⟨after, ?_, ?_⟩
        · unfold account
          split <;> rfl
        · simpa using hafter
      · unfold account RegisteredTest.failed
        split <;> simp_all [h.successful, TestOutcome.succeeded, RegisteredTest.failed]
      · unfold account RegisteredTest.failed
        split <;> simp_all [h.failed, TestOutcome.succeeded, RegisteredTest.failed]

theorem runOne (h : Reported first reported s) (printOnly : Bool) (test : RegisteredTest) :
    Ends (Reported first (reported ++ [test])) (Reported first reported)
      (runOne printOnly test s) := by
  have hsame : ∀ {middle : RunState} {m : RunM}, Reported first reported middle →
      Ends (SameProgress middle) (SameProgress middle) m →
      Ends (Reported first reported) (Reported first reported) m := by
    intro middle m hmiddle hends
    exact hends.mono (fun _ => hmiddle.of_sameProgress) (fun _ => hmiddle.of_sameProgress)
  unfold TestManager.runOne
  apply (hsame h (ends_createClient test s)).bind
  intro created _ hcreated
  apply (hsame hcreated (ends_executeTest printOnly test created)).bind
  intro ran _ hran
  apply (hsame hran (ends_cleanupAfterTest test ran)).bind
  intro clean _ hclean
  have hprinted := hclean.of_sameProgress (printRecords_sameProgress printOnly test clean).1
  apply (hprinted.logResult_account test).bind
  intro logged _ hlogged
  exact hlogged

/-- Whichever way the loop ends, the first few of its tests are reported. -/
theorem runTests (h : Reported first reported s) (printOnly : Bool)
    (tests : List RegisteredTest) :
    Ends (fun last => ∃ more, more <+: tests ∧ Reported first (reported ++ more) last)
      (fun last => ∃ more, more <+: tests ∧ Reported first (reported ++ more) last)
      (runTests printOnly s tests) := by
  induction tests generalizing reported s with
  | nil => exact ⟨[], List.nil_prefix, by simpa using h⟩
  | cons test rest ih =>
      have hone := (h.runOne printOnly test).mono (fun _ => id) (fun last hlast =>
        (⟨[], List.nil_prefix, by simpa using hlast⟩ :
          ∃ more, more <+: test :: rest ∧ Reported first (reported ++ more) last))
      apply hone.bind
      intro next _ hnext
      split
      · exact ⟨[test], by simp, hnext⟩
      · have hmore : ∀ last, (∃ more, more <+: rest ∧
              Reported first (reported ++ [test] ++ more) last) →
            ∃ more, more <+: test :: rest ∧ Reported first (reported ++ more) last := by
          rintro last ⟨more, hbegin, hlast⟩
          refine ⟨test :: more, List.cons_prefix_cons.mpr ⟨rfl, hbegin⟩, ?_⟩
          rwa [List.append_assoc, List.singleton_append] at hlast
        exact (ih hnext).mono hmore hmore

/-- Whichever way a run ends, it reports some of its selected tests, the first
ones. -/
theorem run (toLowercase : Text → Text) (args : RunArgs) (hargs : args.summaryLogger = some first)
    (logger : Logger) (defaultSettings : Bool) (tests : List RegisteredTest) :
    ∃ reported, reported <+: selectTests toLowercase args.testFilters tests ∧
      Reported first reported (RunTests.run toLowercase args logger defaultSettings tests).2 := by
  have hstart : Reported first [] (.start logger defaultSettings args.summaryLogger) :=
    ⟨⟨first, hargs, rfl⟩, rfl, rfl⟩
  unfold RunTests.run
  cases args.createClientTransports with
  | error e => exact ⟨[], List.nil_prefix, hstart⟩
  | ok _ =>
      dsimp only
      split
      · exact ⟨[], List.nil_prefix, hstart⟩
      · have hends := hstart.runTests args.printFailedTestsOnly
          (selectTests toLowercase args.testFilters tests)
        split
        · next hrun =>
          rw [hrun] at hends
          exact hends
        · next last hrun =>
          rw [hrun] at hends
          obtain ⟨reported, hbegin, hreported⟩ := hends
          exact ⟨reported, hbegin, hreported.of_sameProgress ⟨rfl, rfl, rfl, rfl⟩⟩

end Reported

/-! ### Reading the report -/

theorem lastResult_eq_some {calls : List SummaryLogger.Call}
    (hdistinct : (calls.map (·.testName)).Nodup) (testName : Text) (result : TestResult) :
    lastResult calls testName = some result ↔
      ∃ call ∈ calls, call.testName = testName ∧ call.testResult = result := by
  induction calls with
  | nil => simp [lastResult]
  | cons call rest ih =>
      rw [List.map_cons, List.nodup_cons] at hdistinct
      by_cases hname : call.testName = testName
      · have hrest : rest.filter (·.testName = testName) = [] := by
          rw [List.filter_eq_nil_iff]
          intro other hother
          simp only [decide_eq_true_eq]
          rintro rfl
          exact hdistinct.1 (hname ▸ List.mem_map_of_mem hother)
        have hnone : ¬∃ other ∈ rest, other.testName = testName ∧ other.testResult = result := by
          rintro ⟨other, hother, hsame, _⟩
          exact absurd hsame (by simpa using List.filter_eq_nil_iff.mp hrest other hother)
        rw [lastResult, List.filter_cons_of_pos (by simpa using hname), hrest]
        simp [hname, hnone]
      · have hrest : lastResult (call :: rest) testName = lastResult rest testName := by
          rw [lastResult, List.filter_cons_of_neg (by simpa using hname), lastResult]
        rw [hrest, ih hdistinct.2]
        simp [hname]

theorem selectTests_sublist (toLowercase : Text → Text) (testFilters : List Text)
    (tests : List RegisteredTest) :
    (selectTests toLowercase testFilters tests).Sublist
      (sortByKey RegisteredTest.priority tests) := by
  unfold selectTests
  dsimp only
  split
  · exact List.filter_sublist
  · exact List.Sublist.refl _

theorem Reported.reads {first : SummaryLogger} {name : Text} {newIo : SummaryLogger.NewIo}
    {previous : Option Text} {reported : List RegisteredTest} {s : RunState}
    (h : Reported first reported s) (hnew : SummaryLogger.new newIo name previous = .ok first)
    (hname : '\n' ∉ name) (hcr : name.getLast? ≠ some '\r')
    (hwords : ∀ test ∈ reported, Text.IsWord test.metadata.name) :
    ∃ content summary, s.summaryText = some content ∧
      Summary.parseLog (.ok (fileLines content)) = .ok summary ∧ summary.name = name ∧
      ∀ testName, summary.results.lookup testName =
        lastResult (reported.map (·.summaryCall)) testName := by
  obtain ⟨logger, hlogger, hlogAll⟩ := h.logged
  have hcalls : ∀ call ∈ reported.map (·.summaryCall), Text.IsWord call.testName := by
    intro call hcall
    obtain ⟨test, htest, rfl⟩ := List.mem_map.mp hcall
    exact hwords test htest
  have hknown : ∀ call ∈ reported.map (·.summaryCall), call.testResult ≠ .unknown := by
    intro call hcall
    obtain ⟨test, htest, rfl⟩ := List.mem_map.mp hcall
    simp only [RegisteredTest.summaryCall]
    split <;> simp
  have hparse := parseLog_lines name _ _ (lines_logged hname hcr hcalls hnew hlogAll)
  rw [parseRecords_known hcalls hknown] at hparse
  refine ⟨logger.file.content, _, ?_, hparse, rfl, ?_⟩
  · simp [RunState.summaryText, hlogger]
  · intro testName
    rw [lookup_insert_calls, AList.lookup_empty, Option.or_none]

/-- A test is shown as the loop has counted it. -/
structure ShownAs (s : RunState) (summary : Summary) (test : RegisteredTest) : Prop where
  pass : summary.cell test.metadata = .pass ↔ test.metadata.name ∈ s.successfulTests
  fail : summary.cell test.metadata = .fail ↔ test.metadata.name ∈ s.failedTests
  outcome : summary.cell test.metadata ≠ .unknown →
    (summary.cell test.metadata = .pass ↔ test.calls.outcome = .ok)

theorem failed_eq_false_iff (test : RegisteredTest) :
    test.failed = false ↔ test.calls.outcome = .ok := by
  unfold RegisteredTest.failed
  cases test.calls.outcome <;> simp [TestOutcome.succeeded]

theorem Reported.shownAs {first : SummaryLogger} {reported tests : List RegisteredTest}
    {s : RunState} {summary : Summary} (h : Reported first reported s)
    (hresults : ∀ testName, summary.results.lookup testName =
      lastResult (reported.map (·.summaryCall)) testName)
    (hsubset : reported ⊆ tests) (hnames : (reported.map (·.metadata.name)).Nodup)
    (hdistinct : (tests.map (·.metadata.name)).Nodup) {test : RegisteredTest}
    (htest : test ∈ tests) : ShownAs s summary test := by
  have hcalls : ((reported.map (·.summaryCall)).map (·.testName)).Nodup := by
    simpa [List.map_map, Function.comp_def, RegisteredTest.summaryCall] using hnames
  have hcell : ∀ result, result ≠ .unknown → (summary.cell test.metadata = result ↔
      test ∈ reported ∧ (if test.failed then TestResult.fail else .pass) = result) := by
    intro result hresult
    have hlookup : summary.cell test.metadata = result ↔
        lastResult (reported.map (·.summaryCall)) test.metadata.name = some result := by
      rw [Summary.cell, hresults]
      cases lastResult (reported.map (·.summaryCall)) test.metadata.name with
      | none => simpa using hresult.symm
      | some last => simp
    rw [hlookup, lastResult_eq_some hcalls]
    constructor
    · rintro ⟨call, hcall, hname, rfl⟩
      obtain ⟨other, hother, rfl⟩ := List.mem_map.mp hcall
      obtain rfl : other = test :=
        List.inj_on_of_nodup_map hdistinct (hsubset hother) htest hname
      exact ⟨hother, rfl⟩
    · rintro ⟨hreported, rfl⟩
      exact ⟨test.summaryCall, List.mem_map_of_mem hreported, rfl, rfl⟩
  have hmem : ∀ p : RegisteredTest → Bool,
      test.metadata.name ∈ (reported.filter p).map (·.metadata.name) ↔
        test ∈ reported ∧ p test = true := by
    intro p
    rw [List.mem_map]
    constructor
    · rintro ⟨other, hother, hname⟩
      obtain ⟨hother, hp⟩ := List.mem_filter.mp hother
      obtain rfl : other = test :=
        List.inj_on_of_nodup_map hdistinct (hsubset hother) htest hname
      exact ⟨hother, hp⟩
    · rintro ⟨hreported, hp⟩
      exact ⟨test, List.mem_filter.mpr ⟨hreported, hp⟩, rfl⟩
  constructor
  · rw [hcell .pass (by simp), h.successful, hmem]
    cases test.failed <;> simp
  · rw [hcell .fail (by simp), h.failed, hmem]
    cases test.failed <;> simp
  · intro hknown
    obtain ⟨hreported, hshown⟩ := (hcell _ hknown).mp rfl
    rw [← hshown, ← failed_eq_false_iff]
    cases test.failed <;> simp

/-! ### The table of several runs -/

/-- A run of the manager on one platform, with a report. `calls` is how the
registered tests go there. -/
structure PlatformRun where
  name : Text
  newIo : SummaryLogger.NewIo
  previous : Option Text
  args : RunArgs
  logger : Logger
  defaultSettings : Bool
  calls : TestMetadata → TestCalls

namespace PlatformRun

def tests (run : PlatformRun) (registered : List TestMetadata) : List RegisteredTest :=
  registered.map fun test => ⟨test, run.calls test⟩

/-- The logger is created before anything is run. -/
def execute (toLowercase : Text → Text) (registered : List TestMetadata) (run : PlatformRun) :
    Except SummaryError (Except RunError Unit × RunState) := do
  let summaryLogger ← SummaryLogger.new run.newIo run.name run.previous
  .ok (RunTests.run toLowercase {run.args with summaryLogger := some summaryLogger} run.logger
    run.defaultSettings (run.tests registered))

/-- `last` is the state in which the run ends, with every line of the report
written. -/
def EndsIn (toLowercase : Text → Text) (registered : List TestMetadata) (run : PlatformRun)
    (last : RunState) : Prop :=
  ∃ result, run.execute toLowercase registered = .ok (result, last) ∧
    ∀ e, result ≠ .error (.logTestResult e)

end PlatformRun

/-- What the loop says about a test in the end. -/
def RunState.resultOf (s : RunState) (test : TestMetadata) : TestResult :=
  if test.name ∈ s.successfulTests then .pass
  else if test.name ∈ s.failedTests then .fail
  else .unknown

/-- A report that can be read, and says of the registered tests what the loop
says, and nothing of others. -/
structure ReportOf (registered : List TestMetadata) (run : PlatformRun) (last : RunState)
    (summary : Summary) : Prop where
  parses : Summary.parseLog (.ok (fileLines (last.summaryText.getD []))) = .ok summary
  name : summary.name = run.name
  cell : ∀ test ∈ registered, summary.cell test = last.resultOf test
  registered : ∀ testName ∈ summary.results, testName ∈ registered.map (·.name)

theorem PlatformRun.EndsIn.report {toLowercase : Text → Text} {registered : List TestMetadata}
    {run : PlatformRun} {last : RunState} (h : run.EndsIn toLowercase registered last)
    (hname : '\n' ∉ run.name ∧ run.name.getLast? ≠ some '\r')
    (hwords : ∀ test ∈ registered, Text.IsWord test.name)
    (hdistinct : (registered.map (·.name)).Nodup) :
    ∃ summary, ReportOf registered run last summary := by
  obtain ⟨result, hexecute, _⟩ := h
  obtain ⟨first, hnew, hrun⟩ := bind_eq_ok hexecute
  have hlast := congrArg Prod.snd (Except.ok.inj hrun)
  dsimp only at hlast
  obtain ⟨reported, hbegin, hreported⟩ := Reported.run toLowercase
    {run.args with summaryLogger := some first} rfl run.logger run.defaultSettings
    (run.tests registered)
  rw [hlast] at hreported
  have hsorted := (sortByKey_isStableSort RegisteredTest.priority (run.tests registered)).perm
  have hsublist := hbegin.sublist.trans (selectTests_sublist toLowercase _ _)
  have hsubset : reported ⊆ run.tests registered := by
    intro test htest
    exact hsorted.mem_iff.mp (hsublist.subset htest)
  have hnames : ((run.tests registered).map (·.metadata.name)).Nodup := by
    simpa [PlatformRun.tests, List.map_map, Function.comp_def] using hdistinct
  have hreportedNames : (reported.map (·.metadata.name)).Nodup :=
    ((hsorted.map _).nodup_iff.mpr hnames).sublist (hsublist.map _)
  have hmetadata : ∀ test ∈ reported, test.metadata ∈ registered := by
    intro test htest
    obtain ⟨metadata, hmem, rfl⟩ := List.mem_map.mp (hsubset htest)
    exact hmem
  obtain ⟨content, summary, htext, hparse, hsummary, hresults⟩ :=
    hreported.reads hnew hname.1 hname.2 fun test htest => hwords _ (hmetadata test htest)
  refine ⟨summary, by simpa [htext] using hparse, hsummary, ?_, ?_⟩
  · intro test htest
    have hshown := hreported.shownAs hresults hsubset hreportedNames hnames
      (List.mem_map_of_mem htest : (⟨test, run.calls test⟩ : RegisteredTest) ∈ run.tests registered)
    unfold RunState.resultOf
    split
    · next hmem => exact hshown.pass.mpr hmem
    · next hmem =>
      split
      · next hmem => exact hshown.fail.mpr hmem
      · next hfailed =>
        have hpass := mt hshown.pass.mp hmem
        have hfail := mt hshown.fail.mp hfailed
        cases hcell : summary.cell test with
        | pass => exact absurd hcell hpass
        | fail => exact absurd hcell hfail
        | unknown => rfl
  · intro testName hmem
    obtain ⟨result, hlookup⟩ := Option.isSome_iff_exists.mp (AList.lookup_isSome.mpr hmem)
    have hcalls : ((reported.map (·.summaryCall)).map (·.testName)).Nodup := by
      simpa [List.map_map, Function.comp_def, RegisteredTest.summaryCall] using hreportedNames
    rw [hresults, lastResult_eq_some hcalls] at hlookup
    obtain ⟨call, hcall, rfl, _⟩ := hlookup
    obtain ⟨test, htest, rfl⟩ := List.mem_map.mp hcall
    exact List.mem_map_of_mem (hmetadata test htest)

/-- The reports of all runs are read, in their order. -/
theorem parseLog_reports {registered : List TestMetadata} {runs : List PlatformRun}
    {last : PlatformRun → RunState}
    (h : ∀ run ∈ runs, ∃ summary, ReportOf registered run (last run) summary) :
    ∃ summaries, (runs.map fun run => Except.ok (fileLines ((last run).summaryText.getD []))).mapM
        Summary.parseLog = .ok summaries ∧
      List.Forall₂ (fun run => ReportOf registered run (last run)) runs summaries := by
  induction runs with
  | nil => exact ⟨[], rfl, .nil⟩
  | cons run rest ih =>
      obtain ⟨⟨summary, hsummary⟩, hrest⟩ := List.forall_mem_cons.mp h
      obtain ⟨summaries, hparse, hreports⟩ := ih hrest
      refine ⟨summary :: summaries, ?_, .cons hsummary hreports⟩
      rw [List.map_cons, List.mapM_cons, hsummary.parses, hparse]
      rfl

theorem ReportOf.strays_eq_zero {registered : List TestMetadata} {run : PlatformRun}
    {last : RunState} {summary : Summary} (h : ReportOf registered run last summary) :
    summary.strays registered = 0 := by
  rw [Summary.strays, List.countP_eq_zero]
  intro entry hentry
  have hmem : entry.1 ∈ summary.results := AList.mem_keys.mpr (List.mem_map_of_mem hentry)
  simp [List.mem_map.mp (h.registered entry.1 hmem)]

theorem RunState.resultOf_eq_pass_iff (s : RunState) (test : TestMetadata) :
    s.resultOf test = .pass ↔ test.name ∈ s.successfulTests := by
  unfold RunState.resultOf
  split
  · next h => simp [h]
  · next h => split <;> simp [h]

/-- The header counts a platform as passed when all registered tests are among
those that succeeded there. -/
theorem ReportOf.counterText {registered : List TestMetadata} {run : PlatformRun}
    {last : RunState} {summary : Summary} (h : ReportOf registered run last summary)
    (hdistinct : (registered.map (·.name)).Nodup) :
    counterText registered summary = TestResult.passStr ↔
      ∀ test ∈ registered, test.name ∈ last.successfulTests := by
  rw [(platform_agrees_iff hdistinct summary).mpr (.inl h.strays_eq_zero)]
  constructor
  · intro hpass test htest
    rw [← last.resultOf_eq_pass_iff, ← h.cell test htest]
    exact hpass test htest
  · intro hpass test htest
    rw [h.cell test htest, last.resultOf_eq_pass_iff]
    exact hpass test htest

theorem failedPlatforms_reports {registered : List TestMetadata} {runs : List PlatformRun}
    {last : PlatformRun → RunState} {summaries : List Summary}
    (h : List.Forall₂ (fun run => ReportOf registered run (last run)) runs summaries)
    {test : TestMetadata} (htest : test ∈ registered) :
    failedPlatforms summaries test =
      (runs.filter fun run => test.name ∉ (last run).successfulTests).map (·.name) := by
  induction h with
  | nil => rfl
  | @cons run summary runs summaries hreport _ ih =>
      have hcell : summary.cell test = .pass ↔ test.name ∈ (last run).successfulTests := by
        rw [hreport.cell test htest, RunState.resultOf_eq_pass_iff]
      unfold failedPlatforms at ih ⊢
      by_cases hpass : test.name ∈ (last run).successfulTests
      · rw [List.filter_cons_of_neg (by simp [hcell, hpass]), ih,
          List.filter_cons_of_neg (by simpa using hpass)]
      · rw [List.filter_cons_of_pos (by simp [hcell, hpass]), List.map_cons, ih,
          List.filter_cons_of_pos (by simpa using hpass), List.map_cons, hreport.name]

theorem cells_reports {registered : List TestMetadata} {runs : List PlatformRun}
    {last : PlatformRun → RunState} {summaries : List Summary}
    (h : List.Forall₂ (fun run => ReportOf registered run (last run)) runs summaries)
    {test : TestMetadata} (htest : test ∈ registered) :
    summaries.map (·.cell test) = runs.map fun run => (last run).resultOf test := by
  induction h with
  | nil => rfl
  | cons hreport _ ih => rw [List.map_cons, List.map_cons, ih, hreport.cell test htest]

theorem verdict_reports {registered : List TestMetadata} {runs : List PlatformRun}
    {last : PlatformRun → RunState} {summaries : List Summary}
    (h : List.Forall₂ (fun run => ReportOf registered run (last run)) runs summaries)
    (hdistinct : (registered.map (·.name)).Nodup) :
    verdict registered summaries = .allPassed ↔
      ∀ run ∈ runs, ∀ test ∈ registered, test.name ∈ (last run).successfulTests := by
  rw [verdict_eq_allPassed_iff]
  induction h with
  | nil => simp
  | cons hreport _ ih =>
      rw [List.forall_mem_cons, List.forall_mem_cons, ih, hreport.counterText hdistinct]

theorem printSummaryTable_of_parsed (tests : List TestMetadata)
    {files : List (Except String (List (Except String Text)))} {summaries : List Summary}
    (h : files.mapM Summary.parseLog = .ok summaries) :
    ∃ before after, printSummaryTable tests files = .ok (before ++ headerRow tests summaries ++
      tests.flatMap (testRow summaries) ++ after) := by
  rw [printSummaryTable, h]
  exact ⟨_, _, rfl⟩

/-- Whatever happens in the runs on the platforms, as long as their reports are
written: the table is printed, every cell says what the loop has counted, the
last column names the platforms on which a test has not succeeded, and the header
says that all passed exactly when every registered test succeeded everywhere. -/
theorem table_shows_runs (toLowercase : Text → Text) (registered : List TestMetadata)
    (runs : List PlatformRun) (last : PlatformRun → RunState)
    (hwords : ∀ test ∈ registered, Text.IsWord test.name)
    (hdistinct : (registered.map (·.name)).Nodup)
    (hnames : ∀ run ∈ runs, '\n' ∉ run.name ∧ run.name.getLast? ≠ some '\r')
    (hruns : ∀ run ∈ runs, run.EndsIn toLowercase registered (last run)) :
    ∃ summaries lines, printSummaryTable registered
        (runs.map fun run => .ok (fileLines ((last run).summaryText.getD []))) = .ok lines ∧
      headerRow registered summaries <:+: lines ∧
      (∀ test ∈ registered, testRow summaries test <:+: lines ∧
        summaries.map (·.cell test) = runs.map (fun run => (last run).resultOf test) ∧
        failedPlatforms summaries test =
          (runs.filter fun run => test.name ∉ (last run).successfulTests).map (·.name)) ∧
      (verdict registered summaries = .allPassed ↔
        ∀ run ∈ runs, ∀ test ∈ registered, test.name ∈ (last run).successfulTests) := by
  have hreports : ∀ run ∈ runs, ∃ summary, ReportOf registered run (last run) summary := by
    intro run hrun
    exact (hruns run hrun).report (hnames run hrun) hwords hdistinct
  obtain ⟨summaries, hparse, hall⟩ := parseLog_reports hreports
  obtain ⟨before, after, hprint⟩ := printSummaryTable_of_parsed registered hparse
  refine ⟨summaries, _, hprint, ?_, ?_, verdict_reports hall hdistinct⟩
  · exact ⟨before, registered.flatMap (testRow summaries) ++ after, by simp⟩
  · intro test htest
    refine ⟨?_, cells_reports hall htest, failedPlatforms_reports hall htest⟩
    have hrow : testRow summaries test <:+: registered.flatMap (testRow summaries) :=
      List.infix_of_mem_flatten (List.mem_map_of_mem htest)
    exact hrow.trans ⟨before ++ headerRow registered summaries, after, rfl⟩

/-- Every test passes. -/
def linuxRun : PlatformRun :=
  ⟨"linux".toList, .working, none, threeTestsArgs, .init [], false, fun _ => .working .ok⟩

/-- `test_b` passes, but the daemon cannot be reset after it. -/
def windowsRun : PlatformRun :=
  {linuxRun with
    name := "windows".toList
    calls := fun test =>
      if test.name = "test_b".toList then {TestCalls.working .ok with cleanup := .error "no daemon"}
      else .working .ok}

def PlatformRun.lastState (registered : List TestMetadata) (run : PlatformRun) : RunState :=
  match run.execute id registered with
  | .ok (_, last) => last
  | .error _ => .start run.logger run.defaultSettings none

/-- The run on Windows ends with an error and without a line for `test_b`. -/
theorem twoPlatforms_shown :
    ∃ summaries lines, printSummaryTable twoTests ([linuxRun, windowsRun].map fun run =>
        .ok (fileLines ((run.lastState twoTests).summaryText.getD []))) = .ok lines ∧
      summaries.map (·.cell (twoTests[1])) = [.pass, .unknown] ∧
      verdict twoTests summaries ≠ .allPassed := by
  have hlinux : linuxRun.EndsIn id twoTests (linuxRun.lastState twoTests) :=
    ⟨.ok (), rfl, by simp⟩
  have hwindows : windowsRun.EndsIn id twoTests (windowsRun.lastState twoTests) :=
    ⟨.error (.cleanupAfterTest "no daemon"), rfl, by simp⟩
  have hruns : ∀ run ∈ [linuxRun, windowsRun], run.EndsIn id twoTests (run.lastState twoTests) := by
    rw [List.forall_mem_cons, List.forall_mem_singleton]
    exact ⟨hlinux, hwindows⟩
  obtain ⟨summaries, lines, hprint, _, hcells, hverdict⟩ :=
    table_shows_runs id twoTests [linuxRun, windowsRun] (·.lastState twoTests)
      (by decide) (by decide) (by decide) hruns
  refine ⟨summaries, lines, hprint, ?_, ?_⟩
  · rw [(hcells _ (by decide)).2.1]
    decide
  · rw [ne_eq, hverdict]
    decide

/-! ### A line that was not written to its end -/

/-- What is in the file after writes of which the first that fails has still
written some characters. -/
def leftBy (written : Nat) : List (Except String Unit × Text) → Text
  | [] => []
  | (.ok _, data) :: rest => data ++ leftBy written rest
  | (.error _, data) :: _ => data.take written

namespace SummaryLogger

/-- The four writes of `log_test_result`. -/
def Call.writes (call : Call) : List (Except String Unit × Text) :=
  [(call.io.testName, call.testName), (call.io.space, [' ']),
    (call.io.testResult, call.testResult.display), (call.io.newline, ['\n'])]

/-- The file after one more call, which may fail. -/
def contentAfter (logger : SummaryLogger) (written : Nat) (call : Call) : Text :=
  logger.file.content ++ leftBy written call.writes

/-- Nothing was written, not even of the test's name. -/
def Call.Unwritten (written : Nat) (call : Call) : Prop :=
  call.io.testName ≠ .ok () ∧ written = 0

/-- The name and the result were written. A result is a single character. -/
def Call.Recorded (written : Nat) (call : Call) : Prop :=
  call.io.testName = .ok () ∧ call.io.space = .ok () ∧
    (call.io.testResult = .ok () ∨ 0 < written)

end SummaryLogger

/-- A result that is known is written as one character. -/
theorem display_eq_singleton {testResult : TestResult} (h : testResult ≠ .unknown) :
    ∃ c, testResult.display = [c] ∧ Text.isWhitespace c = false := by
  cases testResult with
  | pass => exact ⟨'✅', rfl, by decide⟩
  | fail => exact ⟨'❌', rfl, by decide⟩
  | unknown => exact absurd rfl h

theorem lines_record {call : SummaryLogger.Call} (hword : Text.IsWord call.testName)
    (rest : Text) (hrest : rest = [] ∨ rest = ['\n']) :
    Text.lines (call.record ++ rest) = [call.record] := by
  have hnewline := newline_not_mem_record hword
  rcases hrest with rfl | rfl
  · rw [List.append_nil]
    exact Text.lines_unterminated hnewline (by simp [SummaryLogger.Call.record])
  · rw [Text.lines_append hnewline (display_last _ _), Text.lines_nil]

theorem isWord_take {word : Text} (h : Text.IsWord word) {n : Nat} (hn : n ≠ 0) :
    Text.IsWord (word.take n) := by
  refine ⟨?_, fun c hc => h.2 c (List.mem_of_mem_take hc)⟩
  rw [ne_eq, List.take_eq_nil_iff, not_or]
  exact ⟨hn, h.1⟩

/-- The second column is missing. -/
inductive Cut (text : Text) : Prop where
  | name (h : Text.IsWord text) : Cut text
  | space (word : Text) (h : Text.IsWord word) (htext : text = word ++ [' ']) : Cut text

theorem Cut.lines {text : Text} (h : Cut text) : Text.lines text = [text] := by
  cases h with
  | name h => exact Text.lines_unterminated h.newline_not_mem h.1
  | space word h htext =>
      subst htext
      apply Text.lines_unterminated
      · simp [h.newline_not_mem]
      · simp

theorem Cut.parseLine {text : Text} (h : Cut text)
    (results : AList fun _ : Text => TestResult) : parseLine results text = .error .parse := by
  cases h with
  | name h => rw [TestManager.parseLine, Text.splitWhitespace_word h]
  | space word h htext =>
      have hnone : Text.splitWhitespace [] = [] := by decide
      rw [htext, TestManager.parseLine, Text.splitWhitespace_cons h (by decide), hnone]

/-- The line is missing, or as good as complete, or cut before the result. -/
theorem leftBy_writes {call : SummaryLogger.Call} (hword : Text.IsWord call.testName)
    (hresult : call.testResult ≠ .unknown) (written : Nat) :
    (call.Unwritten written → leftBy written call.writes = []) ∧
      (call.Recorded written → Text.lines (leftBy written call.writes) = [call.record]) ∧
      (¬call.Unwritten written → ¬call.Recorded written → Cut (leftBy written call.writes)) := by
  obtain ⟨c, hdisplay, _⟩ := display_eq_singleton hresult
  have hrecord := lines_record hword
  obtain ⟨⟨testName, space, testResult, newline⟩, name, result⟩ := call
  simp only [SummaryLogger.Call.record] at hrecord hdisplay hword
  simp only [SummaryLogger.Call.Unwritten, SummaryLogger.Call.Recorded, SummaryLogger.Call.writes,
    SummaryLogger.Call.record]
  rcases testName with e | _
  · refine ⟨?_, by simp, ?_⟩
    · rintro ⟨_, rfl⟩
      simp [leftBy]
    · intro hwritten _
      have hne : written ≠ 0 := by simpa using hwritten
      exact .name (isWord_take hword hne)
  refine ⟨by simp, ?_, ?_⟩
  · rintro ⟨_, hspace, hsome⟩
    subst hspace
    rcases testResult with e | _
    · have hpos : 0 < written := by simpa using hsome
      have htake : result.display.take written = result.display := by
        rw [hdisplay]
        exact List.take_of_length_le hpos
      simpa [leftBy, htake] using hrecord [] (.inl rfl)
    · rcases newline with e | _
      · cases written with
        | zero => simpa [leftBy] using hrecord [] (.inl rfl)
        | succ n => simpa [leftBy] using hrecord ['\n'] (.inr rfl)
      · simpa [leftBy] using hrecord ['\n'] (.inr rfl)
  · intro _ hcut
    rcases space with e | _
    · cases written with
      | zero => exact .name (by simpa [leftBy] using hword)
      | succ n => exact .space name hword (by simp [leftBy])
    · rcases testResult with e | _
      · have hzero : written = 0 := by simpa using hcut
        exact .space name hword (by simp [leftBy, hzero])
      · simp at hcut

theorem lines_contentAfter {io : SummaryLogger.NewIo} {name : Text} {previous : Option Text}
    {calls : List SummaryLogger.Call} {logger last : SummaryLogger}
    (hname : '\n' ∉ name) (hcr : name.getLast? ≠ some '\r')
    (hwords : ∀ call ∈ calls, Text.IsWord call.testName)
    (hnew : SummaryLogger.new io name previous = .ok logger)
    (hlog : logger.logAll calls = .ok last) (written : Nat) (call : SummaryLogger.Call) :
    Text.lines (last.contentAfter written call) =
      name :: (calls.map (·.record) ++ Text.lines (leftBy written call.writes)) := by
  have hrecords : ∀ line ∈ calls.map (·.record),
      '\n' ∉ line ∧ line.getLast? ≠ some '\r' := by
    intro line hline
    obtain ⟨call, hcall, rfl⟩ := List.mem_map.mp hline
    exact ⟨newline_not_mem_record (hwords call hcall), display_last _ _⟩
  rw [SummaryLogger.contentAfter, logAll_content hlog, new_content hnew, List.append_assoc,
    List.append_assoc, List.singleton_append, Text.lines_append hname hcr,
    Text.lines_flatten_append _ hrecords]

theorem parseLog_cut {name content text : Text} {calls : List SummaryLogger.Call}
    (hwords : ∀ call ∈ calls, Text.IsWord call.testName)
    (hknown : ∀ call ∈ calls, call.testResult ≠ .unknown) (hcut : Cut text)
    (h : Text.lines content = name :: (calls.map (·.record) ++ [text])) :
    Summary.parseLog (.ok (fileLines content)) = .error .parse := by
  have hrecords := parseRecords_known hwords hknown ∅
  rw [parseRecords] at hrecords
  rw [fileLines, h]
  simp only [List.map_cons, List.map_append, Summary.parseLog, List.foldlM_append, List.foldlM_map,
    hrecords]
  simp only [List.map_nil, List.foldlM_cons, hcut.parseLine, bind, Except.bind]

theorem readsBack_of_lines {name content : Text} {calls : List SummaryLogger.Call}
    (hwords : ∀ call ∈ calls, Text.IsWord call.testName)
    (hknown : ∀ call ∈ calls, call.testResult ≠ .unknown)
    (h : Text.lines content = name :: calls.map (·.record)) : ReadsBack name calls content := by
  have hparse := parseLog_lines name calls content h
  rw [parseRecords_known hwords hknown] at hparse
  refine ⟨_, hparse, rfl, ?_⟩
  intro testName
  rw [lookup_insert_calls, AList.lookup_empty, Option.or_none]

/-- One report that cannot be read, and no table is printed. -/
theorem printSummaryTable_of_unreadable (tests : List TestMetadata)
    {file : Except String (List (Except String Text))} {e : SummaryError}
    (h : Summary.parseLog file = .error e)
    (before after : List (Except String (List (Except String Text)))) (lines : List Text) :
    printSummaryTable tests (before ++ file :: after) ≠ .ok lines := by
  intro hprint
  obtain ⟨summaries, hparse, _⟩ := bind_eq_ok hprint
  rw [List.mapM_append] at hparse
  obtain ⟨_, _, hparse⟩ := bind_eq_ok hparse
  obtain ⟨_, hparse, _⟩ := bind_eq_ok hparse
  rw [List.mapM_cons, h] at hparse
  cases hparse

/-- A call that fails leaves the report as it was, or with the result after all,
or without any use: when it has written something but not the result, the report
cannot be read any more, and with it the other platforms are lost from the table
too. -/
theorem failed_write_leaves (newIo : SummaryLogger.NewIo) (name : Text) (previous : Option Text)
    (calls : List SummaryLogger.Call) (logger last : SummaryLogger) (call : SummaryLogger.Call)
    (written : Nat) (hname : '\n' ∉ name) (hcr : name.getLast? ≠ some '\r')
    (hwords : ∀ call ∈ calls, Text.IsWord call.testName)
    (hknown : ∀ call ∈ calls, call.testResult ≠ .unknown)
    (hword : Text.IsWord call.testName) (hresult : call.testResult ≠ .unknown)
    (hnew : SummaryLogger.new newIo name previous = .ok logger)
    (hlog : logger.logAll calls = .ok last) :
    (call.Unwritten written → ReadsBack name calls (last.contentAfter written call)) ∧
      (call.Recorded written →
        ReadsBack name (calls ++ [call]) (last.contentAfter written call)) ∧
      (¬call.Unwritten written → ¬call.Recorded written →
        ∀ tests before after lines, printSummaryTable tests
          (before ++ .ok (fileLines (last.contentAfter written call)) :: after) ≠ .ok lines) := by
  have hlines := lines_contentAfter hname hcr hwords hnew hlog written call
  obtain ⟨hunwritten, hrecorded, hcut⟩ := leftBy_writes hword hresult written
  refine ⟨?_, ?_, ?_⟩
  · intro h
    rw [hunwritten h, Text.lines_nil, List.append_nil] at hlines
    exact readsBack_of_lines hwords hknown hlines
  · intro h
    rw [hrecorded h] at hlines
    apply readsBack_of_lines
    · simpa [or_imp, forall_and] using ⟨hwords, hword⟩
    · simpa [or_imp, forall_and] using ⟨hknown, hresult⟩
    · simpa using hlines
  · intro hsome hnot tests
    rw [(hcut hsome hnot).lines] at hlines
    exact printSummaryTable_of_unreadable tests (parseLog_cut hwords hknown (hcut hsome hnot) hlines)

/-- The disk is full after the name of the test. -/
def noSpace : SummaryLogger.Call :=
  ⟨⟨.ok (), .error "no space left", .ok (), .ok ()⟩, "test_c".toList, .pass⟩

theorem noSpace_unreadable :
    ∃ logger last, SummaryLogger.new .working "linux".toList none = .ok logger ∧
      logger.logAll retried = .ok last ∧
      last.contentAfter 0 noSpace = "linux\ntest_a ❌\ntest_b ❌\ntest_a ✅\ntest_c".toList ∧
      ∀ tests lines, printSummaryTable tests
        [.ok (fileLines (last.contentAfter 0 noSpace))] ≠ .ok lines := by
  refine ⟨_, _, rfl, rfl, by decide, ?_⟩
  intro tests
  refine (failed_write_leaves .working "linux".toList none retried _ _ noSpace 0 (by decide)
    (by decide) ?_ ?_ (by decide) (by decide) rfl rfl).2.2 ?_ ?_ tests [] []
  · simp only [retried, List.forall_mem_cons]
    decide
  · simp only [retried, List.forall_mem_cons]
    decide
  · rintro ⟨hname, _⟩
    exact hname rfl
  · rintro ⟨_, hspace, _⟩
    cases hspace

end MullvadAppTests.TestManager
