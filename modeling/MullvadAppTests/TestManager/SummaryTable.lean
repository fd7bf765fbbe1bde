import MullvadAppTests.TestManager.Summary
import MullvadAppTests.TestManager.TestMetadata

/-!
`print_summary_table` of `test-manager/src/summary.rs`. The header compares the
number of passed tests in a report with the number of registered tests, whatever
their names, while the rows look each registered test up by its name. The two
agree only as long as the report names no test that is not registered.
-/

namespace MullvadAppTests.TestManager

open Lib

def natText (n : Nat) : Text := (Nat.repr n).toList

/-- `Summary::passed`. -/
def Summary.passed (summary : Summary) : List TestResult :=
  (summary.results.entries.map (·.2)).filter (· = .pass)

def counterText (tests : List TestMetadata) (summary : Summary) : Text :=
  let totalTests := tests.length
  let totalPassed := summary.passed.length
  if totalPassed = totalTests then TestResult.passStr
  else "(".toList ++ natText totalPassed ++ "/".toList ++ natText totalTests ++ ")".toList

/-- The summary of all platforms in the header. -/
inductive Verdict where
  | allPassed
  | failed (platforms : Nat)
  deriving DecidableEq, Repr

def Verdict.display : Verdict → Text
  | .allPassed => "🎉 All Platforms passed 🎉".toList
  | .failed platforms =>
      "🌧️ ️ ".toList ++ natText platforms ++ " Platform(s) failed 🌧️".toList

def verdict (tests : List TestMetadata) (summaries : List Summary) : Verdict :=
  let osesPassed := summaries.filter fun summary => summary.passed.length = tests.length
  if osesPassed.length = summaries.length then .allPassed
  else
    .failed (summaries.map fun summary =>
      if summary.passed.length = tests.length then 0 else 1).sum

/-- A test that the report does not name is `Unknown`. -/
def Summary.cell (summary : Summary) (test : TestMetadata) : TestResult :=
  (summary.results.lookup test.name).getD .unknown

def failedPlatforms (summaries : List Summary) (test : TestMetadata) : List Text :=
  (summaries.filter fun summary => summary.cell test ≠ .pass).map (·.name)

def lastColumn (summaries : List Summary) (test : TestMetadata) : Text :=
  if failedPlatforms summaries test = [] then TestResult.passStr
  else List.intercalate ", ".toList (failedPlatforms summaries test)

def centered (content : Text) : Text :=
  "<td style='text-align: center;'>".toList ++ content ++ "</td>".toList

def headerRow (tests : List TestMetadata) (summaries : List Summary) : List Text :=
  ["<tr>".toList, centered "Test ⬇️ / Platform ➡️ ".toList] ++
    summaries.map (fun summary =>
      centered (summary.name ++ " ".toList ++ counterText tests summary)) ++
    ["<td style='text-align: center;'>".toList, (verdict tests summaries).display, "</td>".toList,
      centered "Test ⬇️".toList, "</tr>".toList]

def testRow (summaries : List Summary) (test : TestMetadata) : List Text :=
  ["<tr>".toList,
      "<td>".toList ++ test.name ++ (if test.mustSucceed then " *".toList else []) ++
        "</td>".toList] ++
    summaries.map (fun summary => centered (summary.cell test).display) ++
    ["<td style='text-align: center;'>".toList, lastColumn summaries test ++ "</td>".toList,
      "<td>".toList ++ test.name ++ "</td>".toList, "</tr>".toList]

/-- The lines printed for the registered tests and the given files; nothing is
printed if one of the files cannot be read. -/
def printSummaryTable (tests : List TestMetadata)
    (summaryFiles : List (Except String (List (Except String Text)))) :
    Except SummaryError (List Text) := do
  let summaries ← summaryFiles.mapM Summary.parseLog
  .ok (["<head> <style> table, th, td \x7b border: 1px solid black; \x7d </style> </head>".toList,
      "<table>".toList] ++
    headerRow tests summaries ++ tests.flatMap (testRow summaries) ++
    ["</table>".toList, "<p>".toList ++ TestResult.passStr ++ " = Test passed</p>".toList,
      "<p>".toList ++ TestResult.failStr ++ " = Test failed</p>".toList])

/-! ### Header and rows -/

/-- The header's verdicts are those of the cells below it. -/
structure VerdictsAgree (tests : List TestMetadata) (summaries : List Summary) : Prop where
  platform : ∀ summary ∈ summaries,
    (counterText tests summary = TestResult.passStr ↔ ∀ test ∈ tests, summary.cell test = .pass)
  all : verdict tests summaries = .allPassed ↔
    ∀ test ∈ tests, lastColumn summaries test = TestResult.passStr
  failed : ∀ platforms, verdict tests summaries = .failed platforms →
    platforms = summaries.countP fun summary => tests.any fun test => summary.cell test ≠ .pass

/-- Tests reported as passed that are not registered. -/
def Summary.strays (tests : List TestMetadata) (summary : Summary) : Nat :=
  summary.results.entries.countP fun entry =>
    entry.2 = .pass ∧ entry.1 ∉ tests.map (·.name)

/-- Registered tests that are not reported as passed. -/
def Summary.misses (tests : List TestMetadata) (summary : Summary) : Nat :=
  tests.countP fun test => summary.cell test ≠ .pass

/-- The stray passes do not make up for the missing ones. -/
def Summary.Comparable (tests : List TestMetadata) (summary : Summary) : Prop :=
  summary.strays tests = 0 ∨ 0 < summary.misses tests ∧ summary.strays tests ≠ summary.misses tests

/-- Tests fail, but each of them only on a single platform whose name is the pass
symbol. -/
def MisleadingName (tests : List TestMetadata) (summaries : List Summary) : Prop :=
  (∃ test ∈ tests, ∃ summary ∈ summaries, summary.cell test ≠ .pass) ∧
    ∀ test ∈ tests, (∀ summary ∈ summaries, summary.cell test = .pass) ∨
      (summaries.filter fun summary => summary.cell test ≠ .pass).map (·.name) =
        [TestResult.passStr]

theorem counterText_eq_passStr_iff {tests : List TestMetadata} {summary : Summary} :
    counterText tests summary = TestResult.passStr ↔ summary.passed.length = tests.length := by
  simp only [counterText]
  split
  · next h => simp [h]
  · next h => simp [h, TestResult.passStr]

theorem passed_length_eq (summary : Summary) :
    summary.passed.length = summary.results.entries.countP fun entry => entry.2 = .pass := by
  rw [Summary.passed, ← List.countP_eq_length_filter, List.countP_map]
  rfl

theorem cell_eq_pass_iff {summary : Summary} {test : TestMetadata} :
    summary.cell test = .pass ↔ ⟨test.name, .pass⟩ ∈ summary.results.entries := by
  rw [← AList.mem_lookup_iff, Option.mem_def, Summary.cell]
  cases summary.results.lookup test.name <;> simp

/-- The passed entries with registered names are the registered tests whose cell
is `Pass`: both lists of names have no repetitions and the same members. -/
theorem registered_passes {tests : List TestMetadata} (hdistinct : (tests.map (·.name)).Nodup)
    (summary : Summary) :
    (summary.results.entries.countP fun entry =>
        entry.2 = .pass ∧ entry.1 ∈ tests.map (·.name)) =
      tests.countP fun test => summary.cell test = .pass := by
  have hperm : ((summary.results.entries.filter fun entry =>
        entry.2 = .pass ∧ entry.1 ∈ tests.map (·.name)).map Sigma.fst).Perm
      ((tests.filter fun test => summary.cell test = .pass).map (·.name)) := by
    apply (List.perm_ext_iff_of_nodup ?_ ?_).mpr
    · intro name
      simp only [List.mem_map, List.mem_filter, decide_eq_true_eq, cell_eq_pass_iff]
      constructor
      · rintro ⟨⟨key, result⟩, ⟨hentry, hpass, test, htest, hname⟩, rfl⟩
        obtain rfl : result = .pass := hpass
        obtain rfl : test.name = key := hname
        exact ⟨test, ⟨htest, hentry⟩, rfl⟩
      · rintro ⟨test, ⟨htest, hentry⟩, rfl⟩
        exact ⟨⟨test.name, .pass⟩, ⟨hentry, rfl, test, htest, rfl⟩, rfl⟩
    · exact List.Nodup.sublist (List.filter_sublist.map _) summary.results.keys_nodup
    · exact List.Nodup.sublist (List.filter_sublist.map _) hdistinct
  simpa [List.countP_eq_length_filter] using hperm.length_eq

/-- The header counts right exactly when the stray passes are as many as the
missing ones. -/
theorem passed_length_eq_iff {tests : List TestMetadata}
    (hdistinct : (tests.map (·.name)).Nodup) (summary : Summary) :
    summary.passed.length = tests.length ↔ summary.strays tests = summary.misses tests := by
  have hentries : summary.passed.length =
      (summary.results.entries.countP fun entry =>
        entry.2 = .pass ∧ entry.1 ∈ tests.map (·.name)) + summary.strays tests := by
    rw [passed_length_eq, Summary.strays]
    induction summary.results.entries with
    | nil => rfl
    | cons entry rest ih =>
        simp only [List.countP_cons, ih]
        by_cases hpass : entry.2 = .pass <;> by_cases hname : entry.1 ∈ tests.map (·.name) <;>
          simp [hpass, hname] <;> omega
  have htests : tests.length = (tests.countP fun test => summary.cell test = .pass) +
      summary.misses tests := by
    rw [Summary.misses, List.length_eq_countP_add_countP fun test => summary.cell test = .pass]
    simp
  rw [hentries, htests, registered_passes hdistinct]
  omega

theorem misses_eq_zero_iff {tests : List TestMetadata} {summary : Summary} :
    summary.misses tests = 0 ↔ ∀ test ∈ tests, summary.cell test = .pass := by
  simp [Summary.misses, List.countP_eq_zero]

theorem platform_agrees_iff {tests : List TestMetadata}
    (hdistinct : (tests.map (·.name)).Nodup) (summary : Summary) :
    (counterText tests summary = TestResult.passStr ↔
        ∀ test ∈ tests, summary.cell test = .pass) ↔ summary.Comparable tests := by
  rw [counterText_eq_passStr_iff, passed_length_eq_iff hdistinct, ← misses_eq_zero_iff,
    Summary.Comparable]
  omega

/-! ### The verdict on all platforms -/

theorem verdict_eq_allPassed_iff {tests : List TestMetadata} {summaries : List Summary} :
    verdict tests summaries = .allPassed ↔
      ∀ summary ∈ summaries, counterText tests summary = TestResult.passStr := by
  simp only [counterText_eq_passStr_iff, verdict]
  split
  · next h => simpa using List.length_filter_eq_length_iff.mp h
  · next h => simpa using mt List.length_filter_eq_length_iff.mpr h

theorem verdict_failed {tests : List TestMetadata} {summaries : List Summary} {platforms : Nat}
    (h : verdict tests summaries = .failed platforms) :
    platforms = summaries.countP fun summary =>
      counterText tests summary ≠ TestResult.passStr := by
  simp only [verdict] at h
  split at h
  · cases h
  · next hsome =>
    cases h
    clear hsome
    simp only [ne_eq, counterText_eq_passStr_iff]
    induction summaries with
    | nil => rfl
    | cons summary rest ih =>
        rw [List.map_cons, List.sum_cons, List.countP_cons, ih, Nat.add_comm]
        by_cases hpassed : summary.passed.length = tests.length <;> simp [hpassed]

theorem failedPlatforms_eq_nil_iff {summaries : List Summary} {test : TestMetadata} :
    failedPlatforms summaries test = [] ↔ ∀ summary ∈ summaries, summary.cell test = .pass := by
  simp [failedPlatforms, List.filter_eq_nil_iff]

/-- Two names are joined by two characters, so a joined text of one character is
the name of a single platform. -/
theorem intercalate_eq_singleton {names : List Text} {c : Char} (hnames : names ≠ []) :
    List.intercalate ", ".toList names = [c] ↔ names = [[c]] := by
  match names with
  | [] => exact absurd rfl hnames
  | [name] => simp [List.intercalate]
  | first :: second :: rest =>
      constructor
      · intro h
        have hlength := congrArg List.length h
        simp [List.intercalate, List.intersperse] at hlength
        omega
      · intro h
        simp at h

theorem lastColumn_eq_passStr_iff {summaries : List Summary} {test : TestMetadata} :
    lastColumn summaries test = TestResult.passStr ↔
      (∀ summary ∈ summaries, summary.cell test = .pass) ∨
        failedPlatforms summaries test = [TestResult.passStr] := by
  rw [← failedPlatforms_eq_nil_iff]
  unfold lastColumn
  split
  · next h => simp [h]
  · next h =>
    rw [TestResult.passStr, intercalate_eq_singleton h]
    simp [h]

/-- When every platform's header is right, the verdict on all of them is right
unless a platform's name passes for the pass symbol. -/
theorem all_agrees_iff {tests : List TestMetadata} {summaries : List Summary}
    (hplatform : ∀ summary ∈ summaries, (counterText tests summary = TestResult.passStr ↔
      ∀ test ∈ tests, summary.cell test = .pass)) :
    (verdict tests summaries = .allPassed ↔
        ∀ test ∈ tests, lastColumn summaries test = TestResult.passStr) ↔
      ¬ MisleadingName tests summaries := by
  have hverdict : verdict tests summaries = .allPassed ↔
      ¬ ∃ test ∈ tests, ∃ summary ∈ summaries, summary.cell test ≠ .pass := by
    rw [verdict_eq_allPassed_iff]
    push Not
    constructor
    · intro h test htest summary hsummary
      exact (hplatform summary hsummary).mp (h summary hsummary) test htest
    · intro h summary hsummary
      apply (hplatform summary hsummary).mpr
      intro test htest
      exact h test htest summary hsummary
  have hcolumns : (¬ ∃ test ∈ tests, ∃ summary ∈ summaries, summary.cell test ≠ .pass) →
      ∀ test ∈ tests, lastColumn summaries test = TestResult.passStr := by
    intro h test htest
    push Not at h
    exact lastColumn_eq_passStr_iff.mpr (.inl (h test htest))
  have hnames : (∀ test ∈ tests, lastColumn summaries test = TestResult.passStr) ↔
      ∀ test ∈ tests, (∀ summary ∈ summaries, summary.cell test = .pass) ∨
        (summaries.filter fun summary => summary.cell test ≠ .pass).map (·.name) =
          [TestResult.passStr] := by
    simp only [lastColumn_eq_passStr_iff, failedPlatforms]
  rw [hverdict, MisleadingName, ← hnames]
  constructor
  · rintro hiff ⟨hfails, hpassed⟩
    exact hiff.mpr hpassed hfails
  · intro hnot
    exact ⟨hcolumns, fun hpassed hfails => hnot ⟨hfails, hpassed⟩⟩

/-- For every list of tests with distinct names and all reports, the header agrees
with the rows if and only if no report has stray passes that change its count and
no platform is named like the pass symbol in a misleading way. -/
theorem verdicts_agree_iff (tests : List TestMetadata) (summaries : List Summary)
    (hdistinct : (tests.map (·.name)).Nodup) :
    VerdictsAgree tests summaries ↔
      (∀ summary ∈ summaries, summary.Comparable tests) ∧ ¬ MisleadingName tests summaries := by
  constructor
  · intro h
    refine ⟨?_, (all_agrees_iff h.platform).mp h.all⟩
    intro summary hsummary
    exact (platform_agrees_iff hdistinct summary).mp (h.platform summary hsummary)
  · rintro ⟨hcomparable, hname⟩
    have hplatform : ∀ summary ∈ summaries, (counterText tests summary = TestResult.passStr ↔
        ∀ test ∈ tests, summary.cell test = .pass) := by
      intro summary hsummary
      exact (platform_agrees_iff hdistinct summary).mpr (hcomparable summary hsummary)
    refine ⟨hplatform, (all_agrees_iff hplatform).mpr hname, ?_⟩
    intro platforms hfailed
    rw [verdict_failed hfailed]
    apply List.countP_congr
    intro summary hsummary
    simp [hplatform summary hsummary]

/-- Two registered tests and a report in which both pass. -/
def twoTests : List TestMetadata :=
  [⟨"test_a".toList, "test_a".toList, .new, none, false, false, true⟩,
    ⟨"test_b".toList, "test_b".toList, .new, none, false, false, true⟩]

def bothPass : Summary :=
  ⟨"linux".toList, (AList.singleton "test_a".toList .pass).insert "test_b".toList .pass⟩

theorem bothPass_agrees : VerdictsAgree twoTests [bothPass] := by
  refine (verdicts_agree_iff twoTests [bothPass] (by decide)).mpr ⟨?_, ?_⟩
  · intro summary hsummary
    obtain rfl := List.mem_singleton.mp hsummary
    exact .inl (by decide)
  · rintro ⟨hfails, _⟩
    exact absurd hfails (by decide)

/-- The report of a renamed test: `test_old` passed, `test_b` was not run. -/
def renamed : Summary :=
  ⟨"linux".toList, (AList.singleton "test_a".toList .pass).insert "test_old".toList .pass⟩

/-- The header shows the pass symbol and that all platforms passed, above a row
whose cell is `Unknown`. -/
theorem renamed_disagrees :
    (twoTests.map (·.name)).Nodup ∧ counterText twoTests renamed = TestResult.passStr ∧
      verdict twoTests [renamed] = .allPassed ∧
      twoTests.map renamed.cell = [.pass, .unknown] ∧ ¬ VerdictsAgree twoTests [renamed] := by
  have hheader : counterText twoTests renamed = TestResult.passStr := by decide
  refine ⟨by decide, hheader, by decide, by decide, ?_⟩
  intro h
  have hcells := (h.platform renamed (by simp)).mp hheader
  exact absurd hcells (by decide)

end MullvadAppTests.TestManager
