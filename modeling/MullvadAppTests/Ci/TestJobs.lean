import MullvadAppTests.Ci.PackageNames
import MullvadAppTests.Lib.Replace
import MullvadAppTests.Lib.Transition

/-!
The test jobs of `ci-runtests.sh`: one background job for every entry of
`TEST_OSES`, launched in order, with a polling loop that holds the next launch
back while `MAX_CONCURRENT_JOBS` jobs are alive, and then one `wait` for each.
A job can write to its log and end between any two steps of the script, also in
the middle of a round of polling. An answer of `ps` may be out of date or about
another process by then, but a job that runs is always found.

An empty list of accounts ends the script before the first launch. What the
script prints in the end and the table that it has made from the reports are not
modelled here.
-/

namespace MullvadAppTests.Ci.TestJobs

open Lib Lib.Text

def maxConcurrentJobs : Nat := 1

structure Setup where
  oldAppVersion : Text
  newAppVersion : Text
  testOses : List Text
  tokens : List Text
  scriptDir : Text

/-- The index is taken modulo the number of tokens, which fails when there are
none. -/
def accountTokenFromIndex (tokens : List Text) (index : Nat) : Option Text :=
  tokens[index % tokens.length]?

/-- The command line of `test-manager run-tests`. -/
structure Arguments where
  account : Text
  currentApp : Text
  previousApp : Text
  testReport : Text
  os : Text
  deriving DecidableEq

/-- A file name that cannot be determined is left empty. -/
def runTestsForOs (setup : Setup) (os token : Text) : Arguments where
  account := token
  currentApp := (getAppFilename setup.newAppVersion os).getD []
  previousApp := (getAppFilename setup.oldAppVersion os).getD []
  testReport := setup.scriptDir ++ "/.ci-logs/".toList ++ os ++ "_report".toList
  os := os

/-- What `get_app_filename` says of a platform that it does not know, once for the
previous package and once for the current one. -/
def unsupportedTargets (setup : Setup) (os : Text) : List Text :=
  [setup.oldAppVersion, setup.newAppVersion].flatMap fun version =>
    if (getAppFilename version os).isNone then ["Unsupported target: ".toList ++ os] else []

def accountMarker : Text :=
  ['\x7b', 'A', 'C', 'C', 'O', 'U', 'N', 'T', '_', 'T', 'O', 'K', 'E', 'N', '\x7d']

/-- The `sed` command that a line of the output passes through. -/
def redact (token line : Text) : Text := replaceAll token accountMarker line

/-- The line that `nice_time` ends a log with. -/
def niceTime (os : Text) (seconds : Nat) : Text :=
  "\"run_tests_for_os ".toList ++ os ++ "\" completed in ".toList ++
    (Nat.repr (seconds / 60)).toList ++ "m:".toList ++ (Nat.repr (seconds % 60)).toList ++ ['s']

/-- `log` is what the job has written to its log file. The `complaints` come first: they
are the errors of `run_tests_for_os` itself, which `sed` does not get. -/
structure Job where
  arguments : Arguments
  complaints : List Text
  log : List Text
  status : Option Nat
  deriving DecidableEq

namespace Job

def running (job : Job) : Bool := job.status.isNone

def failed (job : Job) : Bool := job.status.any (· ≠ 0)

/-- The manager has been started. -/
def prepared (job : Job) : Bool := job.complaints.length ≤ job.log.length

end Job

inductive Phase where
  | launching
  | counting (j count : Nat)
  | waiting (i failedBuilds : Nat)
  | exited (code : Nat)
  deriving DecidableEq

structure State where
  jobs : List Job
  phase : Phase
  deriving DecidableEq

/-- With a launch it is known what `rm` says if it cannot remove the old report. -/
inductive Event where
  | launch (removal : Option Text)
  | probe (alive : Bool)
  | compare
  | wait
  | complain (j : Nat)
  | output (j : Nat) (line : Text)
  | finish (j seconds status : Nat)

def start : State := ⟨[], .launching⟩

/-- A new job, before it has written anything. -/
def launched (setup : Setup) (os token : Text) (removal : Option Text) : Job :=
  ⟨runTestsForOs setup os token, unsupportedTargets setup os ++ removal.toList, [], none⟩

def launch (setup : Setup) (removal : Option Text) (s : State) : State :=
  match setup.testOses[s.jobs.length]? with
  | none => { s with phase := .waiting 0 0 }
  | some os =>
      match accountTokenFromIndex setup.tokens s.jobs.length with
      | none => { s with phase := .exited 1 }
      | some token =>
          ⟨s.jobs ++ [launched setup os token removal], .counting 0 0⟩

/-- A running job changes by itself. -/
def updateJob (s : State) (j : Nat) (change : Job → Option Job) : Option State :=
  match s.jobs[j]? with
  | some job =>
      if job.running then
        (change job).map fun changed => { s with jobs := s.jobs.set j changed }
      else none
  | none => none

def complain (job : Job) : Option Job :=
  job.complaints[job.log.length]?.map fun line => { job with log := job.log ++ [line] }

def writeLine (line : Text) (job : Job) : Option Job :=
  if job.prepared then some { job with log := job.log ++ [redact job.arguments.account line] }
  else none

/-- The status is the one of `test-manager`, by way of `PIPESTATUS` and `nice_time`. -/
def endWith (seconds status : Nat) (job : Job) : Option Job :=
  if job.prepared then
    some { job with log := job.log ++ [niceTime job.arguments.os seconds], status := some status }
  else none

/-- `limit` is `MAX_CONCURRENT_JOBS`. -/
def step (limit : Nat) (setup : Setup) (s : State) : Event → Option State
  | .launch removal => if s.phase = .launching then some (launch setup removal s) else none
  | .probe alive =>
      match s.phase with
      | .counting j count =>
          match s.jobs[j]? with
          | some job =>
              if job.running && !alive then none
              else some { s with phase := .counting (j + 1) (if alive then count + 1 else count) }
          | none => none
      | _ => none
  | .compare =>
      match s.phase with
      | .counting j count =>
          if j = s.jobs.length then
            some { s with phase := if count < limit then .launching else .counting 0 0 }
          else none
      | _ => none
  | .wait =>
      match s.phase with
      | .waiting i failedBuilds =>
          match setup.testOses[i]?, s.jobs[i]? with
          | some _, some job =>
              if job.running then none
              else
                some { s with
                  phase := .waiting (i + 1) (if job.failed then failedBuilds + 1 else failedBuilds) }
          | some _, none => none
          | none, _ => some { s with phase := .exited (failedBuilds % 256) }
      | _ => none
  | .complain j => updateJob s j complain
  | .output j line => updateJob s j (writeLine line)
  | .finish j seconds status => updateJob s j (endWith seconds status)

variable {limit : Nat} {setup : Setup} {s next : State}

def runningJobs (jobs : List Job) : Nat := jobs.countP Job.running

def failedJobs (jobs : List Job) : Nat := jobs.countP Job.failed

/-- What the position in the script says about the jobs. While they are counted,
those that were probed and still run are among the counted ones. -/
def PhaseHolds (limit : Nat) (setup : Setup) (jobs : List Job) : Phase → Prop
  | .launching => runningJobs jobs < limit
  | .counting j count => runningJobs jobs ≤ limit ∧ runningJobs (jobs.take j) ≤ count
  | .waiting i failedBuilds =>
      runningJobs jobs ≤ limit ∧ jobs.length = setup.testOses.length ∧
        runningJobs (jobs.take i) = 0 ∧ failedBuilds = failedJobs (jobs.take i)
  | .exited code =>
      runningJobs jobs = 0 ∧
        (setup.tokens = [] ∧ setup.testOses ≠ [] ∧ code = 1 ∧ jobs = [] ∨
          jobs.length = setup.testOses.length ∧ code = failedJobs jobs % 256)

/-- The job at an index is the one for the entry of `TEST_OSES` there. -/
def IsJobOf (setup : Setup) (i : Nat) (job : Job) : Prop :=
  ∃ os token, setup.testOses[i]? = some os ∧ accountTokenFromIndex setup.tokens i = some token ∧
    job.arguments = runTestsForOs setup os token

theorem runningJobs_take_le (jobs : List Job) (j : Nat) :
    runningJobs (jobs.take j) ≤ runningJobs jobs :=
  (List.take_sublist j jobs).countP_le

theorem updateJob_eq_some {j : Nat} {change : Job → Option Job}
    (h : updateJob s j change = some next) :
    ∃ job changed, s.jobs[j]? = some job ∧ job.running = true ∧ change job = some changed ∧
      next = { s with jobs := s.jobs.set j changed } := by
  unfold updateJob at h
  cases hjob : s.jobs[j]? with
  | none => simp [hjob] at h
  | some job =>
      cases hrunning : job.running with
      | false => simp [hjob, hrunning] at h
      | true =>
          simp only [hjob, hrunning, if_true] at h
          obtain ⟨changed, hchanged, rfl⟩ := Option.map_eq_some_iff.mp h
          exact ⟨job, changed, rfl, hrunning, hchanged, rfl⟩

theorem complain_eq_some {job changed : Job} (h : complain job = some changed) :
    ∃ line, job.complaints[job.log.length]? = some line ∧
      changed = { job with log := job.log ++ [line] } := by
  obtain ⟨line, hline, rfl⟩ := Option.map_eq_some_iff.mp h
  exact ⟨line, hline, rfl⟩

theorem writeLine_eq_some {line : Text} {job changed : Job}
    (h : writeLine line job = some changed) :
    job.prepared = true ∧
      changed = { job with log := job.log ++ [redact job.arguments.account line] } := by
  unfold writeLine at h
  split at h
  · next hprepared => exact ⟨hprepared, (Option.some.inj h).symm⟩
  · cases h

theorem endWith_eq_some {seconds status : Nat} {job changed : Job}
    (h : endWith seconds status job = some changed) :
    job.prepared = true ∧ changed = { job with
      log := job.log ++ [niceTime job.arguments.os seconds], status := some status } := by
  unfold endWith at h
  split at h
  · next hprepared => exact ⟨hprepared, (Option.some.inj h).symm⟩
  · cases h

theorem runningJobs_set_le {jobs : List Job} {j : Nat} {job : Job} (hjob : jobs[j]? = some job)
    (hrunning : job.running = true) (changed : Job) :
    runningJobs (jobs.set j changed) ≤ runningJobs jobs := by
  obtain ⟨hj, rfl⟩ := List.getElem?_eq_some_iff.mp hjob
  have hpositive : 0 < runningJobs jobs := List.countP_pos_iff.mpr ⟨_, List.getElem_mem hj, hrunning⟩
  simp only [runningJobs] at hpositive ⊢
  rw [List.countP_set hj, if_pos hrunning]
  split <;> omega

theorem runningJobs_take_set_le {jobs : List Job} {j : Nat} {job : Job}
    (hjob : jobs[j]? = some job) (hrunning : job.running = true) (changed : Job) (k : Nat) :
    runningJobs ((jobs.set j changed).take k) ≤ runningJobs (jobs.take k) := by
  by_cases hk : j < k
  · have htaken : (jobs.take k)[j]? = some job := by rw [List.getElem?_take_of_lt hk, hjob]
    rw [List.take_set]
    exact runningJobs_set_le htaken hrunning changed
  · rw [List.take_set_of_le (Nat.le_of_not_lt hk)]

/-- The jobs that were waited for do not change any more. -/
theorem le_of_runningJobs_take_eq_zero {jobs : List Job} {i j : Nat} {job : Job}
    (hjob : jobs[j]? = some job) (hrunning : job.running = true)
    (hzero : runningJobs (jobs.take i) = 0) : i ≤ j := by
  by_contra hlt
  have htaken : (jobs.take i)[j]? = some job := by
    rw [List.getElem?_take_of_lt (Nat.lt_of_not_le hlt), hjob]
  exact List.countP_eq_zero.mp hzero job (List.mem_of_getElem? htaken) hrunning

theorem phaseHolds_set {jobs : List Job} {phase : Phase} {j : Nat} {job : Job}
    (hjob : jobs[j]? = some job) (hrunning : job.running = true) (changed : Job)
    (h : PhaseHolds limit setup jobs phase) :
    PhaseHolds limit setup (jobs.set j changed) phase := by
  have htotal := runningJobs_set_le hjob hrunning changed
  cases phase with
  | launching => exact Nat.lt_of_le_of_lt htotal h
  | counting i count =>
      have hcounted := runningJobs_take_set_le hjob hrunning changed i
      exact ⟨htotal.trans h.1, hcounted.trans h.2⟩
  | waiting i failedBuilds =>
      obtain ⟨hlimit, hlength, hended, hfailed⟩ := h
      have hi : i ≤ j := le_of_runningJobs_take_eq_zero hjob hrunning hended
      refine ⟨htotal.trans hlimit, by rwa [List.length_set], ?_⟩
      rw [List.take_set_of_le hi]
      exact ⟨hended, hfailed⟩
  | exited code =>
      exact absurd hrunning (List.countP_eq_zero.mp h.1 job (List.mem_of_getElem? hjob))

theorem launch_cases (setup : Setup) (removal : Option Text) (s : State) :
    setup.testOses.length ≤ s.jobs.length ∧
        launch setup removal s = { s with phase := .waiting 0 0 } ∨
      s.jobs.length < setup.testOses.length ∧ setup.tokens = [] ∧
        launch setup removal s = { s with phase := .exited 1 } ∨
      ∃ os token, setup.testOses[s.jobs.length]? = some os ∧
        accountTokenFromIndex setup.tokens s.jobs.length = some token ∧
        launch setup removal s =
          ⟨s.jobs ++ [launched setup os token removal], .counting 0 0⟩ := by
  unfold launch
  cases hos : setup.testOses[s.jobs.length]? with
  | none => exact .inl ⟨List.getElem?_eq_none_iff.mp hos, rfl⟩
  | some os =>
      obtain ⟨hlength, -⟩ := List.getElem?_eq_some_iff.mp hos
      cases htoken : accountTokenFromIndex setup.tokens s.jobs.length with
      | none =>
          have htokens : setup.tokens.length ≤ s.jobs.length % setup.tokens.length :=
            List.getElem?_eq_none_iff.mp htoken
          refine .inr (.inl ⟨hlength, ?_, rfl⟩)
          by_contra hne
          have hless := Nat.mod_lt s.jobs.length (List.length_pos_of_ne_nil hne)
          omega
      | some token => exact .inr (.inr ⟨os, token, rfl, rfl, rfl⟩)

/-- What a step can do to the jobs. -/
theorem step_jobs {event : Event} (h : step limit setup s event = some next) :
    next.jobs = s.jobs ∨
      (∃ os token removal, setup.testOses[s.jobs.length]? = some os ∧
        accountTokenFromIndex setup.tokens s.jobs.length = some token ∧
        next.jobs = s.jobs ++ [launched setup os token removal]) ∨
      ∃ j job changed, s.jobs[j]? = some job ∧ job.running = true ∧
        next.jobs = s.jobs.set j changed ∧
        (complain job = some changed ∨ (∃ line, writeLine line job = some changed) ∨
          ∃ seconds status, endWith seconds status job = some changed) := by
  cases event with
  | launch removal =>
      obtain ⟨-, rfl⟩ : s.phase = .launching ∧ launch setup removal s = next := by
        simpa [step] using h
      rcases launch_cases setup removal s with ⟨-, hnext⟩ | ⟨-, -, hnext⟩ |
        ⟨os, token, hos, htoken, hnext⟩
      · exact .inl (by rw [hnext])
      · exact .inl (by rw [hnext])
      · exact .inr (.inl ⟨os, token, removal, hos, htoken, by rw [hnext]⟩)
  | probe alive =>
      left
      simp only [step] at h
      grind
  | compare =>
      left
      simp only [step] at h
      grind
  | wait =>
      left
      simp only [step] at h
      grind
  | complain j =>
      obtain ⟨job, changed, hjob, hrunning, hchanged, rfl⟩ := updateJob_eq_some h
      exact .inr (.inr ⟨j, job, changed, hjob, hrunning, rfl, .inl hchanged⟩)
  | output j line =>
      obtain ⟨job, changed, hjob, hrunning, hchanged, rfl⟩ := updateJob_eq_some h
      exact .inr (.inr ⟨j, job, changed, hjob, hrunning, rfl, .inr (.inl ⟨line, hchanged⟩)⟩)
  | finish j seconds status =>
      obtain ⟨job, changed, hjob, hrunning, hchanged, rfl⟩ := updateJob_eq_some h
      exact .inr (.inr
        ⟨j, job, changed, hjob, hrunning, rfl, .inr (.inr ⟨seconds, status, hchanged⟩)⟩)

def AllJobs (P : Nat → Job → Prop) (jobs : List Job) : Prop :=
  ∀ i job, jobs[i]? = some job → P i job

section EveryJob

variable {P : Nat → Job → Prop}

theorem AllJobs.append_new {jobs : List Job} (h : AllJobs P jobs) {job : Job}
    (hjob : P jobs.length job) : AllJobs P (jobs ++ [job]) := by
  intro i found hfound
  rcases Nat.lt_trichotomy i jobs.length with hi | rfl | hi
  · apply h i found
    rwa [List.getElem?_append_left hi] at hfound
  · obtain rfl : job = found := by simpa using hfound
    exact hjob
  · rw [List.getElem?_eq_none (by simp; omega)] at hfound
    cases hfound

theorem AllJobs.set {jobs : List Job} (h : AllJobs P jobs) {j : Nat} {job : Job} (hjob : P j job) :
    AllJobs P (jobs.set j job) := by
  intro i found hfound
  rw [List.getElem?_set] at hfound
  split at hfound
  case isTrue hij =>
    subst hij
    obtain ⟨-, rfl⟩ : j < jobs.length ∧ job = found := by simpa using hfound
    exact hjob
  case isFalse => exact h i found hfound

/-- Rule for what holds of every job with its index: a new one has it, and the
changes of a running one keep it. -/
theorem allJobs_of_run
    (hnew : ∀ i os token removal, setup.testOses[i]? = some os →
      accountTokenFromIndex setup.tokens i = some token → P i (launched setup os token removal))
    (hcomplain : ∀ i job changed, job.running = true → P i job → complain job = some changed →
      P i changed)
    (hwrite : ∀ i job line changed, job.running = true → P i job →
      writeLine line job = some changed → P i changed)
    (hend : ∀ i job seconds status changed, job.running = true → P i job →
      endWith seconds status job = some changed → P i changed)
    {events : List Event} (hrun : Transition.run (step limit setup) start events = some s) :
    AllJobs P s.jobs := by
  have hstep : ∀ s event next, AllJobs P s.jobs → step limit setup s event = some next →
      AllJobs P next.jobs := by
    intro s event next hall hstep
    rcases step_jobs hstep with hjobs | ⟨os, token, removal, hos, htoken, hjobs⟩ |
      ⟨j, job, changed, hjob, hrunning, hjobs, hchange⟩
    · rwa [hjobs]
    · rw [hjobs]
      exact hall.append_new (hnew _ os token removal hos htoken)
    · rw [hjobs]
      apply hall.set
      have hold := hall j job hjob
      rcases hchange with hchanged | ⟨line, hchanged⟩ | ⟨seconds, status, hchanged⟩
      · exact hcomplain j job changed hrunning hold hchanged
      · exact hwrite j job line changed hrunning hold hchanged
      · exact hend j job seconds status changed hrunning hold hchanged
  have hstart : AllJobs P start.jobs := by simp [AllJobs, start]
  exact Transition.run_preserves hstep events hstart hrun

end EveryJob

theorem isJobOf_of_run {events : List Event}
    (hrun : Transition.run (step limit setup) start events = some s) :
    AllJobs (IsJobOf setup) s.jobs := by
  refine allJobs_of_run ?_ ?_ ?_ ?_ hrun
  · intro i os token removal hos htoken
    exact ⟨os, token, hos, htoken, rfl⟩
  · intro i job changed _ h hchanged
    obtain ⟨line, -, rfl⟩ := complain_eq_some hchanged
    exact h
  · intro i job line changed _ h hchanged
    obtain ⟨-, rfl⟩ := writeLine_eq_some hchanged
    exact h
  · intro i job seconds status changed _ h hchanged
    obtain ⟨-, rfl⟩ := endWith_eq_some hchanged
    exact h

structure Sound (limit : Nat) (setup : Setup) (s : State) : Prop where
  fits : s.jobs.length ≤ setup.testOses.length
  paid : s.jobs ≠ [] → setup.tokens ≠ []
  phase : PhaseHolds limit setup s.jobs s.phase

theorem sound_launch (removal : Option Text) (hphase : s.phase = .launching)
    (h : Sound limit setup s) : Sound limit setup (launch setup removal s) := by
  have hless : runningJobs s.jobs < limit := by
    have hholds := h.phase
    rwa [hphase] at hholds
  rcases launch_cases setup removal s with ⟨hlength, hnext⟩ | ⟨hlength, htokens, hnext⟩ |
    ⟨os, token, hos, htoken, hnext⟩
  · rw [hnext]
    refine ⟨h.fits, h.paid, Nat.le_of_lt hless, Nat.le_antisymm h.fits hlength, ?_⟩
    exact ⟨rfl, rfl⟩
  · have hjobs : s.jobs = [] := by
      by_contra hne
      exact h.paid hne htokens
    have hoses : setup.testOses ≠ [] := List.ne_nil_of_length_pos (Nat.zero_lt_of_lt hlength)
    rw [hnext]
    refine ⟨h.fits, h.paid, ?_, .inl ⟨htokens, hoses, rfl, hjobs⟩⟩
    rw [hjobs]
    rfl
  · obtain ⟨hlength, -⟩ := List.getElem?_eq_some_iff.mp hos
    obtain ⟨hindex, -⟩ := List.getElem?_eq_some_iff.mp htoken
    have htokens : setup.tokens ≠ [] := List.ne_nil_of_length_pos (Nat.zero_lt_of_lt hindex)
    rw [hnext]
    refine ⟨?_, fun _ => htokens, ?_, ?_⟩
    · rw [List.length_append, List.length_singleton]
      exact hlength
    · rw [runningJobs, List.countP_append]
      exact hless
    · rw [List.take_zero]
      exact Nat.zero_le 0

theorem runningJobs_take_succ {jobs : List Job} {j : Nat} {job : Job} (hjob : jobs[j]? = some job) :
    runningJobs (jobs.take (j + 1)) = runningJobs (jobs.take j) + if job.running then 1 else 0 := by
  rw [List.take_add_one, hjob, runningJobs, List.countP_append, runningJobs]
  simp [List.countP_singleton]

theorem failedJobs_take_succ {jobs : List Job} {j : Nat} {job : Job} (hjob : jobs[j]? = some job) :
    failedJobs (jobs.take (j + 1)) = failedJobs (jobs.take j) + if job.failed then 1 else 0 := by
  rw [List.take_add_one, hjob, failedJobs, List.countP_append, failedJobs]
  simp [List.countP_singleton]

theorem sound_update {j : Nat} {change : Job → Option Job} (h : Sound limit setup s)
    (hupdate : updateJob s j change = some next) : Sound limit setup next := by
  obtain ⟨job, changed, hjob, hrunning, -, rfl⟩ := updateJob_eq_some hupdate
  refine ⟨?_, ?_, phaseHolds_set hjob hrunning _ h.phase⟩
  · rw [List.length_set]
    exact h.fits
  · intro _
    exact h.paid (List.ne_nil_of_mem (List.mem_of_getElem? hjob))

theorem sound_step {event : Event} (h : Sound limit setup s)
    (hstep : step limit setup s event = some next) : Sound limit setup next := by
  cases event with
  | launch removal =>
      obtain ⟨hphase, rfl⟩ : s.phase = .launching ∧ launch setup removal s = next := by
        simpa [step] using hstep
      exact sound_launch removal hphase h
  | probe alive =>
      obtain ⟨jobs, phase⟩ := s
      cases phase with
      | counting j count =>
          cases hjob : jobs[j]? with
          | none => simp [step, hjob] at hstep
          | some job =>
              obtain ⟨halive, rfl⟩ : (job.running = true → alive = true) ∧
                  (⟨jobs, .counting (j + 1) (if alive then count + 1 else count)⟩ : State) = next := by
                simpa [step, hjob] using hstep
              obtain ⟨hlimit, hcount⟩ := h.phase
              refine ⟨h.fits, h.paid, hlimit, ?_⟩
              rw [runningJobs_take_succ hjob]
              grind
      | launching => simp [step] at hstep
      | waiting i failedBuilds => simp [step] at hstep
      | exited code => simp [step] at hstep
  | compare =>
      obtain ⟨jobs, phase⟩ := s
      cases phase with
      | counting j count =>
          obtain ⟨rfl, rfl⟩ : j = jobs.length ∧
              (⟨jobs, if count < limit then .launching else .counting 0 0⟩ : State) = next := by
            simpa [step] using hstep
          obtain ⟨hlimit, hcount⟩ := h.phase
          rw [List.take_length] at hcount
          refine ⟨h.fits, h.paid, ?_⟩
          by_cases hless : count < limit
          · simp only [if_pos hless]
            exact Nat.lt_of_le_of_lt hcount hless
          · simp only [if_neg hless]
            exact ⟨hlimit, Nat.zero_le 0⟩
      | launching => simp [step] at hstep
      | waiting i failedBuilds => simp [step] at hstep
      | exited code => simp [step] at hstep
  | wait =>
      obtain ⟨jobs, phase⟩ := s
      cases phase with
      | waiting i failedBuilds =>
          obtain ⟨hlimit, hlength, hended, hfailed⟩ := h.phase
          cases hos : setup.testOses[i]? with
          | none =>
              obtain rfl : (⟨jobs, .exited (failedBuilds % 256)⟩ : State) = next := by
                simpa [step, hos] using hstep
              have hall : jobs.take i = jobs := by
                apply List.take_of_length_le
                have hi : setup.testOses.length ≤ i := List.getElem?_eq_none_iff.mp hos
                exact hlength.trans_le hi
              rw [hall] at hended hfailed
              exact ⟨h.fits, h.paid, hended, .inr ⟨hlength, by rw [hfailed]⟩⟩
          | some os =>
              cases hjob : jobs[i]? with
              | none => simp [step, hos, hjob] at hstep
              | some job =>
                  obtain ⟨hstopped, rfl⟩ : job.running = false ∧ (⟨jobs, .waiting (i + 1)
                      (if job.failed then failedBuilds + 1 else failedBuilds)⟩ : State) = next := by
                    simpa [step, hos, hjob] using hstep
                  refine ⟨h.fits, h.paid, hlimit, hlength, ?_, ?_⟩
                  · rw [runningJobs_take_succ hjob, hended, hstopped]
                    rfl
                  · rw [failedJobs_take_succ hjob, hfailed]
                    split <;> rfl
      | launching => simp [step] at hstep
      | counting j count => simp [step] at hstep
      | exited code => simp [step] at hstep
  | complain j => exact sound_update h hstep
  | output j line => exact sound_update h hstep
  | finish j seconds status => exact sound_update h hstep

theorem sound_of_run {events : List Event} (hlimit : 0 < limit)
    (hrun : Transition.run (step limit setup) start events = some s) : Sound limit setup s := by
  have hstart : Sound limit setup start := ⟨Nat.zero_le _, by simp [start], hlimit⟩
  exact Transition.run_preserves (fun _ _ _ => sound_step) events hstart hrun

theorem runningJobs_le (hphase : PhaseHolds limit setup s.jobs s.phase) :
    runningJobs s.jobs ≤ limit := by
  cases hs : s.phase with
  | launching =>
      rw [hs] at hphase
      exact Nat.le_of_lt hphase
  | counting j count =>
      rw [hs] at hphase
      exact hphase.1
  | waiting i failedBuilds =>
      rw [hs] at hphase
      exact hphase.1
  | exited code =>
      rw [hs] at hphase
      exact hphase.1.le.trans (Nat.zero_le limit)

theorem eq_of_running {jobs : List Job} (hone : runningJobs jobs ≤ 1) {i j : Nat}
    {first second : Job} (hfirst : jobs[i]? = some first) (hsecond : jobs[j]? = some second)
    (hrunning : first.running = true) (hboth : second.running = true) : i = j := by
  -- Two indices in order leave one running job before the second of them.
  have htwo : ∀ (i j : Nat) (first second : Job), jobs[i]? = some first → jobs[j]? = some second →
      first.running = true → second.running = true → ¬ i < j := by
    intro i j first second hfirst hsecond hrunning hboth hless
    have hlow := runningJobs_take_succ hfirst
    have hhigh := runningJobs_take_succ hsecond
    rw [if_pos hrunning] at hlow
    rw [if_pos hboth] at hhigh
    have htaken : jobs.take (i + 1) = (jobs.take j).take (i + 1) := by
      rw [List.take_take, Nat.min_eq_left hless]
    have hbefore : runningJobs (jobs.take (i + 1)) ≤ runningJobs (jobs.take j) := by
      rw [htaken]
      exact runningJobs_take_le _ _
    have hall := runningJobs_take_le jobs (j + 1)
    omega
  have hij := htwo i j first second hfirst hsecond hrunning hboth
  have hji := htwo j i second first hsecond hfirst hboth hrunning
  omega

/-- Jobs are launched for the entries of `TEST_OSES` in order, each with its token,
and no more of them run at a time than the limit. With the limit of the script
two managers never use an account at the same time. -/
theorem running_jobs_limited {events : List Event} (hlimit : 0 < limit)
    (hrun : Transition.run (step limit setup) start events = some s) :
    runningJobs s.jobs ≤ limit ∧
      AllJobs (IsJobOf setup) s.jobs ∧
      (limit = maxConcurrentJobs → ∀ (i j : Nat) (first second : Job),
        s.jobs[i]? = some first → s.jobs[j]? = some second →
        first.running = true → second.running = true → i = j) := by
  have hle : runningJobs s.jobs ≤ limit := runningJobs_le (sound_of_run hlimit hrun).phase
  refine ⟨hle, isJobOf_of_run hrun, ?_⟩
  intro hmax i j first second hfirst hsecond hrunning hboth
  have hone : runningJobs s.jobs ≤ 1 := hle.trans_eq hmax
  exact eq_of_running hone hfirst hsecond hrunning hboth

def debianAndWindows : Setup where
  oldAppVersion := "2023.3".toList
  newAppVersion := "2023.4".toList
  testOses := ["debian12".toList, "windows11".toList]
  tokens := ["1234123412341234".toList]
  scriptDir := "/ci".toList

/-- Both jobs use the only token; the first one ends before the second is launched. -/
def bothLaunched : List Event :=
  [.launch none, .probe true, .compare, .finish 0 10 1, .probe false, .compare, .launch none]

theorem bothLaunched_running :
    ∃ s, Transition.run (step maxConcurrentJobs debianAndWindows) start bothLaunched = some s ∧
      s.jobs.length = 2 ∧ runningJobs s.jobs ≤ 1 := by
  have hrun : Transition.run (step maxConcurrentJobs debianAndWindows) start bothLaunched =
      some _ := rfl
  exact ⟨_, hrun, rfl, (running_jobs_limited Nat.one_pos hrun).1⟩

end MullvadAppTests.Ci.TestJobs
