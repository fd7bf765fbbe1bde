import MullvadAppTests.Lib.OpenFile
import MullvadAppTests.Lib.Transition
import MullvadAppTests.TestRpc.Codec

/-!
`set_daemon_log_level` and `set_daemon_environment` of `test-runner/src/sys.rs`
on Linux: each renders a systemd drop-in file, writes it and restarts the
daemon. What the file system and `systemctl` answer is an input, so that every
error path is there. The files are opened without `truncate`.
-/

namespace MullvadAppTests.TestRunner.Sys

open Lib Lib.LengthDelimited Lib.Transition

def utf8 (s : String) : Bytes := s.toUTF8.data.toList

@[simp] theorem utf8_append (s t : String) : utf8 (s ++ t) = utf8 s ++ utf8 t := by
  simp [utf8]

/-- The only constructor of `test_rpc::Error` that these functions return. -/
inductive Error where
  | service (message : String)
  deriving DecidableEq, Repr

inductive Verbosity where
  | info
  | debug
  | trace
  deriving DecidableEq, Repr

inductive ServiceState where
  | running
  | inactive
  deriving DecidableEq, Repr

/-- The entries of a `HashMap<String, String>` in the order in which the map
yields them. -/
structure Environment where
  entries : List (String × String)
  nodup : (entries.map Prod.fst).Nodup
  deriving DecidableEq, Repr

/-- What the operating system answers to the calls of one request. A failed
write may have written some bytes before; `status` is the output of
`systemctl status mullvad-daemon` in each attempt. -/
structure SystemCalls where
  createDirAll : Except String Unit
  openFile : Except String Unit
  writeAll : Except (Nat × String) Unit
  daemonReload : Except String Unit
  restart : Except String Unit
  status : Nat → Except String String

def retryAttempts : Nat := 10

def ServiceState.marker : ServiceState → String
  | .running => "active (running)"
  | .inactive => "inactive (dead)"

/-- The loop of `wait_for_service_state` with `remaining` attempts left. -/
def awaitServiceState (awaited : ServiceState) (status : Nat → Except String String) :
    (remaining attempt : Nat) → Except Error Unit
  | 0, _ => .error (.service "Awaiting new service state timed out")
  | remaining + 1, attempt =>
      match status attempt with
      | .error e => .error (.service e)
      | .ok output =>
          if awaited.marker.toList <:+: output.toList then .ok ()
          else awaitServiceState awaited status remaining (attempt + 1)

def waitForServiceState (awaited : ServiceState) (status : Nat → Except String String) :
    Except Error Unit :=
  awaitServiceState awaited status retryAttempts 1

/-- The part that both functions have in common: write `content` to the drop-in
file, reload systemd and restart the daemon. -/
def writeServiceFile (calls : SystemCalls) (content : String) (file : Option Bytes) :
    Except Error Unit × Option Bytes :=
  match calls.createDirAll with
  | .error e => (.error (.service e), file)
  | .ok _ =>
    match calls.openFile with
    | .error e => (.error (.service e), file)
    | .ok _ =>
      let opened := OpenFile.openWith false file
      match calls.writeAll with
      | .error (n, e) =>
          (.error (.service e), some (opened.writeAll ((utf8 content).take n)).content)
      | .ok _ =>
        let written := some (opened.writeAll (utf8 content)).content
        match calls.daemonReload with
        | .error e => (.error (.service e), written)
        | .ok _ =>
          match calls.restart with
          | .error e => (.error (.service e), written)
          | .ok _ => (waitForServiceState .running calls.status, written)

/-- `override.conf` and `env.conf`, which may not exist. -/
structure ConfigFiles where
  override : Option Bytes
  env : Option Bytes
  deriving DecidableEq, Repr

def Verbosity.flag : Verbosity → String
  | .info => ""
  | .debug => "-v"
  | .trace => "-vv"

def systemdServiceFileContent (verbosityLevel : Verbosity) : String :=
  "[Service]\nExecStart=\nExecStart=/usr/bin/mullvad-daemon --disable-stdout-timestamps " ++
    verbosityLevel.flag

def setDaemonLogLevel (calls : SystemCalls) (verbosityLevel : Verbosity) (files : ConfigFiles) :
    Except Error Unit × ConfigFiles :=
  let (result, file) :=
    writeServiceFile calls (systemdServiceFileContent verbosityLevel) files.override
  (result, {files with override := file})

def environmentLine (entry : String × String) : String :=
  "Environment=\"" ++ entry.1 ++ "=" ++ entry.2 ++ "\"\n"

def overrideContent (env : Environment) : String :=
  env.entries.foldl (fun content entry => content ++ environmentLine entry) "[Service]\n"

def setDaemonEnvironment (calls : SystemCalls) (env : Environment) (files : ConfigFiles) :
    Except Error Unit × ConfigFiles :=
  let (result, file) := writeServiceFile calls (overrideContent env) files.env
  (result, {files with env := file})

inductive Request where
  | logLevel (verbosityLevel : Verbosity)
  | environment (env : Environment)
  deriving DecidableEq, Repr

def handle (calls : SystemCalls) (files : ConfigFiles) : Request →
    Except Error Unit × ConfigFiles
  | .logLevel verbosityLevel => setDaemonLogLevel calls verbosityLevel files
  | .environment env => setDaemonEnvironment calls env files

/-- One successful request; a failed one is no step. -/
def succeed (files : ConfigFiles) (call : SystemCalls × Request) : Option ConfigFiles :=
  match handle call.1 files call.2 with
  | (.ok _, next) => some next
  | (.error _, _) => none

/-! ### What a sequence of requests leaves in the files -/

def verbosities (calls : List (SystemCalls × Request)) : List Verbosity :=
  calls.filterMap fun call =>
    match call.2 with
    | .logLevel verbosityLevel => some verbosityLevel
    | .environment _ => none

def environments (calls : List (SystemCalls × Request)) : List Environment :=
  calls.filterMap fun call =>
    match call.2 with
    | .logLevel _ => none
    | .environment env => some env

/-- The `[Service]` header and one line for each entry. -/
def environmentFile (env : Environment) : Bytes :=
  utf8 "[Service]\n" ++ (env.entries.map fun entry => utf8 (environmentLine entry)).flatten

/-- Each file holds what the last request for it asks for, and nothing else. -/
def HoldsLast (calls : List (SystemCalls × Request)) (files : ConfigFiles) : Prop :=
  (∀ last, (verbosities calls).getLast? = some last →
      files.override = some (utf8 (systemdServiceFileContent last))) ∧
    ∀ last, (environments calls).getLast? = some last → files.env = some (environmentFile last)

/-- What a file holds before the calls and what the earlier calls put into it is
no longer than the last text. -/
def NothingLonger (calls : List (SystemCalls × Request)) (files : ConfigFiles) : Prop :=
  (∀ last, (verbosities calls).getLast? = some last →
      (files.override.getD []).length ≤ (utf8 (systemdServiceFileContent last)).length ∧
        ∀ earlier ∈ (verbosities calls).dropLast,
          earlier.flag.length ≤ last.flag.length) ∧
    ∀ last, (environments calls).getLast? = some last →
      (files.env.getD []).length ≤ (environmentFile last).length ∧
        ∀ earlier ∈ (environments calls).dropLast,
          (environmentFile earlier).length ≤ (environmentFile last).length

theorem utf8_overrideContent (env : Environment) :
    utf8 (overrideContent env) = environmentFile env := by
  have hfold : ∀ (entries : List (String × String)) (start : String),
      utf8 (entries.foldl (fun content entry => content ++ environmentLine entry) start) =
        utf8 start ++ (entries.map fun entry => utf8 (environmentLine entry)).flatten := by
    intro entries
    induction entries with
    | nil => simp
    | cons entry rest ih =>
        intro start
        rw [List.foldl_cons, ih, utf8_append, List.append_assoc, List.map_cons, List.flatten_cons]
  exact hfold env.entries "[Service]\n"

theorem length_systemdServiceFileContent_le_iff (v w : Verbosity) :
    (utf8 (systemdServiceFileContent v)).length ≤ (utf8 (systemdServiceFileContent w)).length ↔
      v.flag.length ≤ w.flag.length := by
  have hflag : ∀ u : Verbosity, (utf8 u.flag).length = u.flag.length := by
    intro u
    cases u <;> decide
  have hbase : ∀ base : Bytes, (base ++ utf8 v.flag).length ≤ (base ++ utf8 w.flag).length ↔
      v.flag.length ≤ w.flag.length := by
    intro base
    rw [List.length_append, List.length_append, hflag, hflag, Nat.add_le_add_iff_left]
  unfold systemdServiceFileContent
  rw [utf8_append, utf8_append]
  exact hbase _

theorem writeServiceFile_ok {calls : SystemCalls} {content : String} {file next : Option Bytes}
    {u : Unit} (h : writeServiceFile calls content file = (.ok u, next)) :
    next = OpenFile.rewrite file (utf8 content) := by
  unfold writeServiceFile at h
  repeat' split at h
  all_goals simp only [Prod.mk.injEq, reduceCtorEq, false_and] at h
  exact h.2.symm

/-- A successful request writes the file it is about and leaves the other one as
it is. -/
theorem succeed_cases {files next : ConfigFiles} {calls : SystemCalls} {request : Request}
    (h : succeed files (calls, request) = some next) :
    (∃ v, request = .logLevel v ∧
        next = {files with
          override := OpenFile.rewrite files.override (utf8 (systemdServiceFileContent v))}) ∨
      ∃ env, request = .environment env ∧
        next = {files with env := OpenFile.rewrite files.env (environmentFile env)} := by
  cases request with
  | logLevel v =>
      cases hwrite : writeServiceFile calls (systemdServiceFileContent v) files.override with
      | mk result file =>
          simp only [succeed, handle, setDaemonLogLevel, hwrite] at h
          cases result with
          | error e => cases h
          | ok u =>
              cases h
              exact .inl ⟨v, rfl, by rw [writeServiceFile_ok hwrite]⟩
  | environment env =>
      cases hwrite : writeServiceFile calls (overrideContent env) files.env with
      | mk result file =>
          simp only [succeed, handle, setDaemonEnvironment, hwrite] at h
          cases result with
          | error e => cases h
          | ok u =>
              cases h
              exact .inr ⟨env, rfl, by rw [writeServiceFile_ok hwrite, utf8_overrideContent]⟩

/-- After a run each file has been rewritten with the texts of its own requests,
in order. -/
theorem run_rewrites (calls : List (SystemCalls × Request)) {files last : ConfigFiles}
    (h : run succeed files calls = some last) :
    last.override = ((verbosities calls).map fun v =>
        utf8 (systemdServiceFileContent v)).foldl OpenFile.rewrite files.override ∧
      last.env = ((environments calls).map environmentFile).foldl OpenFile.rewrite files.env := by
  induction calls generalizing files with
  | nil =>
      cases h
      exact ⟨rfl, rfl⟩
  | cons call rest ih =>
      obtain ⟨next, hstep, htail⟩ := Option.bind_eq_some_iff.mp h
      obtain ⟨systemCalls, request⟩ := call
      obtain ⟨v, rfl, rfl⟩ | ⟨env, rfl, rfl⟩ := succeed_cases hstep
      · exact ih htail
      · exact ih htail

/-- The last of a nonempty list of texts is what a file holds in the end exactly
when nothing before it was longer. -/
theorem rewrites_getLast_iff {γ : Type} (render : γ → Bytes) (items : List γ) (last : γ)
    (file : Option Bytes) (hlast : items.getLast? = some last) :
    (items.map render).foldl OpenFile.rewrite file = some (render last) ↔
      (file.getD []).length ≤ (render last).length ∧
        ∀ earlier ∈ items.dropLast, (render earlier).length ≤ (render last).length := by
  obtain ⟨init, rfl⟩ := List.getLast?_eq_some_iff.mp hlast
  rw [List.map_append, List.map_singleton, OpenFile.rewrites_eq_last_iff]
  simp

/-- After every sequence of successful requests the files hold exactly the last
settings if and only if they never held anything longer. -/
theorem config_files_hold_last_iff (calls : List (SystemCalls × Request))
    (files last : ConfigFiles) (hrun : run succeed files calls = some last) :
    HoldsLast calls last ↔ NothingLonger calls files := by
  obtain ⟨hoverride, henv⟩ := run_rewrites calls hrun
  apply and_congr
  · apply forall_congr'
    intro v
    apply imp_congr_right
    intro hv
    rw [hoverride, rewrites_getLast_iff _ _ v _ hv]
    simp only [length_systemdServiceFileContent_le_iff]
  · apply forall_congr'
    intro env
    apply imp_congr_right
    intro hlast
    rw [henv, rewrites_getLast_iff _ _ env _ hlast]

/-- Every call succeeds and the daemon runs at the first look. -/
def SystemCalls.working : SystemCalls :=
  ⟨.ok (), .ok (), .ok (), .ok (), .ok (), fun _ => .ok "Active: active (running)"⟩

/-- Raising the level and adding a variable. -/
def growing : List (SystemCalls × Request) :=
  [(.working, .logLevel .info), (.working, .environment ⟨[], by decide⟩),
    (.working, .logLevel .trace), (.working, .environment ⟨[("A", "1")], by decide⟩)]

theorem growing_holds_last :
    ∃ last, run succeed ⟨none, none⟩ growing = some last ∧ HoldsLast growing last := by
  have hsome : (run succeed ⟨none, none⟩ growing).isSome = true := by decide
  obtain ⟨last, hrun⟩ := Option.isSome_iff_exists.mp hsome
  refine ⟨last, hrun, (config_files_hold_last_iff growing _ last hrun).mpr ⟨?_, ?_⟩⟩
  · intro v hv
    obtain rfl : Verbosity.trace = v := Option.some.inj hv
    exact ⟨Nat.zero_le _, by decide⟩
  · intro env henv
    obtain rfl := Option.some.inj henv
    exact ⟨Nat.zero_le _, by decide⟩

/-- The level is lowered from `Trace` to `Info`. -/
def lowered : List (SystemCalls × Request) :=
  [(.working, .logLevel .trace), (.working, .logLevel .info)]

/-- `override.conf` still asks for `-vv`. -/
theorem lowered_keeps_flag :
    ∃ last, run succeed ⟨none, none⟩ lowered = some last ∧
      last.override = some (utf8 (systemdServiceFileContent .trace)) ∧
      ¬ HoldsLast lowered last := by
  have hfile : (run succeed ⟨none, none⟩ lowered).map ConfigFiles.override =
      some (some (utf8 (systemdServiceFileContent .trace))) := by decide +kernel
  obtain ⟨last, hrun, hlast⟩ := Option.map_eq_some_iff.mp hfile
  refine ⟨last, hrun, hlast, ?_⟩
  intro hholds
  have hinfo := hholds.1 .info rfl
  rw [hlast] at hinfo
  exact absurd (Option.some.inj hinfo) (by decide)

end MullvadAppTests.TestRunner.Sys
