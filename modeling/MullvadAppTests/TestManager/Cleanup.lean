import MullvadAppTests.Lib.Result
import MullvadAppTests.Lib.Transition
import MullvadAppTests.TestManager.RunTests

/-!
`init_default_settings` and `cleanup_after_test` of `test-manager/src/tests/mod.rs`,
with `reset_relay_settings` of `test-manager/src/tests/helpers.rs`, and the settings
of the daemon over a whole run of tests. A test may do anything to the daemon. The
daemon itself is a parameter: a request that it has accepted is in its settings, and
one that has failed may be, too.
-/

namespace MullvadAppTests.TestManager.Cleanup

open Lib Lib.Transition

/-! ### Settings -/

inductive BridgeState where
  | auto
  | on
  | off
  deriving DecidableEq, Repr

inductive SelectedObfuscation where
  | auto
  | off
  | udp2tcp
  deriving DecidableEq, Repr

structure ObfuscationSettings where
  selectedObfuscation : SelectedObfuscation
  udp2tcpPort : Option Nat
  deriving DecidableEq, Repr

inductive Constraint (α : Type) where
  | any
  | only (value : α)
  deriving DecidableEq, Repr

inductive TunnelType where
  | openVpn
  | wireguard
  deriving DecidableEq, Repr

/-- `GeographicLocationConstraint`. -/
inductive Location where
  | country (country : Text)
  | city (country city : Text)
  | hostname (country city hostname : Text)
  deriving DecidableEq, Repr

/-- `M` is the type of the messages that are only passed on. -/
structure RelayConstraints (M : Type) where
  location : Constraint Location
  providers : M
  ownership : M
  tunnelProtocol : Constraint TunnelType
  openvpnConstraints : M
  wireguardConstraints : M
  deriving DecidableEq, Repr

structure RelayConstraintsUpdate (M : Type) where
  location : Option (Constraint Location)
  providers : Option M
  ownership : Option M
  tunnelProtocol : Option (Constraint TunnelType)
  openvpnConstraints : Option M
  wireguardConstraints : Option M
  deriving DecidableEq, Repr

inductive RelaySettings (M : Type) where
  | customTunnelEndpoint (endpoint : M)
  | normal (constraints : RelayConstraints M)
  deriving DecidableEq, Repr

/-- The settings that the daemon keeps; `rest` are those that no request of the
cleanup is about. -/
structure Settings (M : Type) where
  autoConnect : Bool
  allowLan : Bool
  showBetaReleases : Bool
  bridgeState : BridgeState
  bridgeSettings : M
  obfuscationSettings : ObfuscationSettings
  blockWhenDisconnected : Bool
  splitTunnelApps : List M
  splitTunnelProcesses : List M
  dnsOptions : M
  quantumResistant : M
  relaySettings : RelaySettings M
  rest : M
  deriving DecidableEq, Repr

/-- `types::Settings`, of which only these fields are read. -/
structure SettingsMessage (M : Type) where
  autoConnect : Bool
  allowLan : Bool
  showBetaReleases : Bool
  bridgeState : Option BridgeState
  bridgeSettings : Option M
  obfuscationSettings : Option ObfuscationSettings
  blockWhenDisconnected : Bool
  /-- `dns_options` and `wireguard.quantum_resistant` of the tunnel options. -/
  tunnelOptions : Option (Option M × Option (Option M))

def Settings.message {M : Type} (settings : Settings M) : SettingsMessage M where
  autoConnect := settings.autoConnect
  allowLan := settings.allowLan
  showBetaReleases := settings.showBetaReleases
  bridgeState := some settings.bridgeState
  bridgeSettings := some settings.bridgeSettings
  obfuscationSettings := some settings.obfuscationSettings
  blockWhenDisconnected := settings.blockWhenDisconnected
  tunnelOptions := some (some settings.dnsOptions, some (some settings.quantumResistant))

/-! ### The daemon -/

inductive Request (M : Type) where
  | setAutoConnect (value : Bool)
  | setAllowLan (value : Bool)
  | setShowBetaReleases (value : Bool)
  | setBridgeState (value : BridgeState)
  | setBridgeSettings (value : M)
  | setObfuscationSettings (value : ObfuscationSettings)
  | setBlockWhenDisconnected (value : Bool)
  | clearSplitTunnelApps
  | clearSplitTunnelProcesses
  | setDnsOptions (value : M)
  | setQuantumResistantTunnel (value : M)
  | updateRelaySettings (update : RelayConstraintsUpdate M)
  deriving DecidableEq, Repr

/-- The default values of the messages that the manager and the daemon use. -/
structure Defaults (M : Type) where
  openVpnConstraints : M
  wireguardConstraints : M
  relayConstraints : RelayConstraints M

section

variable {M σ : Type} (defaults : Defaults M)

/-- The fields that the update gives are replaced. -/
def RelayConstraints.merge (constraints : RelayConstraints M) (update : RelayConstraintsUpdate M) :
    RelayConstraints M where
  location := update.location.getD constraints.location
  providers := update.providers.getD constraints.providers
  ownership := update.ownership.getD constraints.ownership
  tunnelProtocol := update.tunnelProtocol.getD constraints.tunnelProtocol
  openvpnConstraints := update.openvpnConstraints.getD constraints.openvpnConstraints
  wireguardConstraints := update.wireguardConstraints.getD constraints.wireguardConstraints

def RelaySettings.merge (settings : RelaySettings M) (update : RelayConstraintsUpdate M) :
    RelaySettings M :=
  match settings with
  | .customTunnelEndpoint _ => .normal (defaults.relayConstraints.merge update)
  | .normal constraints => .normal (constraints.merge update)

/-- The settings once a request has been carried out. -/
def Settings.apply (settings : Settings M) : Request M → Settings M
  | .setAutoConnect autoConnect => {settings with autoConnect}
  | .setAllowLan allowLan => {settings with allowLan}
  | .setShowBetaReleases showBetaReleases => {settings with showBetaReleases}
  | .setBridgeState bridgeState => {settings with bridgeState}
  | .setBridgeSettings bridgeSettings => {settings with bridgeSettings}
  | .setObfuscationSettings obfuscationSettings => {settings with obfuscationSettings}
  | .setBlockWhenDisconnected blockWhenDisconnected => {settings with blockWhenDisconnected}
  | .clearSplitTunnelApps => {settings with splitTunnelApps := []}
  | .clearSplitTunnelProcesses => {settings with splitTunnelProcesses := []}
  | .setDnsOptions dnsOptions => {settings with dnsOptions}
  | .setQuantumResistantTunnel quantumResistant => {settings with quantumResistant}
  | .updateRelaySettings update =>
      {settings with relaySettings := settings.relaySettings.merge defaults update}

/-- A daemon with the calls of its management interface that the cleanup makes. -/
structure Daemon (σ : Type) where
  settings : σ → Settings M
  call : Request M → σ → Except Text Unit × σ
  getSettings : σ → Except Text (SettingsMessage M) × σ
  disconnectAndWait : σ → Except Text Unit × σ
  call_ok : ∀ request s next, call request s = (.ok (), next) →
    settings next = (settings s).apply defaults request
  call_error : ∀ request s e next, call request s = (.error e, next) →
    settings next = settings s ∨ settings next = (settings s).apply defaults request
  getSettings_ok : ∀ s message next, getSettings s = (.ok message, next) →
    message = (settings s).message ∧ settings next = settings s
  disconnect_same : ∀ s, settings (disconnectAndWait s).2 = settings s

/-! ### Cleanup -/

inductive CleanupError where
  | panicked (message : Text)
  | daemonError (message : Text)
  | context (text source : Text)
  deriving DecidableEq, Repr

/-- A sequence of calls that ends at the first one that fails. What it has done until
then is done. -/
abbrev CleanupM (σ : Type) := ExceptT CleanupError (StateM σ)

def unwrap {α : Type} (value : Option α) : CleanupM σ α :=
  match value with
  | none => throw (.panicked "called `Option::unwrap()` on a `None` value".toList)
  | some value => pure value

variable {defaults} (daemon : Daemon defaults σ)

/-- A request whose error gets a text in front. -/
def Daemon.requestOr (failed : Text → CleanupError) (request : Request M) : CleanupM σ Unit :=
  ExceptT.mk fun s =>
    match daemon.call request s with
    | (.ok _, s) => (.ok (), s)
    | (.error e, s) => (.error (failed e), s)

def Daemon.disconnect : CleanupM σ Unit :=
  ExceptT.mk fun s =>
    match daemon.disconnectAndWait s with
    | (.ok _, s) => (.ok (), s)
    | (.error e, s) => (.error (.daemonError e), s)

/-- The update of `reset_relay_settings`. -/
def relayUpdate (defaults : Defaults M) : RelayConstraintsUpdate M where
  location := some (.only (.country "se".toList))
  providers := none
  ownership := none
  tunnelProtocol := some .any
  openvpnConstraints := some defaults.openVpnConstraints
  wireguardConstraints := some defaults.wireguardConstraints

def resetRelaySettings : CleanupM σ Unit := do
  daemon.disconnect
  -- the error of `update_relay_settings`, displayed, goes into the one of the caller
  daemon.requestOr
    (fun e => .daemonError (("Failed to reset relay settings: The daemon returned an error: " ++
      "Failed to set relay settings: ").toList ++ e))
    (.updateRelaySettings (relayUpdate defaults))
  daemon.requestOr (fun e => .daemonError ("Failed to reset bridge mode: ".toList ++ e))
    (.setBridgeState .auto)
  daemon.requestOr (fun e => .daemonError ("Failed to reset obfuscation: ".toList ++ e))
    (.setObfuscationSettings ⟨.off, some 0⟩)

def cleanupAfterTest (defaultSettings : Option (SettingsMessage M)) : CleanupM σ Unit := do
  let context (text : String) := daemon.requestOr (CleanupError.context text.toList)
  match defaultSettings with
  | none => throw (.panicked "default settings were not initialized".toList)
  | some defaultSettings =>
      resetRelaySettings daemon
      context "Could not set auto connect in cleanup"
        (.setAutoConnect defaultSettings.autoConnect)
      context "Could not set allow lan in cleanup" (.setAllowLan defaultSettings.allowLan)
      context "Could not set show beta releases in cleanup"
        (.setShowBetaReleases defaultSettings.showBetaReleases)
      let bridgeState ← unwrap defaultSettings.bridgeState
      context "Could not set bridge state in cleanup" (.setBridgeState bridgeState)
      let bridgeSettings ← unwrap defaultSettings.bridgeSettings
      context "Could not set bridge settings in cleanup" (.setBridgeSettings bridgeSettings)
      let obfuscationSettings ← unwrap defaultSettings.obfuscationSettings
      context "Could set obfuscation settings in cleanup"
        (.setObfuscationSettings obfuscationSettings)
      context "Could not set block when disconnected setting in cleanup"
        (.setBlockWhenDisconnected defaultSettings.blockWhenDisconnected)
      context "Could not clear split tunnel apps in cleanup" .clearSplitTunnelApps
      context "Could not clear split tunnel processes in cleanup" .clearSplitTunnelProcesses
      let dnsOptions ← unwrap (← unwrap defaultSettings.tunnelOptions).1
      context "Could not clear dns options in cleanup" (.setDnsOptions dnsOptions)
      let quantumResistant ← unwrap (← unwrap (← unwrap defaultSettings.tunnelOptions).2)
      context "Could not clear PQ options in cleanup"
        (.setQuantumResistantTunnel quantumResistant)

/-! ### The calls of a cleanup -/

/-- The settings once the requests have been carried out, one after the other. -/
def Settings.applyAll (defaults : Defaults M) (settings : Settings M)
    (requests : List (Request M)) : Settings M :=
  requests.foldl (Settings.apply defaults) settings

/-- A call that a cleanup makes, with what becomes of the daemon's error. -/
inductive CleanupCall (M : Type) where
  | disconnect
  | request (failed : Text → CleanupError) (request : Request M)

def CleanupCall.sent : CleanupCall M → List (Request M)
  | .disconnect => []
  | .request _ sent => [sent]

def Daemon.make : CleanupCall M → CleanupM σ Unit
  | .disconnect => daemon.disconnect
  | .request failed request => daemon.requestOr failed request

/-- The calls of a cleanup that puts back `saved`. -/
def cleanupCalls (defaults : Defaults M) (saved : Settings M) : List (CleanupCall M) :=
  [.disconnect,
    .request
      (fun e => .daemonError (("Failed to reset relay settings: The daemon returned an error: " ++
        "Failed to set relay settings: ").toList ++ e))
      (.updateRelaySettings (relayUpdate defaults)),
    .request (fun e => .daemonError ("Failed to reset bridge mode: ".toList ++ e))
      (.setBridgeState .auto),
    .request (fun e => .daemonError ("Failed to reset obfuscation: ".toList ++ e))
      (.setObfuscationSettings ⟨.off, some 0⟩),
    .request (.context "Could not set auto connect in cleanup".toList)
      (.setAutoConnect saved.autoConnect),
    .request (.context "Could not set allow lan in cleanup".toList) (.setAllowLan saved.allowLan),
    .request (.context "Could not set show beta releases in cleanup".toList)
      (.setShowBetaReleases saved.showBetaReleases),
    .request (.context "Could not set bridge state in cleanup".toList)
      (.setBridgeState saved.bridgeState),
    .request (.context "Could not set bridge settings in cleanup".toList)
      (.setBridgeSettings saved.bridgeSettings),
    .request (.context "Could set obfuscation settings in cleanup".toList)
      (.setObfuscationSettings saved.obfuscationSettings),
    .request (.context "Could not set block when disconnected setting in cleanup".toList)
      (.setBlockWhenDisconnected saved.blockWhenDisconnected),
    .request (.context "Could not clear split tunnel apps in cleanup".toList) .clearSplitTunnelApps,
    .request (.context "Could not clear split tunnel processes in cleanup".toList)
      .clearSplitTunnelProcesses,
    .request (.context "Could not clear dns options in cleanup".toList)
      (.setDnsOptions saved.dnsOptions),
    .request (.context "Could not clear PQ options in cleanup".toList)
      (.setQuantumResistantTunnel saved.quantumResistant)]

/-- The requests of a cleanup that puts back `saved`. -/
def cleanupRequests (defaults : Defaults M) (saved : Settings M) : List (Request M) :=
  (cleanupCalls defaults saved).flatMap CleanupCall.sent

/-- Default settings that the daemon has given are complete, so nothing is unwrapped in
vain. -/
theorem cleanupAfterTest_eq (saved : Settings M) :
    cleanupAfterTest daemon (some saved.message) =
      (cleanupCalls defaults saved).forM daemon.make := by
  simp only [cleanupAfterTest, resetRelaySettings, unwrap, Settings.message, pure_bind, bind_assoc,
    cleanupCalls, List.forM_eq_forM, List.forM_cons, List.forM_nil, Daemon.make, bind_pure_unit]

variable {daemon}

theorem make_settings (call : CleanupCall M) (s next : σ)
    (h : (daemon.make call).run s = (.ok (), next)) :
    daemon.settings next = (daemon.settings s).applyAll defaults call.sent := by
  cases call with
  | disconnect =>
      have hsame := daemon.disconnect_same s
      rcases hcall : daemon.disconnectAndWait s with ⟨e | _, after⟩
      all_goals
        simp only [Daemon.make, Daemon.disconnect, ExceptT.run_mk, hcall] at h
        cases h
      rw [hcall] at hsame
      exact hsame
  | request failed request =>
      rcases hcall : daemon.call request s with ⟨e | _, after⟩
      all_goals
        simp only [Daemon.make, Daemon.requestOr, ExceptT.run_mk, hcall] at h
        cases h
      exact daemon.call_ok request s next hcall

/-- A call that fails may have been carried out, too. -/
theorem make_error (call : CleanupCall M) (s next : σ) (e : CleanupError)
    (h : (daemon.make call).run s = (.error e, next)) :
    daemon.settings next = daemon.settings s ∨
      daemon.settings next = (daemon.settings s).applyAll defaults call.sent := by
  cases call with
  | disconnect =>
      have hsame := daemon.disconnect_same s
      rcases hcall : daemon.disconnectAndWait s with ⟨err | _, after⟩
      all_goals
        simp only [Daemon.make, Daemon.disconnect, ExceptT.run_mk, hcall] at h
        cases h
      rw [hcall] at hsame
      exact .inl hsame
  | request failed request =>
      rcases hcall : daemon.call request s with ⟨err | _, after⟩
      all_goals
        simp only [Daemon.make, Daemon.requestOr, ExceptT.run_mk, hcall] at h
        cases h
      exact daemon.call_error request s err next hcall

theorem applyAll_sent (calls : List (CleanupCall M)) (settings : Settings M) :
    calls.foldl (fun settings call => settings.applyAll defaults call.sent) settings =
      settings.applyAll defaults (calls.flatMap CleanupCall.sent) := by
  simp only [Settings.applyAll, List.foldl_flatMap]

theorem makeAll_settings {calls : List (CleanupCall M)} {s next : σ}
    (h : (calls.forM daemon.make).run s = (.ok (), next)) :
    daemon.settings next =
      (daemon.settings s).applyAll defaults (calls.flatMap CleanupCall.sent) := by
  have hfold : daemon.settings next = calls.foldl
      (fun settings call => settings.applyAll defaults call.sent) (daemon.settings s) :=
    forM_ok make_settings h
  rw [hfold, applyAll_sent]

/-- The parts of the settings; the last one is what no request is about. -/
inductive Setting where
  | autoConnect
  | allowLan
  | showBetaReleases
  | bridgeState
  | bridgeSettings
  | obfuscationSettings
  | blockWhenDisconnected
  | splitTunnelApps
  | splitTunnelProcesses
  | dnsOptions
  | quantumResistant
  | relaySettings
  | rest
  deriving DecidableEq, Repr

def Request.setting : Request M → Setting
  | .setAutoConnect _ => .autoConnect
  | .setAllowLan _ => .allowLan
  | .setShowBetaReleases _ => .showBetaReleases
  | .setBridgeState _ => .bridgeState
  | .setBridgeSettings _ => .bridgeSettings
  | .setObfuscationSettings _ => .obfuscationSettings
  | .setBlockWhenDisconnected _ => .blockWhenDisconnected
  | .clearSplitTunnelApps => .splitTunnelApps
  | .clearSplitTunnelProcesses => .splitTunnelProcesses
  | .setDnsOptions _ => .dnsOptions
  | .setQuantumResistantTunnel _ => .quantumResistant
  | .updateRelaySettings _ => .relaySettings

def Setting.Same (first second : Settings M) : Setting → Prop
  | .autoConnect => first.autoConnect = second.autoConnect
  | .allowLan => first.allowLan = second.allowLan
  | .showBetaReleases => first.showBetaReleases = second.showBetaReleases
  | .bridgeState => first.bridgeState = second.bridgeState
  | .bridgeSettings => first.bridgeSettings = second.bridgeSettings
  | .obfuscationSettings => first.obfuscationSettings = second.obfuscationSettings
  | .blockWhenDisconnected => first.blockWhenDisconnected = second.blockWhenDisconnected
  | .splitTunnelApps => first.splitTunnelApps = second.splitTunnelApps
  | .splitTunnelProcesses => first.splitTunnelProcesses = second.splitTunnelProcesses
  | .dnsOptions => first.dnsOptions = second.dnsOptions
  | .quantumResistant => first.quantumResistant = second.quantumResistant
  | .relaySettings => first.relaySettings = second.relaySettings
  | .rest => first.rest = second.rest

theorem Setting.Same.refl (setting : Setting) (settings : Settings M) :
    setting.Same settings settings := by
  cases setting <;> rfl

theorem Setting.Same.trans {setting : Setting} {first second third : Settings M}
    (h : setting.Same first second) (h' : setting.Same second third) :
    setting.Same first third := by
  cases setting <;> exact Eq.trans h h'

/-- A request changes the setting that it is about, and no other one. -/
theorem apply_same {setting : Setting} (settings : Settings M) (request : Request M)
    (h : request.setting ≠ setting) : setting.Same (settings.apply defaults request) settings := by
  cases request <;> cases setting <;> first | exact absurd rfl h | rfl

theorem applyAll_same {setting : Setting} (settings : Settings M) (requests : List (Request M))
    (h : ∀ request ∈ requests, request.setting ≠ setting) :
    setting.Same (settings.applyAll defaults requests) settings := by
  induction requests generalizing settings with
  | nil => exact Setting.Same.refl setting settings
  | cons request rest ih =>
      rw [List.forall_mem_cons] at h
      exact (ih (settings.apply defaults request) h.2).trans (apply_same settings request h.1)

variable (daemon) in
/-- The cleanup that puts back `saved` has stopped at `call`, which has failed with `e`. -/
structure StoppedAt (saved : Settings M) (left : σ) (before : List (CleanupCall M)) (middle : σ)
    (call : CleanupCall M) (e : CleanupError) (after : σ) : Prop where
  calls : before ++ [call] <+: cleanupCalls defaults saved
  done : (before.forM daemon.make).run left = (.ok (), middle)
  failed : (daemon.make call).run middle = (.error e, after)

theorem StoppedAt.same {saved : Settings M} {left middle after : σ}
    {before : List (CleanupCall M)} {call : CleanupCall M} {e : CleanupError}
    (h : StoppedAt daemon saved left before middle call e after) {setting : Setting}
    (hsetting : ∀ request ∈ (before ++ [call]).flatMap CleanupCall.sent,
      request.setting ≠ setting) :
    setting.Same (daemon.settings after) (daemon.settings left) := by
  simp only [List.flatMap_append, List.mem_append, or_imp, forall_and, List.flatMap_singleton]
    at hsetting
  have hmiddle : setting.Same (daemon.settings middle) (daemon.settings left) := by
    rw [makeAll_settings h.done]
    exact applyAll_same _ _ hsetting.1
  rcases make_error call middle after e h.failed with hsettings | hsettings
  · rwa [hsettings]
  · rw [hsettings]
    exact (applyAll_same _ _ hsetting.2).trans hmiddle

/-- Everything that a cleanup is about is as it was saved, except for the split tunnel
and the relay settings; the rest is as it was left. -/
def Settings.restored (defaults : Defaults M) (saved left : Settings M) : Settings M :=
  {saved with
    splitTunnelApps := []
    splitTunnelProcesses := []
    relaySettings := left.relaySettings.merge defaults (relayUpdate defaults)
    rest := left.rest}

theorem applyAll_cleanupRequests (saved left : Settings M) :
    left.applyAll defaults (cleanupRequests defaults saved) = saved.restored defaults left := by
  simp only [Settings.applyAll, cleanupRequests, cleanupCalls, List.flatMap_cons, List.flatMap_nil,
    CleanupCall.sent, List.cons_append, List.nil_append, List.foldl_cons, List.foldl_nil,
    Settings.apply, Settings.restored]

/-! ### The settings over a run -/

/-- A test with what it does to the daemon. -/
structure SuiteTest (σ : Type) where
  metadata : TestMetadata
  body : σ → TestOutcome × σ

/-- `saved` is a history: the settings of the daemon when `DEFAULT_SETTINGS` was set. -/
structure Suite (M σ : Type) where
  state : σ
  defaultSettings : Option (SettingsMessage M)
  saved : Option (Settings M)
  ended : Bool

def Suite.start (M : Type) {σ : Type} (state : σ) : Suite M σ := ⟨state, none, none, false⟩

variable (daemon)

def initDefaultSettings (test : SuiteTest σ) (s : Suite M σ) : Option (Suite M σ) :=
  if test.metadata.mullvadClientVersion = .new ∧ s.defaultSettings.isNone then
    match daemon.getSettings s.state with
    | (.error _, _) => none
    | (.ok settings, state) =>
        some {s with
          state
          defaultSettings := some settings
          saved := some (daemon.settings s.state)}
  else some s

def SuiteTest.cleansUp (test : SuiteTest σ) (outcome : TestOutcome) : Bool :=
  test.metadata.mullvadClientVersion = .new && (!outcome.succeeded || test.metadata.cleanup)

def runBody (test : SuiteTest σ) (s : Suite M σ) : Option (Suite M σ) :=
  let (outcome, state) := test.body s.state
  let s := {s with state, ended := test.metadata.mustSucceed && !outcome.succeeded}
  if test.cleansUp outcome then
    match (cleanupAfterTest daemon s.defaultSettings).run state with
    | (.error _, _) => none
    | (.ok _, state) => some {s with state}
  else some s

/-- One round of the loop of `run`; there is none after a call that fails or a test that
ends the loop. -/
def suiteStep (s : Suite M σ) (test : SuiteTest σ) : Option (Suite M σ) :=
  if s.ended then none else (initDefaultSettings daemon test s).bind (runBody daemon test)

variable {daemon}

/-- What is known of the default settings after the given tests. -/
def SavedAfter (daemon : Daemon defaults σ) (state : σ) (tests : List (SuiteTest σ))
    (s : Suite M σ) : Prop :=
  s.defaultSettings = s.saved.map Settings.message ∧
    match s.saved with
    | none => ∀ test ∈ tests, test.metadata.mullvadClientVersion ≠ .new
    | some saved => ∃ before first after earlier, tests = before ++ first :: after ∧
        (∀ test ∈ before, test.metadata.mullvadClientVersion ≠ .new) ∧
        first.metadata.mullvadClientVersion = .new ∧
        run (suiteStep daemon) (.start M state) before = some earlier ∧
        saved = daemon.settings earlier.state

theorem initDefaultSettings_saved {state : σ} {tests : List (SuiteTest σ)} {test : SuiteTest σ}
    {s next : Suite M σ} (hrun : run (suiteStep daemon) (.start M state) tests = some s)
    (h : SavedAfter daemon state tests s)
    (hinit : initDefaultSettings daemon test s = some next) :
    SavedAfter daemon state (tests ++ [test]) next := by
  obtain ⟨hdefault, hsaved⟩ := h
  unfold initDefaultSettings at hinit
  split at hinit
  · next hfirst =>
    obtain ⟨hnew, hnone⟩ := hfirst
    split at hinit
    · cases hinit
    · next message after hsettings =>
      cases hinit
      refine ⟨congrArg some (daemon.getSettings_ok s.state message after hsettings).1, ?_⟩
      refine ⟨tests, test, [], s, rfl, ?_, hnew, hrun, rfl⟩
      cases hold : s.saved with
      | none => rwa [hold] at hsaved
      | some saved =>
          rw [hdefault, hold] at hnone
          cases hnone
  · next hnot =>
    cases hinit
    refine ⟨hdefault, ?_⟩
    cases hold : s.saved with
    | none =>
        rw [hold] at hsaved
        have hversion : test.metadata.mullvadClientVersion ≠ .new := by
          intro hnew
          exact hnot ⟨hnew, by rw [hdefault, hold]; rfl⟩
        simpa [or_imp, forall_and] using ⟨hsaved, hversion⟩
    | some saved =>
        rw [hold] at hsaved
        obtain ⟨before, first, after, earlier, rfl, hbefore, hnew, hearlier, rfl⟩ := hsaved
        exact ⟨before, first, after ++ [test], earlier, by simp, hbefore, hnew, hearlier, rfl⟩

theorem runBody_saved {test : SuiteTest σ} {s next : Suite M σ}
    (h : runBody daemon test s = some next) :
    next.defaultSettings = s.defaultSettings ∧ next.saved = s.saved := by
  unfold runBody at h
  simp only at h
  split at h
  · split at h
    · cases h
    · cases h
      exact ⟨rfl, rfl⟩
  · cases h
    exact ⟨rfl, rfl⟩

theorem run_saved (state : σ) (tests : List (SuiteTest σ)) (s : Suite M σ)
    (hrun : run (suiteStep daemon) (.start M state) tests = some s) :
    SavedAfter daemon state tests s := by
  induction tests using List.reverseRecOn generalizing s with
  | nil =>
      cases hrun
      exact ⟨rfl, by simp [Suite.start]⟩
  | append_singleton tests test ih =>
      have hall := hrun
      rw [run_append] at hall
      obtain ⟨middle, hmiddle, hlast⟩ := Option.bind_eq_some_iff.mp hall
      obtain ⟨next, hstep, hnext⟩ := Option.bind_eq_some_iff.mp hlast
      obtain rfl : next = s := Option.some.inj hnext
      unfold suiteStep at hstep
      split at hstep
      · cases hstep
      · obtain ⟨ready, hready, hbody⟩ := Option.bind_eq_some_iff.mp hstep
        have hsaved := initDefaultSettings_saved hmiddle (ih middle hmiddle) hready
        obtain ⟨hdefault, hsame⟩ := runBody_saved hbody
        unfold SavedAfter
        rw [hdefault, hsame]
        exact hsaved

/-! ### The tests in the loop of `run` -/

def CleanupError.text : CleanupError → String
  | .panicked message => String.ofList message
  | .daemonError message => "The daemon returned an error: " ++ String.ofList message
  | .context text _ => String.ofList text

/-- The calls of a test as `run` sees them, if nothing else fails. -/
def SuiteTest.registered (daemon : Daemon defaults σ) (s : Suite M σ) (test : SuiteTest σ) :
    RegisteredTest where
  metadata := test.metadata
  calls :=
    let ready := initDefaultSettings daemon test s
    let state := (ready.getD s).state
    let outcome := (test.body state).1
    {
      client := .ok ()
      clientRecords := []
      getSettings := if ready.isSome then .ok () else .error "Failed to obtain settings"
      outcome := outcome
      testRecords := []
      tryPollOutput := .ok []
      getMullvadAppLogs := .ok ()
      newClient := .ok ()
      cleanupRecords := []
      lateRecords := []
      cleanup :=
        if test.cleansUp outcome then
          match (cleanupAfterTest daemon (ready.getD s).defaultSettings).run (test.body state).2 with
          | (.error e, _) => .error e.text
          | (.ok _, _) => .ok ()
        else .ok ()
      summaryIo := ⟨.ok (), .ok (), .ok (), .ok ()⟩ }

def registeredAll (daemon : Daemon defaults σ) : Suite M σ → List (SuiteTest σ) →
    List RegisteredTest
  | _, [] => []
  | s, test :: rest =>
      test.registered daemon s ::
        match suiteStep daemon s test with
        | none => []
        | some next => registeredAll daemon next rest

theorem registered_succeeds {s next : Suite M σ} {test : SuiteTest σ}
    (h : suiteStep daemon s test = some next) :
    (test.registered daemon s).calls.Succeed ∧ (test.registered daemon s).breaks = next.ended := by
  unfold suiteStep at h
  split at h
  · cases h
  · obtain ⟨ready, hready, hbody⟩ := Option.bind_eq_some_iff.mp h
    unfold runBody at hbody
    simp only at hbody
    split at hbody
    · next hcleans =>
      split at hbody
      · cases hbody
      · next after hcleanup =>
        cases hbody
        refine ⟨⟨rfl, ?_, rfl, rfl, ?_, rfl⟩, ?_⟩
        · simp [SuiteTest.registered, hready]
        · simp [SuiteTest.registered, hready, hcleans, hcleanup]
        · simp [SuiteTest.registered, hready, RegisteredTest.breaks, RegisteredTest.failed]
    · next hcleans =>
      cases hbody
      refine ⟨⟨rfl, ?_, rfl, rfl, ?_, rfl⟩, ?_⟩
      · simp [SuiteTest.registered, hready]
      · simp [SuiteTest.registered, hready, hcleans]
      · simp [SuiteTest.registered, hready, RegisteredTest.breaks, RegisteredTest.failed]

/-- The loop of `run` goes through the same tests, one after the other. -/
theorem run_executes (printOnly : Bool) (tests : List (SuiteTest σ)) (s last : Suite M σ)
    (hrun : run (suiteStep daemon) s tests = some last) (before : RunState) :
    ∃ after, runTests printOnly before (registeredAll daemon s tests) = .ok after ∧
      Executed before (registeredAll daemon s tests) after := by
  induction tests generalizing s before with
  | nil => exact ⟨before, rfl, Executed.refl before⟩
  | cons test rest ih =>
      obtain ⟨next, hstep, htail⟩ := Option.bind_eq_some_iff.mp hrun
      obtain ⟨hsucceed, hbreaks⟩ := registered_succeeds hstep
      obtain ⟨middle, hone, hexecuted⟩ := runOne_executes hsucceed printOnly before
      obtain ⟨after, hafter, hrest⟩ := ih next htail middle
      refine ⟨after, ?_, ?_⟩
      · simp only [registeredAll, hstep, runTests, hone, bind, Except.bind, hbreaks]
        split
        · next hended =>
          -- no test follows one that ends the loop
          cases rest with
          | nil => exact hafter
          | cons later more => simp [run, suiteStep, hended] at htail
        · exact hafter
      · simp only [registeredAll, hstep]
        exact hexecuted.cons hrest

/-- In every run of the tests, whatever they do to the daemon: a test that is cleaned up
after leaves the settings that the daemon had when the first test with a current client
started. The split tunnel is empty then, and the relay settings are those of the cleanup.
What no request is about stays as the test has left it. -/
theorem tests_start_restored (daemon : Daemon defaults σ) (state : σ)
    (tests : List (SuiteTest σ)) (test : SuiteTest σ) (s last : Suite M σ)
    (hrun : run (suiteStep daemon) (.start M state) tests = some s)
    (hstep : suiteStep daemon s test = some last) :
    ∃ ready, initDefaultSettings daemon test s = some ready ∧
      (test.cleansUp (test.body ready.state).1 = false →
        last.state = (test.body ready.state).2) ∧
      (test.cleansUp (test.body ready.state).1 = true →
        ∃ before first after earlier, tests ++ [test] = before ++ first :: after ∧
          (∀ test ∈ before, test.metadata.mullvadClientVersion ≠ .new) ∧
          first.metadata.mullvadClientVersion = .new ∧
          run (suiteStep daemon) (.start M state) before = some earlier ∧
          daemon.settings last.state = (daemon.settings earlier.state).restored defaults
            (daemon.settings (test.body ready.state).2)) := by
  have hsaved := run_saved state tests s hrun
  unfold suiteStep at hstep
  split at hstep
  · cases hstep
  obtain ⟨ready, hready, hbody⟩ := Option.bind_eq_some_iff.mp hstep
  obtain ⟨hdefault, hfirst⟩ := initDefaultSettings_saved hrun hsaved hready
  refine ⟨ready, hready, ?_, ?_⟩
  · intro hkeeps
    simp only [runBody, hkeeps, Bool.false_eq_true, if_false] at hbody
    rw [← Option.some.inj hbody]
  · intro hcleans
    simp only [runBody, hcleans, if_true] at hbody
    split at hbody
    · cases hbody
    · next after hcleanup =>
      cases hbody
      cases hold : ready.saved with
      | none =>
          rw [hold] at hfirst
          have hversion := hfirst test (by simp)
          simp [SuiteTest.cleansUp, hversion] at hcleans
      | some saved =>
          rw [hold] at hfirst hdefault
          obtain ⟨before, first, later, earlier, hsplit, hbefore, hnew, hearlier, rfl⟩ := hfirst
          refine ⟨before, first, later, earlier, hsplit, hbefore, hnew, hearlier, ?_⟩
          simp only [hdefault, Option.map_some] at hcleanup
          rw [cleanupAfterTest_eq] at hcleanup
          rw [← applyAll_cleanupRequests]
          exact makeAll_settings hcleanup

end

/-! ### A run of two tests -/

def noDefaults : Defaults Nat := ⟨0, 0, ⟨.any, 0, 0, .any, 0, 0⟩⟩

/-- A daemon that carries out every request but those that `refuses` names. -/
def storeDaemon (refuses : Settings Nat → Request Nat → Bool) :
    Daemon noDefaults (Settings Nat) where
  settings s := s
  call request s :=
    if refuses s request then (.error "refused".toList, s)
    else (.ok (), s.apply noDefaults request)
  getSettings s := (.ok s.message, s)
  disconnectAndWait s := (.ok (), s)
  call_ok := by
    intro request s next h
    split at h
    · cases h
    · cases h
      rfl
  call_error := by
    intro request s e next h
    split at h
    · cases h
      exact .inl rfl
    · cases h
  getSettings_ok := by
    intro s message next h
    cases h
    exact ⟨rfl, rfl⟩
  disconnect_same := fun _ => rfl

def freshSettings : Settings Nat :=
  ⟨false, false, false, .auto, 0, ⟨.auto, none⟩, false, [], [], 0, 0, .customTunnelEndpoint 1, 0⟩

def newTest (name : String) (body : Settings Nat → TestOutcome × Settings Nat) :
    SuiteTest (Settings Nat) :=
  ⟨⟨name.toList, name.toList, .new, none, false, false, true⟩, body⟩

/-- The tests change settings that are put back and one that is not. -/
def connectsAlways : SuiteTest (Settings Nat) :=
  newTest "test_connect" fun settings => (.ok, {settings with autoConnect := true, rest := 5})

def changesSettings : SuiteTest (Settings Nat) :=
  newTest "test_lan" fun settings =>
    (.ok, {settings with allowLan := true, bridgeState := .on, rest := 7})

/-- The settings between the two tests. -/
def betweenTests : Settings Nat :=
  freshSettings.restored noDefaults {freshSettings with rest := 5}

def onceSaved : Suite Nat (Settings Nat) :=
  ⟨betweenTests, some freshSettings.message, some freshSettings, false⟩

theorem changesSettings_restored :
    run (suiteStep (storeDaemon fun _ _ => false)) (.start Nat freshSettings) [connectsAlways] =
        some onceSaved ∧
      ∃ last, suiteStep (storeDaemon fun _ _ => false) onceSaved changesSettings = some last ∧
        last.state = freshSettings.restored noDefaults {betweenTests with rest := 7} := by
  have hstep : ∃ last, suiteStep (storeDaemon fun _ _ => false) onceSaved changesSettings =
      some last := ⟨_, rfl⟩
  obtain ⟨last, hlast⟩ := hstep
  obtain ⟨ready, hready, _, hcleans⟩ := tests_start_restored (storeDaemon fun _ _ => false)
    freshSettings [connectsAlways] changesSettings onceSaved last rfl hlast
  refine ⟨rfl, last, hlast, ?_⟩
  cases hready
  obtain ⟨before, first, after, earlier, hsplit, hbefore, _, hearlier, hsettings⟩ := hcleans rfl
  cases before with
  | nil =>
      cases hearlier
      exact hsettings
  | cons test rest =>
      obtain ⟨rfl, -⟩ := List.cons.inj hsplit
      exact absurd rfl (hbefore connectsAlways List.mem_cons_self)

end MullvadAppTests.TestManager.Cleanup
