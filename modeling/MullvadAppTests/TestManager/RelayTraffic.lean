import MullvadAppTests.Lib.Result
import MullvadAppTests.Lib.Text
import MullvadAppTests.TestManager.MonitorWindow

/-!
The tests that watch the guest's traffic while something else goes on and stop the
monitor afterwards: `test_upgrade_app` of `test-manager/src/tests/install.rs` and
`test_udp2tcp_tunnel`, `test_bridge` and `test_multihop` of
`test-manager/src/tests/tunnel.rs`, with the relays that they choose by
`test-manager/src/tests/helpers.rs`. The addresses of host names and the parsers
of addresses are parameters.
-/

namespace MullvadAppTests.TestManager

open Lib Lib.Transition

/-! ### The relay list -/

/-- The kinds of relay of the management interface. -/
inductive RelayType where
  | openvpn
  | bridge
  | wireguard
  deriving DecidableEq, Repr

structure Relay where
  hostname : Text
  ipv4AddrIn : Text
  active : Bool
  endpointType : RelayType
  deriving DecidableEq, Repr

structure RelayCity where
  relays : List Relay

structure RelayCountry where
  cities : List RelayCity

structure RelayList where
  countries : List RelayCountry

def flattenRelaylist (relays : RelayList) : List Relay :=
  (relays.countries.flatMap (·.cities)).flatMap (·.relays)

inductive RelayError where
  | daemonError (message : Text)
  | other (message : Text)
  | panic (message : Text)
  deriving DecidableEq, Repr

/-- `get_relay_locations`, with the error of both functions that call it. -/
def getRelayLocations (relayLocations : Except Text RelayList) : Except RelayError RelayList :=
  match relayLocations with
  | .error error => .error (.daemonError ("Failed to obtain relay list: ".toList ++ error))
  | .ok relayList => .ok relayList

def filterRelays (relayLocations : Except Text RelayList) (criteria : Relay → Bool) :
    Except RelayError (List Relay) := do
  let relaylist ← getRelayLocations relayLocations
  .ok ((flattenRelaylist relaylist).filter criteria)

/-- The first two relays that meet the criteria, and not random ones. -/
def randomEntryAndExit (relayLocations : Except Text RelayList) (criteria : Relay → Bool) :
    Except RelayError (Relay × Relay) := do
  match ← filterRelays relayLocations criteria with
  | entry :: exit :: _ => .ok (entry, exit)
  | _ =>
      .error (.other "failed to randomly select two relays from daemon's relay list".toList)

section

variable (resolve : Text → Option Ip.IpAddr) (parseIpv4 : Text → Option (Fin 4 → UInt8))

def apiHosts : List Text :=
  ["api.devmole.eu".toList, "api.stagemole.eu".toList, "api.mullvad.net".toList]

/-- The address that is added to the resolved ones. -/
def fallbackApiIp : Ip.IpAddr := .v4 fun i => [45, 83, 223, 196].getD i 0

def resolveApi (host : Text) : Except RelayError Ip.IpAddr :=
  match resolve host with
  | none => .error (.panic ("failed to resolve ".toList ++ host))
  | some ip => .ok ip

def isActiveBridge (relay : Relay) : Bool := relay.active && relay.endpointType = .bridge

/-- The cities that still have relays when only their bridges are kept. -/
def bridgeCities (relayList : RelayList) : List RelayCity :=
  (relayList.countries.flatMap (·.cities)).filterMap fun city =>
    let city := {city with relays := city.relays.filter isActiveBridge}
    if city.relays ≠ [] then some city else none

def bridgeIp (relay : Relay) : Except RelayError Ip.IpAddr :=
  match parseIpv4 relay.ipv4AddrIn with
  | none => .error (.panic "invalid IP".toList)
  | some octets => .ok (.v4 octets)

/-- `get_possible_api_endpoints!`. -/
def getPossibleApiEndpoints (relayLocations : Except Text RelayList) :
    Except RelayError (List Ip.IpAddr) := do
  let apiEndpoints ← apiHosts.mapM (resolveApi resolve)
  let relayList ← getRelayLocations relayLocations
  let bridges ← ((bridgeCities relayList).flatMap (·.relays)).mapM (bridgeIp parseIpv4)
  .ok (apiEndpoints ++ [fallbackApiIp] ++ bridges)

end

/-! ### What counts as an endpoint -/

theorem mem_bridgeCities (relayList : RelayList) (relay : Relay) :
    relay ∈ (bridgeCities relayList).flatMap (·.relays) ↔
      relay ∈ flattenRelaylist relayList ∧ isActiveBridge relay = true := by
  simp only [bridgeCities, flattenRelaylist, List.mem_flatMap, List.mem_filterMap]
  constructor
  · rintro ⟨kept, ⟨city, hcity, hkept⟩, hrelay⟩
    split at hkept
    · rw [← Option.some.inj hkept] at hrelay
      obtain ⟨hrelay, hbridge⟩ := List.mem_filter.mp hrelay
      exact ⟨⟨city, hcity, hrelay⟩, hbridge⟩
    · cases hkept
  · rintro ⟨⟨city, hcity, hrelay⟩, hbridge⟩
    have hmem : relay ∈ city.relays.filter isActiveBridge := List.mem_filter.mpr ⟨hrelay, hbridge⟩
    refine ⟨⟨city.relays.filter isActiveBridge⟩, ⟨city, hcity, ?_⟩, hmem⟩
    rw [if_pos (List.ne_nil_of_mem hmem)]

/-- An address that the upgraded app may talk to. -/
def IsEndpoint (resolve : Text → Option Ip.IpAddr) (parseIpv4 : Text → Option (Fin 4 → UInt8))
    (relayList : RelayList) (ip : Ip.IpAddr) : Prop :=
  (∃ host ∈ apiHosts, resolve host = some ip) ∨ ip = fallbackApiIp ∨
    ∃ relay ∈ flattenRelaylist relayList, relay.active = true ∧ relay.endpointType = .bridge ∧
      ∃ octets, parseIpv4 relay.ipv4AddrIn = some octets ∧ ip = .v4 octets

theorem getRelayLocations_eq_ok {relayLocations : Except Text RelayList} {relayList : RelayList}
    (h : getRelayLocations relayLocations = .ok relayList) : relayLocations = .ok relayList := by
  unfold getRelayLocations at h
  split at h
  · cases h
  · exact congrArg Except.ok (Except.ok.inj h)

theorem mem_endpoints {resolve : Text → Option Ip.IpAddr}
    {parseIpv4 : Text → Option (Fin 4 → UInt8)} {relayLocations : Except Text RelayList}
    {endpoints : List Ip.IpAddr}
    (h : getPossibleApiEndpoints resolve parseIpv4 relayLocations = .ok endpoints) :
    ∃ relayList, relayLocations = .ok relayList ∧
      ∀ ip, ip ∈ endpoints ↔ IsEndpoint resolve parseIpv4 relayList ip := by
  obtain ⟨apiEndpoints, hapi, h⟩ := bind_eq_ok h
  obtain ⟨relayList, hrelays, h⟩ := bind_eq_ok h
  obtain ⟨bridges, hbridges, h⟩ := bind_eq_ok h
  cases h
  refine ⟨relayList, getRelayLocations_eq_ok hrelays, ?_⟩
  intro ip
  have hresolved : ∀ host, resolveApi resolve host = .ok ip ↔ resolve host = some ip := by
    intro host
    unfold resolveApi
    cases resolve host <;> simp
  have hparsed : ∀ relay, bridgeIp parseIpv4 relay = .ok ip ↔
      ∃ octets, parseIpv4 relay.ipv4AddrIn = some octets ∧ ip = .v4 octets := by
    intro relay
    unfold bridgeIp
    cases parseIpv4 relay.ipv4AddrIn <;> simp [eq_comm]
  simp only [List.mem_append, mem_mapM_ok hapi, mem_mapM_ok hbridges, hresolved, hparsed,
    mem_bridgeCities, List.mem_singleton, IsEndpoint, isActiveBridge, Bool.and_eq_true,
    decide_eq_true_eq, or_assoc, and_assoc]

/-! ### The traffic of a test -/

def isActiveOpenvpn (relay : Relay) : Bool := relay.active && relay.endpointType = .openvpn

def isActiveWireguard (relay : Relay) : Bool := relay.active && relay.endpointType = .wireguard

/-- `filter_relays(..).await?.pop().unwrap()` of `test_bridge`. -/
def popRelay (relayLocations : Except Text RelayList) (criteria : Relay → Bool) :
    Except RelayError Relay := do
  match (← filterRelays relayLocations criteria).getLast? with
  | none => .error (.panic "called `Option::unwrap()` on a `None` value".toList)
  | some relay => .ok relay

/-- The filter with which a test starts its monitor, and its assertion on the result. -/
structure Monitoring where
  filterFn : ParsedPacket → Bool
  accepts : MonitorResult → Bool

/-- `into_result().await.unwrap()` and the assertion. -/
def Monitoring.check (monitoring : Monitoring) (m : PacketMonitor Unit) : Option Bool :=
  m.result.map fun result =>
    match result with
    | .error _ => false
    | .ok result => monitoring.accepts result

section

variable (resolve : Text → Option Ip.IpAddr) (parseIpv4 : Text → Option (Fin 4 → UInt8))
  (parseIp : Text → Option Ip.IpAddr)

def testUpgradeApp (guestIp : Ip.IpAddr) (relayLocations : Except Text RelayList) :
    Except RelayError Monitoring := do
  let apiEndpoints ← getPossibleApiEndpoints resolve parseIpv4 relayLocations
  .ok {
    filterFn := fun packet =>
      packet.source.ip = guestIp && !(apiEndpoints.contains packet.destination.ip)
    accepts := fun result => result.packets.length = 0 }

def testUdp2tcpTunnel (guestIp : Ip.IpAddr) : Except RelayError Monitoring :=
  .ok {
    filterFn := fun packet => packet.source.ip ≠ guestIp || packet.protocol = Ip.tcp
    accepts := fun result => result.discardedPackets = 0 }

/-- An entry whose address is none makes the filter of the source panic; no packet
passes it here, and the test fails in both. -/
def testBridge (entryLocations exitLocations : Except Text RelayList) :
    Except RelayError Monitoring := do
  let entry ← popRelay entryLocations isActiveBridge
  let _ ← popRelay exitLocations isActiveOpenvpn
  .ok {
    filterFn := fun packet => parseIp entry.ipv4AddrIn = some packet.destination.ip
    accepts := fun result => !result.packets.isEmpty }

/-- As for `testBridge`, an entry without an address lets nothing pass. -/
def testMultihop (relayLocations : Except Text RelayList) : Except RelayError Monitoring := do
  let (entry, _) ← randomEntryAndExit relayLocations isActiveWireguard
  .ok {
    filterFn := fun packet =>
      parseIp entry.ipv4AddrIn = some packet.destination.ip && packet.protocol = Ip.udp
    accepts := fun result => !result.packets.isEmpty }

/-- One of the tests, with what it reads before its monitor starts. -/
inductive TrafficTest where
  | testUpgradeApp (guestIp : Ip.IpAddr) (relayLocations : Except Text RelayList)
  | testUdp2tcpTunnel (guestIp : Ip.IpAddr)
  | testBridge (entryLocations exitLocations : Except Text RelayList)
  | testMultihop (relayLocations : Except Text RelayList)

def TrafficTest.monitoring : TrafficTest → Except RelayError Monitoring
  | .testUpgradeApp guestIp relayLocations =>
      TestManager.testUpgradeApp resolve parseIpv4 guestIp relayLocations
  | .testUdp2tcpTunnel guestIp => TestManager.testUdp2tcpTunnel guestIp
  | .testBridge entryLocations exitLocations =>
      TestManager.testBridge parseIp entryLocations exitLocations
  | .testMultihop relayLocations => TestManager.testMultihop parseIp relayLocations

/-- What the packets must be for the test to go on. -/
def TrafficTest.Expects : TrafficTest → List ParsedPacket → Prop
  | .testUpgradeApp guestIp relayLocations, packets =>
      ∃ relayList, relayLocations = .ok relayList ∧
        ∀ packet ∈ packets, packet.source.ip = guestIp →
          IsEndpoint resolve parseIpv4 relayList packet.destination.ip
  | .testUdp2tcpTunnel guestIp, packets =>
      ∀ packet ∈ packets, packet.source.ip = guestIp → packet.protocol = Ip.tcp
  | .testBridge entryLocations _, packets =>
      ∃ relayList entry, entryLocations = .ok relayList ∧
        ((flattenRelaylist relayList).filter isActiveBridge).getLast? = some entry ∧
        ∃ packet ∈ packets, parseIp entry.ipv4AddrIn = some packet.destination.ip
  | .testMultihop relayLocations, packets =>
      ∃ relayList entry exit rest, relayLocations = .ok relayList ∧
        (flattenRelaylist relayList).filter isActiveWireguard = entry :: exit :: rest ∧
        ∃ packet ∈ packets, parseIp entry.ipv4AddrIn = some packet.destination.ip ∧
          packet.protocol = Ip.udp

end

/-- A monitor that was stopped has consumed what had arrived when the stop was sent,
and nothing that had not arrived at all. -/
theorem consumed_of_stopped {filterFn : ParsedPacket → Bool} {actions : List MonitorAction}
    {m : PacketMonitor Unit} (hrun : run (stepAll filterFn) (.start ()) actions = some m)
    (hstopped : m.ending = some .stopped) :
    (∃ atStop, m.atStop = some atStop ∧ atStop <+: m.consumed) ∧
      m.consumed <+: captures actions ∧
      m.result = some (.ok ⟨(parsed m.consumed).filter filterFn,
        min ((parsed m.consumed).countP fun packet => !filterFn packet) usizeMax⟩) := by
  have hinv : MonitorInv filterFn (fun _ _ => (true, ())) () m :=
    run_preserves (MonitorInv.step ()) actions (.initial ()) hrun
  have hcaptures : m.consumed ++ m.available = captures actions := by
    simpa [PacketMonitor.start] using run_captures actions hrun
  refine ⟨hinv.stopped hstopped, ⟨m.available, hcaptures⟩, ?_⟩
  rw [← hinv.packets, ← hinv.discarded]
  simp [PacketMonitor.result, hstopped]

theorem filterRelays_eq_ok {relayLocations : Except Text RelayList} {criteria : Relay → Bool}
    {relays : List Relay} (h : filterRelays relayLocations criteria = .ok relays) :
    ∃ relayList, relayLocations = .ok relayList ∧
      relays = (flattenRelaylist relayList).filter criteria := by
  obtain ⟨relayList, hrelays, h⟩ := bind_eq_ok h
  exact ⟨relayList, getRelayLocations_eq_ok hrelays, (Except.ok.inj h).symm⟩

theorem popRelay_eq_ok {relayLocations : Except Text RelayList} {criteria : Relay → Bool}
    {relay : Relay} (h : popRelay relayLocations criteria = .ok relay) :
    ∃ relayList, relayLocations = .ok relayList ∧
      ((flattenRelaylist relayList).filter criteria).getLast? = some relay := by
  obtain ⟨relays, hrelays, h⟩ := bind_eq_ok h
  obtain ⟨relayList, hlocations, rfl⟩ := filterRelays_eq_ok hrelays
  split at h
  · cases h
  · next last hlast =>
    cases h
    exact ⟨relayList, hlocations, hlast⟩

theorem randomEntryAndExit_eq_ok {relayLocations : Except Text RelayList}
    {criteria : Relay → Bool} {entry exit : Relay}
    (h : randomEntryAndExit relayLocations criteria = .ok (entry, exit)) :
    ∃ relayList rest, relayLocations = .ok relayList ∧
      (flattenRelaylist relayList).filter criteria = entry :: exit :: rest := by
  obtain ⟨relays, hrelays, h⟩ := bind_eq_ok h
  obtain ⟨relayList, hlocations, rfl⟩ := filterRelays_eq_ok hrelays
  split at h
  · next first second rest hfilter =>
    cases h
    exact ⟨relayList, rest, hlocations, hfilter⟩
  · cases h

theorem accepts_iff {resolve : Text → Option Ip.IpAddr}
    {parseIpv4 : Text → Option (Fin 4 → UInt8)} {parseIp : Text → Option Ip.IpAddr}
    {test : TrafficTest} {monitoring : Monitoring}
    (h : test.monitoring resolve parseIpv4 parseIp = .ok monitoring)
    (packets : List ParsedPacket) :
    monitoring.accepts ⟨packets.filter monitoring.filterFn,
        min (packets.countP fun packet => !monitoring.filterFn packet) usizeMax⟩ = true ↔
      test.Expects resolve parseIpv4 parseIp packets := by
  have hmax : usizeMax ≠ 0 := by decide
  cases test with
  | testUpgradeApp guestIp relayLocations =>
      obtain ⟨endpoints, hendpoints, h⟩ := bind_eq_ok h
      cases h
      obtain ⟨relayList, rfl, hmem⟩ := mem_endpoints hendpoints
      simp [TrafficTest.Expects, hmem]
  | testUdp2tcpTunnel guestIp =>
      cases h
      simp [TrafficTest.Expects, hmax]
  | testBridge entryLocations exitLocations =>
      obtain ⟨entry, hentry, h⟩ := bind_eq_ok h
      obtain ⟨_, _, h⟩ := bind_eq_ok h
      cases h
      obtain ⟨relayList, rfl, hlast⟩ := popRelay_eq_ok hentry
      simp [TrafficTest.Expects, hlast, -List.getLast?_filter]
  | testMultihop relayLocations =>
      obtain ⟨⟨entry, exit⟩, hrelays, h⟩ := bind_eq_ok h
      cases h
      obtain ⟨relayList, rest, rfl, hfilter⟩ := randomEntryAndExit_eq_ok hrelays
      simp [TrafficTest.Expects, hfilter]

/-- In every run of the monitor that ends with its stop, the test goes on if and only
if what the monitor has consumed is as it should be. `test_upgrade_app` wants all
that comes from the guest to go to the API or to an active bridge,
`test_udp2tcp_tunnel` wants it to be TCP, and the other two want a packet to the
relay that they have chosen. What was there when the monitor was stopped is always
consumed. -/
theorem traffic_test_iff (resolve : Text → Option Ip.IpAddr)
    (parseIpv4 : Text → Option (Fin 4 → UInt8)) (parseIp : Text → Option Ip.IpAddr)
    (test : TrafficTest) (monitoring : Monitoring) (actions : List MonitorAction)
    (m : PacketMonitor Unit)
    (hmonitoring : test.monitoring resolve parseIpv4 parseIp = .ok monitoring)
    (hrun : run (stepAll monitoring.filterFn) (.start ()) actions = some m)
    (hstopped : m.ending = some .stopped) :
    (∃ atStop, m.atStop = some atStop ∧ atStop <+: m.consumed) ∧
      m.consumed <+: captures actions ∧
      (monitoring.check m = some true ↔
        test.Expects resolve parseIpv4 parseIp (parsed m.consumed)) := by
  obtain ⟨hatStop, hcaptures, hresult⟩ := consumed_of_stopped hrun hstopped
  refine ⟨hatStop, hcaptures, ?_⟩
  rw [Monitoring.check, hresult, Option.map_some, Option.some.injEq]
  exact accepts_iff hmonitoring (parsed m.consumed)

/-- One country with one bridge, which has the address of `packetTo`. -/
def oneBridge : RelayList := ⟨[⟨[⟨[⟨"se-got-br-001".toList, "2.2.2.2".toList, true, .bridge⟩]⟩]⟩]⟩

/-- The packet to the bridge is there when the monitor is stopped. -/
def bridgeTraffic : List MonitorAction :=
  [.poll, .capture (.packet (packetTo 443)), .stop, .poll, .poll]

def bridgeUpgrade : TrafficTest := .testUpgradeApp (.v4 fun _ => 1) (.ok oneBridge)

def onlyFallback (_ : Text) : Option Ip.IpAddr := some fallbackApiIp

def parseTwos (text : Text) : Option (Fin 4 → UInt8) :=
  if text = "2.2.2.2".toList then some fun _ => 2 else none

def bridgeUpgradeMonitoring : Monitoring where
  filterFn packet :=
    packet.source.ip = (.v4 fun _ => 1) &&
      !([fallbackApiIp, fallbackApiIp, fallbackApiIp, fallbackApiIp, .v4 fun _ => 2].contains
        packet.destination.ip)
  accepts result := result.packets.length = 0

theorem bridgeTraffic_expected :
    ∃ m, run (stepAll bridgeUpgradeMonitoring.filterFn) (.start ()) bridgeTraffic = some m ∧
      (∃ atStop, m.atStop = some atStop ∧ atStop <+: m.consumed) ∧
      bridgeUpgradeMonitoring.check m = some true ∧ parsed m.consumed ≠ [] ∧
      bridgeUpgrade.Expects onlyFallback parseTwos (fun _ => none) (parsed m.consumed) := by
  have hmonitoring : bridgeUpgrade.monitoring onlyFallback parseTwos (fun _ => none) =
      .ok bridgeUpgradeMonitoring := by rfl
  have hrun : (run (stepAll bridgeUpgradeMonitoring.filterFn) (.start ()) bridgeTraffic).map
      (fun m => (m.ending, bridgeUpgradeMonitoring.check m, decide (parsed m.consumed ≠ []))) =
        some (some .stopped, some true, true) := by decide
  obtain ⟨m, hm, hfields⟩ := Option.map_eq_some_iff.mp hrun
  simp only [Prod.mk.injEq, decide_eq_true_eq] at hfields
  obtain ⟨hstopped, hcheck, hconsumed⟩ := hfields
  obtain ⟨hatStop, _, hiff⟩ := traffic_test_iff onlyFallback parseTwos (fun _ => none)
    bridgeUpgrade bridgeUpgradeMonitoring bridgeTraffic m hmonitoring hm hstopped
  exact ⟨m, hm, hatStop, hcheck, hconsumed, hiff.mp hcheck⟩

end MullvadAppTests.TestManager
