import MullvadAppTests.TestManager.PacketMonitor

/-!
`leak_test_dns` of `test-manager/src/tests/dns.rs`. The monitor of the chosen
interface ends by itself once it has seen one UDP and one TCP packet to port 53,
or after five seconds; then the monitor of the other interface is stopped, and the
assertions look at what the two have recorded. The traffic is everything captured
on the two interfaces before the five seconds are over, also what comes after a
monitor has ended.
-/

namespace MullvadAppTests.TestManager

open Lib Lib.Transition

inductive Interface where
  | tunnel
  | nonTunnel
  deriving DecidableEq, Repr

structure DnsPacketsFound where
  tcpCount : Nat
  udpCount : Nat
  minTcpCount : Nat
  minUdpCount : Nat
  deriving DecidableEq, Repr

def DnsPacketsFound.new (minUdpCount minTcpCount : Nat) : DnsPacketsFound :=
  ⟨0, 0, minTcpCount, minUdpCount⟩

/-- Returns whether to continue, with the new state. -/
def DnsPacketsFound.handlePacket (found : DnsPacketsFound) (pkt : ParsedPacket) :
    Bool × DnsPacketsFound :=
  if pkt.destination.port ≠ 53 ∧ pkt.source.port ≠ 53 then (true, found)
  else if pkt.protocol = Ip.udp then
    let found := {found with udpCount := found.udpCount + 1}
    (found.udpCount < found.minUdpCount || found.tcpCount < found.minTcpCount, found)
  else if pkt.protocol = Ip.tcp then
    let found := {found with tcpCount := found.tcpCount + 1}
    (found.udpCount < found.minUdpCount || found.tcpCount < found.minTcpCount, found)
  else (true, found)

/-- The filter of both monitors. -/
def toDns (packet : ParsedPacket) : Bool := packet.destination.port = 53

/-- Where the test is: it waits for the monitor of the chosen interface, then, with
its result, for the other one. -/
inductive LeakPhase where
  | waiting
  | stopping (chosenResult : MonitorResult)
  | passed
  | failed
  deriving DecidableEq

structure LeakTest where
  phase : LeakPhase
  chosen : PacketMonitor DnsPacketsFound
  other : PacketMonitor Unit
  deriving DecidableEq

def LeakTest.new : LeakTest := ⟨.waiting, .start (.new 1 1), .start ()⟩

/-- `join` is the return of `wait()` on the chosen interface's monitor, `finish`
that of `into_result()` on the other one. -/
inductive LeakAction where
  | chosen (a : MonitorAction)
  | other (a : MonitorAction)
  | join
  | finish

/-- The assertions on the result of the chosen interface's monitor. -/
def Expected (whitelistedDest : Ip.IpAddr) (result : MonitorResult) : Prop :=
  2 ≤ result.packets.length ∧ ∀ pkt ∈ result.packets, pkt.destination = ⟨whitelistedDest, 53⟩

instance (whitelistedDest : Ip.IpAddr) (result : MonitorResult) :
    Decidable (Expected whitelistedDest result) := by
  unfold Expected
  infer_instance

def LeakTest.stepChosen (s : LeakTest) (a : MonitorAction) : Option LeakTest :=
  (s.chosen.step toDns DnsPacketsFound.handlePacket a).map fun chosen => {s with chosen}

def LeakTest.stepOther (s : LeakTest) (a : MonitorAction) : Option LeakTest :=
  (s.other.step toDns (fun _ _ => (false, ())) a).map fun other => {s with other}

/-- The test itself. The chosen interface's result is checked at once if it is the
tunnel, and after the other one otherwise. -/
def leakTestDns (interface : Interface) (whitelistedDest : Ip.IpAddr) (s : LeakTest) :
    LeakAction → Option LeakTest
  | .chosen (.capture item) =>
      if s.chosen.timedOut then none else s.stepChosen (.capture item)
  | .chosen .stop => none
  | .chosen a => s.stepChosen a
  | .other (.capture item) =>
      if s.chosen.timedOut then none else s.stepOther (.capture item)
  | .other .stop => none
  | .other .timeout => none
  | .other a => s.stepOther a
  | .join =>
      if s.phase = .waiting ∧ s.chosen.receiving = true then
        match s.chosen.result with
        | none => none
        | some (.error _) => some {s with phase := .failed}
        | some (.ok result) =>
            if interface = .tunnel ∧ ¬ Expected whitelistedDest result then
              some {s with phase := .failed}
            else
              (s.stepOther .stop).map fun s => {s with phase := .stopping result}
      else none
  | .finish =>
      match s.phase with
      | .stopping chosenResult =>
          match s.other.result with
          | none => none
          | some (.error _) => some {s with phase := .failed}
          | some (.ok result) =>
              if result.packets.length = 0 ∧
                  (interface = .nonTunnel → Expected whitelistedDest chosenResult) then
                some {s with phase := .passed}
              else some {s with phase := .failed}
      | _ => none

/-! ### What the test should say about the traffic -/

/-- A packet to port 53 of the expected destination is there, and no packet to port
53 anywhere else. -/
def NoLeak (whitelistedDest : Ip.IpAddr) (chosen other : List ParsedPacket) : Prop :=
  (∃ pkt ∈ chosen, pkt.destination = ⟨whitelistedDest, 53⟩) ∧
    (∀ pkt ∈ chosen, pkt.destination.port = 53 → pkt.destination = ⟨whitelistedDest, 53⟩) ∧
    ∀ pkt ∈ other, pkt.destination.port ≠ 53

def chosenActions (actions : List LeakAction) : List MonitorAction :=
  actions.filterMap fun a =>
    match a with
    | .chosen a => some a
    | _ => none

def otherActions (actions : List LeakAction) : List MonitorAction :=
  actions.filterMap fun a =>
    match a with
    | .other a => some a
    | _ => none

/-- A packet to port 53 of a destination that is not expected. -/
def IsLeak (whitelistedDest : Ip.IpAddr) : Captured → Prop
  | .packet packet =>
      packet.destination.port = 53 ∧ packet.destination ≠ ⟨whitelistedDest, 53⟩
  | _ => False

def IsDns : Captured → Prop
  | .packet packet => packet.destination.port = 53
  | _ => False

instance (whitelistedDest : Ip.IpAddr) (item : Captured) :
    Decidable (IsLeak whitelistedDest item) := by
  cases item <;> unfold IsLeak <;> infer_instance

instance (item : Captured) : Decidable (IsDns item) := by
  cases item <;> unfold IsDns <;> infer_instance

/-- The packet with which the counter of the chosen interface's monitor is
satisfied. -/
def Satisfies (found : DnsPacketsFound) : Captured → Prop
  | .packet packet => toDns packet = true ∧ (found.handlePacket packet).1 = false
  | _ => False

instance (found : DnsPacketsFound) (item : Captured) : Decidable (Satisfies found item) := by
  cases item <;> unfold Satisfies <;> infer_instance

/-- No leak comes too late: behind the packet that ends the monitor of the chosen
interface or after that monitor has ended, or on the other interface after its
monitor was stopped. -/
def Watched (whitelistedDest : Ip.IpAddr) (s : LeakTest) : LeakAction → Prop
  | .chosen (.capture item) =>
      s.chosen.ending = some .satisfied → ¬ IsLeak whitelistedDest item
  | .chosen .poll =>
      (∃ item ∈ s.chosen.available.head?, Satisfies s.chosen.conditionState item) →
        ∀ item ∈ s.chosen.available.tail, ¬ IsLeak whitelistedDest item
  | .other (.capture item) => s.other.ending = some .stopped → ¬ IsDns item
  | _ => True

instance (whitelistedDest : Ip.IpAddr) (s : LeakTest) (a : LeakAction) :
    Decidable (Watched whitelistedDest s a) := by
  unfold Watched
  split <;> infer_instance

/-! ### One monitor -/

theorem result_ok_iff {State : Type} {m : PacketMonitor State} {result : MonitorResult} :
    m.result = some (.ok result) ↔
      (∃ ending, m.ending = some ending ∧ ending ≠ .lost) ∧
        result = ⟨m.packets, m.discardedPackets⟩ := by
  rw [PacketMonitor.result, Option.map_eq_some_iff]
  constructor
  · rintro ⟨ending, hending, hresult⟩
    cases ending <;> simp_all
  · rintro ⟨⟨ending, hending, hlost⟩, rfl⟩
    refine ⟨ending, hending, ?_⟩
    cases ending <;> simp_all

/-- The result of a monitor that has ended does not change any more. -/
theorem result_stable {State : Type} {filterFn : ParsedPacket → Bool}
    {shouldContinueFn : State → ParsedPacket → Bool × State} {m next : PacketMonitor State}
    {a : MonitorAction} (h : m.step filterFn shouldContinueFn a = some next)
    {result : Except Unit MonitorResult} (hresult : m.result = some result) :
    next.result = some result := by
  have hending : m.ending ≠ none := by
    intro hnone
    simp [PacketMonitor.result, hnone] at hresult
  cases monitor_move h with
  | capture | endStream | stop | timeout => exact hresult
  | discard _ _ hgoing | accept _ _ hgoing | ignore _ hgoing | fail _ hgoing | idle _ hgoing =>
      exact absurd hgoing hending

/-- The monitor of the chosen interface: nobody stops it, and it leaves no leak
behind. -/
structure ChosenInv (whitelistedDest : Ip.IpAddr) (m : PacketMonitor DnsPacketsFound) :
    Prop where
  accounts : MonitorInv toDns DnsPacketsFound.handlePacket (.new 1 1) m
  sender : m.atStop = none
  timer : m.ending = some .timedOut → m.timedOut = true
  rest : m.ending ≠ none → m.ending ≠ some .lost →
    ∀ item ∈ m.available, ¬ IsLeak whitelistedDest item

/-- While the timer has not run out, only the counter can have ended it. -/
theorem ChosenInv.satisfied {whitelistedDest : Ip.IpAddr} {m : PacketMonitor DnsPacketsFound}
    (h : ChosenInv whitelistedDest m) (htimer : m.timedOut = false) (hended : m.ending ≠ none)
    (hlost : m.ending ≠ some .lost) : m.ending = some .satisfied := by
  cases hending : m.ending with
  | none => exact absurd hending hended
  | some ending =>
      cases ending with
      | satisfied => rfl
      | stopped =>
          obtain ⟨captured, hcaptured, _⟩ := h.accounts.stopped hending
          rw [h.sender] at hcaptured
          cases hcaptured
      | timedOut =>
          rw [h.timer hending] at htimer
          cases htimer
      | lost => exact absurd hending hlost

theorem ChosenInv.step {whitelistedDest : Ip.IpAddr} {s : LeakTest}
    {next : PacketMonitor DnsPacketsFound} {a : MonitorAction}
    (h : ChosenInv whitelistedDest s.chosen) (hwatched : Watched whitelistedDest s (.chosen a))
    (hstop : a ≠ .stop) (htimer : ∀ item, a = .capture item → s.chosen.timedOut = false)
    (hstep : s.chosen.step toDns DnsPacketsFound.handlePacket a = some next) :
    ChosenInv whitelistedDest next := by
  have haccounts := h.accounts.step _ _ _ _ hstep
  cases monitor_move hstep with
  | capture item =>
      refine ⟨haccounts, h.sender, h.timer, ?_⟩
      intro hended hlost other hother
      rcases List.mem_append.mp hother with hold | hnew
      · exact h.rest hended hlost other hold
      · obtain rfl := List.mem_singleton.mp hnew
        exact hwatched (h.satisfied (htimer other rfl) hended hlost)
  | endStream => exact ⟨haccounts, h.sender, h.timer, h.rest⟩
  | timeout => exact ⟨haccounts, h.sender, fun _ => rfl, h.rest⟩
  | stop => exact absurd rfl hstop
  | discard packet rest hgoing havailable hfilter =>
      exact ⟨haccounts, h.sender, h.timer, fun hended => absurd hgoing hended⟩
  | accept packet rest hgoing havailable hfilter =>
      refine ⟨haccounts, h.sender, ?_, ?_⟩
      · intro htimedOut
        split at htimedOut <;> cases htimedOut
      · intro hended _ item hitem
        have hstops : (s.chosen.conditionState.handlePacket packet).1 = false := by
          by_contra hcontinues
          simp [hcontinues] at hended
        have hsatisfies : ∃ item ∈ s.chosen.available.head?,
            Satisfies s.chosen.conditionState item := by
          rw [havailable]
          exact ⟨.packet packet, rfl, hfilter, hstops⟩
        apply hwatched hsatisfies
        rwa [havailable]
  | ignore rest hgoing havailable =>
      exact ⟨haccounts, h.sender, h.timer, fun hended => absurd hgoing hended⟩
  | fail rest hgoing havailable =>
      refine ⟨haccounts, h.sender, ?_, ?_⟩
      · intro htimedOut
        cases htimedOut
      · intro _ hlost
        exact absurd rfl hlost
  | idle ending hgoing havailable hstopped htimedOut hsatisfied =>
      refine ⟨haccounts, h.sender, htimedOut, ?_⟩
      intro _ _ item hitem
      rw [havailable] at hitem
      cases hitem

/-- The monitor of the other interface: it has no timeout, ends at the first
packet that it records, and leaves no packet to port 53 behind when it is
stopped. -/
structure OtherInv (m : PacketMonitor Unit) : Prop where
  accounts : MonitorInv toDns (fun _ _ => (false, ())) () m
  timer : m.timedOut = false
  ended : m.ending ≠ some .timedOut
  satisfied : m.ending = some .satisfied → m.packets ≠ []
  rest : m.ending = some .stopped → ∀ item ∈ m.available, ¬ IsDns item

theorem OtherInv.step {whitelistedDest : Ip.IpAddr} {s : LeakTest} {next : PacketMonitor Unit}
    {a : MonitorAction} (h : OtherInv s.other) (hwatched : Watched whitelistedDest s (.other a))
    (htimer : a ≠ .timeout)
    (hstep : s.other.step toDns (fun _ _ => (false, ())) a = some next) : OtherInv next := by
  have haccounts := h.accounts.step _ _ _ _ hstep
  cases monitor_move hstep with
  | capture item =>
      refine ⟨haccounts, h.timer, h.ended, h.satisfied, ?_⟩
      intro hstopped other hother
      rcases List.mem_append.mp hother with hold | hnew
      · exact h.rest hstopped other hold
      · obtain rfl := List.mem_singleton.mp hnew
        exact hwatched hstopped
  | endStream | stop => exact ⟨haccounts, h.timer, h.ended, h.satisfied, h.rest⟩
  | timeout => exact absurd rfl htimer
  | discard packet rest hgoing havailable hfilter | ignore rest hgoing havailable =>
      refine ⟨haccounts, h.timer, h.ended, h.satisfied, ?_⟩
      intro hstopped
      rw [hgoing] at hstopped
      cases hstopped
  | accept packet rest hgoing havailable hfilter =>
      refine ⟨haccounts, h.timer, ?_, ?_, ?_⟩
      · simp
      · simp
      · intro hstopped
        simp at hstopped
  | fail rest hgoing havailable =>
      refine ⟨haccounts, h.timer, by simp, ?_, ?_⟩
      · intro hsatisfied
        cases hsatisfied
      · intro hstopped
        cases hstopped
  | idle ending hgoing havailable hstopped htimedOut hsatisfied =>
      refine ⟨haccounts, h.timer, ?_, fun h => absurd h hsatisfied, ?_⟩
      · intro hended
        rw [h.timer] at htimedOut
        cases htimedOut hended
      · intro _ item hitem
        rw [havailable] at hitem
        cases hitem

/-! ### The test -/

section

variable {interface : Interface} {whitelistedDest : Ip.IpAddr}

/-- What one step of the test or of its monitors can do. -/
inductive LeakMove (interface : Interface) (whitelistedDest : Ip.IpAddr) (s : LeakTest) :
    LeakAction → LeakTest → Prop
  | chosen (a : MonitorAction) (next : PacketMonitor DnsPacketsFound) (hstop : a ≠ .stop)
      (htimer : ∀ item, a = .capture item → s.chosen.timedOut = false)
      (hstep : s.chosen.step toDns DnsPacketsFound.handlePacket a = some next) :
      LeakMove interface whitelistedDest s (.chosen a) {s with chosen := next}
  | other (a : MonitorAction) (next : PacketMonitor Unit) (htimer : a ≠ .timeout)
      (hstep : s.other.step toDns (fun _ _ => (false, ())) a = some next) :
      LeakMove interface whitelistedDest s (.other a) {s with other := next}
  | joined (result : MonitorResult) (next : PacketMonitor Unit)
      (hresult : s.chosen.result = some (.ok result))
      (hexpected : interface = .tunnel → Expected whitelistedDest result)
      (hstep : s.other.step toDns (fun _ _ => (false, ())) .stop = some next) :
      LeakMove interface whitelistedDest s .join
        {s with phase := .stopping result, other := next}
  | failedJoin : LeakMove interface whitelistedDest s .join {s with phase := .failed}
  | passed (chosenResult result : MonitorResult) (hphase : s.phase = .stopping chosenResult)
      (hresult : s.other.result = some (.ok result)) (hempty : result.packets = [])
      (hexpected : interface = .nonTunnel → Expected whitelistedDest chosenResult) :
      LeakMove interface whitelistedDest s .finish {s with phase := .passed}
  | failedFinish : LeakMove interface whitelistedDest s .finish {s with phase := .failed}

theorem join_move {s next : LeakTest}
    (h : leakTestDns interface whitelistedDest s .join = some next) :
    LeakMove interface whitelistedDest s .join next := by
  simp only [leakTestDns] at h
  split at h
  · split at h
    · cases h
    · cases h
      exact .failedJoin
    · next result hresult =>
      split at h
      · cases h
        exact .failedJoin
      · next hexpected =>
        obtain ⟨stopped, hstopped, rfl⟩ := Option.map_eq_some_iff.mp h
        obtain ⟨other, hother, rfl⟩ := Option.map_eq_some_iff.mp hstopped
        refine .joined result other hresult ?_ hother
        intro htunnel
        by_contra hnot
        exact hexpected ⟨htunnel, hnot⟩
  · cases h

theorem finish_move {s next : LeakTest}
    (h : leakTestDns interface whitelistedDest s .finish = some next) :
    LeakMove interface whitelistedDest s .finish next := by
  simp only [leakTestDns] at h
  split at h
  · next chosenResult hphase =>
    split at h
    · cases h
    · cases h
      exact .failedFinish
    · next result hresult =>
      split at h
      · next hpassed =>
        cases h
        exact .passed chosenResult result hphase hresult
          (List.eq_nil_of_length_eq_zero hpassed.1) hpassed.2
      · cases h
        exact .failedFinish
  · cases h

theorem leakTestDns_move {s next : LeakTest} {a : LeakAction}
    (h : leakTestDns interface whitelistedDest s a = some next) :
    LeakMove interface whitelistedDest s a next := by
  have hchosen : ∀ {a}, a ≠ .stop →
      (∀ item, a = .capture item → s.chosen.timedOut = false) → s.stepChosen a = some next →
      LeakMove interface whitelistedDest s (.chosen a) next := by
    intro a hstop htimer hstep
    obtain ⟨chosen, hnext, rfl⟩ := Option.map_eq_some_iff.mp hstep
    exact .chosen a chosen hstop htimer hnext
  have hother : ∀ {a}, a ≠ .timeout → s.stepOther a = some next →
      LeakMove interface whitelistedDest s (.other a) next := by
    intro a htimer hstep
    obtain ⟨other, hnext, rfl⟩ := Option.map_eq_some_iff.mp hstep
    exact .other a other htimer hnext
  cases a with
  | chosen a =>
      cases a with
      | capture item =>
          simp only [leakTestDns] at h
          split at h
          · cases h
          · next htimer => exact hchosen (by simp) (fun _ _ => by simpa using htimer) h
      | stop => cases h
      | endStream | timeout | poll => exact hchosen (by simp) (by simp) h
  | other a =>
      cases a with
      | capture item =>
          simp only [leakTestDns] at h
          split at h
          · cases h
          · exact hother (by simp) h
      | stop => cases h
      | timeout => cases h
      | endStream | poll => exact hother (by simp) h
  | join => exact join_move h
  | finish => exact finish_move h

/-- What the test knows of the results in each of its phases. -/
structure LeakInv (interface : Interface) (whitelistedDest : Ip.IpAddr) (s : LeakTest) : Prop where
  chosen : ChosenInv whitelistedDest s.chosen
  other : OtherInv s.other
  stopping : ∀ result, s.phase = .stopping result →
    s.chosen.result = some (.ok result) ∧
      (interface = .tunnel → Expected whitelistedDest result)
  passed : s.phase = .passed → ∃ chosenResult otherResult,
    s.chosen.result = some (.ok chosenResult) ∧ Expected whitelistedDest chosenResult ∧
      s.other.result = some (.ok otherResult) ∧ otherResult.packets = []

theorem LeakInv.initial : LeakInv interface whitelistedDest LeakTest.new where
  chosen := ⟨.initial _, rfl, by simp [LeakTest.new, PacketMonitor.start], by
    simp [LeakTest.new, PacketMonitor.start]⟩
  other := ⟨.initial _, rfl, by simp [LeakTest.new, PacketMonitor.start], by
    simp [LeakTest.new, PacketMonitor.start], by simp [LeakTest.new, PacketMonitor.start]⟩
  stopping := by simp [LeakTest.new]
  passed := by simp [LeakTest.new]

theorem LeakInv.step (s : LeakTest) (a : LeakAction) (next : LeakTest)
    (h : LeakInv interface whitelistedDest s) (hwatched : Watched whitelistedDest s a)
    (hstep : leakTestDns interface whitelistedDest s a = some next) :
    LeakInv interface whitelistedDest next := by
  cases leakTestDns_move hstep with
  | chosen a chosen hstop htimer hmonitor =>
      refine ⟨h.chosen.step hwatched hstop htimer hmonitor, h.other, ?_, ?_⟩
      · intro result hphase
        obtain ⟨hresult, hexpected⟩ := h.stopping result hphase
        exact ⟨result_stable hmonitor hresult, hexpected⟩
      · intro hphase
        obtain ⟨chosenResult, otherResult, hresult, hrest⟩ := h.passed hphase
        exact ⟨chosenResult, otherResult, result_stable hmonitor hresult, hrest⟩
  | other a other htimer hmonitor =>
      refine ⟨h.chosen, h.other.step hwatched htimer hmonitor, h.stopping, ?_⟩
      intro hphase
      obtain ⟨chosenResult, otherResult, hresult, hexpected, hother, hempty⟩ := h.passed hphase
      exact ⟨chosenResult, otherResult, hresult, hexpected, result_stable hmonitor hother, hempty⟩
  | joined result other hresult hexpected hmonitor =>
      have hstop : Watched whitelistedDest s (.other .stop) := trivial
      refine ⟨h.chosen, h.other.step hstop (by simp) hmonitor, ?_, by simp⟩
      rintro other ⟨rfl⟩
      exact ⟨hresult, hexpected⟩
  | failedJoin | failedFinish => exact ⟨h.chosen, h.other, by simp, by simp⟩
  | passed chosenResult result hphase hresult hempty hexpected =>
      obtain ⟨hchosen, htunnel⟩ := h.stopping chosenResult hphase
      refine ⟨h.chosen, h.other, by simp, ?_⟩
      intro _
      refine ⟨chosenResult, result, hchosen, ?_, hresult, hempty⟩
      cases interface with
      | tunnel => exact htunnel rfl
      | nonTunnel => exact hexpected rfl

/-! ### The traffic -/

theorem mem_parsed {items : List Captured} {packet : ParsedPacket} :
    packet ∈ parsed items ↔ .packet packet ∈ items := by
  simp only [parsed, List.mem_filterMap]
  constructor
  · rintro ⟨item, hitem, hpacket⟩
    cases item with
    | packet other =>
        cases hpacket
        exact hitem
    | ignored => cases hpacket
    | error => cases hpacket
  · intro hpacket
    exact ⟨_, hpacket, rfl⟩

theorem step_traffic {s next : LeakTest} {a : LeakAction}
    (h : leakTestDns interface whitelistedDest s a = some next) :
    next.chosen.consumed ++ next.chosen.available =
        s.chosen.consumed ++ s.chosen.available ++ captures (chosenActions [a]) ∧
      next.other.consumed ++ next.other.available =
        s.other.consumed ++ s.other.available ++ captures (otherActions [a]) := by
  cases leakTestDns_move h with
  | chosen a chosen _ _ hmonitor =>
      exact ⟨step_captures hmonitor, by simp [otherActions, captures]⟩
  | other a other _ hmonitor =>
      exact ⟨by simp [chosenActions, captures], step_captures hmonitor⟩
  | joined result other _ _ hmonitor =>
      exact ⟨by simp [chosenActions, captures], step_captures hmonitor⟩
  | failedJoin | passed | failedFinish =>
      exact ⟨by simp [chosenActions, captures], by simp [otherActions, captures]⟩

/-- All that was captured on an interface was consumed by its monitor or is still
there. -/
theorem run_traffic (actions : List LeakAction) {s last : LeakTest}
    (h : run (leakTestDns interface whitelistedDest) s actions = some last) :
    last.chosen.consumed ++ last.chosen.available =
        s.chosen.consumed ++ s.chosen.available ++ captures (chosenActions actions) ∧
      last.other.consumed ++ last.other.available =
        s.other.consumed ++ s.other.available ++ captures (otherActions actions) := by
  induction actions generalizing s with
  | nil =>
      cases h
      simp [chosenActions, otherActions, captures]
  | cons a rest ih =>
      obtain ⟨next, hstep, htail⟩ := Option.bind_eq_some_iff.mp h
      obtain ⟨hchosen, hother⟩ := ih htail
      obtain ⟨hchosen₁, hother₁⟩ := step_traffic hstep
      have hchosenActions : chosenActions (a :: rest) =
          chosenActions [a] ++ chosenActions rest := by
        rw [chosenActions, chosenActions, chosenActions, ← List.filterMap_append]
        rfl
      have hotherActions : otherActions (a :: rest) = otherActions [a] ++ otherActions rest := by
        rw [otherActions, otherActions, otherActions, ← List.filterMap_append]
        rfl
      constructor
      · rw [hchosen, hchosen₁, hchosenActions, captures_append, ← List.append_assoc]
      · rw [hother, hother₁, hotherActions, captures_append, ← List.append_assoc]

end

/-- What the chosen interface's monitor has recorded and what it has left tell of all
its traffic. -/
theorem ChosenInv.noLeak {whitelistedDest : Ip.IpAddr} {m : PacketMonitor DnsPacketsFound}
    (h : ChosenInv whitelistedDest m) {result : MonitorResult}
    (hresult : m.result = some (.ok result)) (hexpected : Expected whitelistedDest result) :
    (∃ pkt ∈ parsed (m.consumed ++ m.available), pkt.destination = ⟨whitelistedDest, 53⟩) ∧
      ∀ pkt ∈ parsed (m.consumed ++ m.available), pkt.destination.port = 53 →
        pkt.destination = ⟨whitelistedDest, 53⟩ := by
  obtain ⟨⟨ending, hending, hlost⟩, rfl⟩ := result_ok_iff.mp hresult
  obtain ⟨hcount, hdestination⟩ := hexpected
  have hrecorded : ∀ pkt, pkt ∈ m.packets ↔
      pkt ∈ parsed m.consumed ∧ pkt.destination.port = 53 := by
    intro pkt
    rw [h.accounts.packets, List.mem_filter]
    simp [toDns]
  rw [parsed_append]
  constructor
  · obtain ⟨pkt, hpkt⟩ := List.exists_mem_of_length_pos (Nat.lt_of_lt_of_le Nat.two_pos hcount)
    refine ⟨pkt, ?_, hdestination pkt hpkt⟩
    exact List.mem_append_left _ ((hrecorded pkt).mp hpkt).1
  · intro pkt hpkt hport
    rcases List.mem_append.mp hpkt with hseen | hleft
    · exact hdestination pkt ((hrecorded pkt).mpr ⟨hseen, hport⟩)
    · by_contra hleak
      have hended : m.ending ≠ none := by simp [hending]
      have hnotLost : m.ending ≠ some .lost := by simpa [hending] using hlost
      exact h.rest hended hnotLost _ (mem_parsed.mp hleft) ⟨hport, hleak⟩

theorem OtherInv.noLeak {m : PacketMonitor Unit} (h : OtherInv m) {result : MonitorResult}
    (hresult : m.result = some (.ok result)) (hempty : result.packets = []) :
    ∀ pkt ∈ parsed (m.consumed ++ m.available), pkt.destination.port ≠ 53 := by
  obtain ⟨⟨ending, hending, hlost⟩, rfl⟩ := result_ok_iff.mp hresult
  have hnone : m.packets = [] := hempty
  intro pkt hpkt hport
  rw [parsed_append] at hpkt
  rcases List.mem_append.mp hpkt with hseen | hleft
  · have hmem : pkt ∈ m.packets := by
      rw [h.accounts.packets, List.mem_filter]
      exact ⟨hseen, by simpa [toDns] using hport⟩
    rw [hnone] at hmem
    cases hmem
  · -- the monitor has recorded nothing and has no timeout, so it was stopped
    have hstopped : m.ending = some .stopped := by
      rw [hending]
      cases ending with
      | satisfied => exact absurd hnone (h.satisfied hending)
      | stopped => rfl
      | timedOut => exact absurd hending h.ended
      | lost => exact absurd rfl hlost
    exact h.rest hstopped _ (mem_parsed.mp hleft) hport

/-- If the test passes in a run in which no leak comes too late for its monitor,
there is no leak in all the traffic of the run. -/
theorem leak_test_sound (interface : Interface) (whitelistedDest : Ip.IpAddr)
    (actions : List LeakAction) (s : LeakTest)
    (hmeets : Meets (leakTestDns interface whitelistedDest) (Watched whitelistedDest)
      LeakTest.new actions)
    (hrun : run (leakTestDns interface whitelistedDest) LeakTest.new actions = some s)
    (hpassed : s.phase = .passed) :
    NoLeak whitelistedDest (parsed (captures (chosenActions actions)))
      (parsed (captures (otherActions actions))) := by
  have hinv : LeakInv interface whitelistedDest s :=
    run_preserves_of_meets LeakInv.step actions .initial hmeets hrun
  obtain ⟨hchosenTraffic, hotherTraffic⟩ := run_traffic actions hrun
  obtain ⟨chosenResult, otherResult, hchosen, hexpected, hother, hempty⟩ := hinv.passed hpassed
  rw [show captures (chosenActions actions) = s.chosen.consumed ++ s.chosen.available by
    simpa [LeakTest.new, PacketMonitor.start] using hchosenTraffic.symm]
  rw [show captures (otherActions actions) = s.other.consumed ++ s.other.available by
    simpa [LeakTest.new, PacketMonitor.start] using hotherTraffic.symm]
  obtain ⟨hthere, honly⟩ := hinv.chosen.noLeak hchosen hexpected
  exact ⟨hthere, honly, hinv.other.noLeak hother hempty⟩

/-- A packet to port 53 of the address of which every octet is `octet`. -/
def dnsPacketTo (octet protocol : UInt8) : LeakAction :=
  .chosen (.capture (.packet ⟨⟨.v4 fun _ => 1, 40000⟩, ⟨.v4 fun _ => octet, 53⟩, protocol⟩))

/-- The test when `captured` is there before the chosen interface's monitor polls
for the first packet, and the monitor ends after two packets. -/
def leakTestActions (captured : List LeakAction) : List LeakAction :=
  LeakAction.chosen .poll :: LeakAction.other .poll :: captured ++
    [LeakAction.chosen .poll, .chosen .poll, .join, .other .poll, .finish]

theorem leakTestActions_sound :
    ∃ s, run (leakTestDns .tunnel (.v4 fun _ => 2)) LeakTest.new
        (leakTestActions [dnsPacketTo 2 Ip.udp, dnsPacketTo 2 Ip.tcp]) = some s ∧
      s.phase = .passed ∧
      NoLeak (.v4 fun _ => 2)
        (parsed (captures (chosenActions
          (leakTestActions [dnsPacketTo 2 Ip.udp, dnsPacketTo 2 Ip.tcp]))))
        (parsed (captures (otherActions
          (leakTestActions [dnsPacketTo 2 Ip.udp, dnsPacketTo 2 Ip.tcp])))) := by
  have hrun : (run (leakTestDns .tunnel (.v4 fun _ => 2)) LeakTest.new
      (leakTestActions [dnsPacketTo 2 Ip.udp, dnsPacketTo 2 Ip.tcp])).map LeakTest.phase =
      some .passed := by decide
  obtain ⟨s, hs, hpassed⟩ := Option.map_eq_some_iff.mp hrun
  exact ⟨s, hs, hpassed, leak_test_sound _ _ _ s (by decide) hs hpassed⟩

/-- The packet to another destination is captured last, and the test passes before
its monitor has seen it. -/
theorem late_leak_passes :
    ∃ s, run (leakTestDns .tunnel (.v4 fun _ => 2)) LeakTest.new
        (leakTestActions [dnsPacketTo 2 Ip.udp, dnsPacketTo 2 Ip.tcp, dnsPacketTo 3 Ip.udp]) =
          some s ∧
      s.phase = .passed ∧
      ¬ NoLeak (.v4 fun _ => 2)
        (parsed (captures (chosenActions (leakTestActions
          [dnsPacketTo 2 Ip.udp, dnsPacketTo 2 Ip.tcp, dnsPacketTo 3 Ip.udp]))))
        (parsed (captures (otherActions (leakTestActions
          [dnsPacketTo 2 Ip.udp, dnsPacketTo 2 Ip.tcp, dnsPacketTo 3 Ip.udp])))) := by
  have hrun : (run (leakTestDns .tunnel (.v4 fun _ => 2)) LeakTest.new
      (leakTestActions [dnsPacketTo 2 Ip.udp, dnsPacketTo 2 Ip.tcp,
        dnsPacketTo 3 Ip.udp])).map LeakTest.phase = some .passed := by decide
  obtain ⟨s, hs, hpassed⟩ := Option.map_eq_some_iff.mp hrun
  refine ⟨s, hs, hpassed, ?_⟩
  rintro ⟨_, honly, _⟩
  have hleak := honly ⟨⟨.v4 fun _ => 1, 40000⟩, ⟨.v4 fun _ => 3, 53⟩, Ip.udp⟩ (by decide) rfl
  exact absurd hleak (by decide)

end MullvadAppTests.TestManager
