import MullvadAppTests.TestManager.LeakTestDns

/-!
What a test learns from a packet monitor that has ended. The loop ends in one of
its polls, and what arrives later is not seen. `send_guest_probes` of
`test-manager/src/tests/helpers.rs` waits for a monitor that only the timeout
ends; `run_dns_config_test` of `test-manager/src/tests/dns.rs` waits for one that
ends with the first packet to port 53.
-/

namespace MullvadAppTests.TestManager

open Lib Lib.Transition

section

variable {State : Type} {filterFn : ParsedPacket → Bool}
  {shouldContinueFn : State → ParsedPacket → Bool × State}

/-! ### The poll in which the loop ends -/

/-- What the loop has recorded. -/
structure SameRecord (m next : PacketMonitor State) : Prop where
  packets : next.packets = m.packets
  discardedPackets : next.discardedPackets = m.discardedPackets
  consumed : next.consumed = m.consumed
  ending : next.ending = m.ending

/-- Nothing is recorded any more once the loop has ended. -/
theorem sameRecord_of_ended {m next : PacketMonitor State} {a : MonitorAction}
    (hended : m.ending ≠ none) (h : m.step filterFn shouldContinueFn a = some next) :
    SameRecord m next := by
  cases monitor_move h with
  | capture | endStream | stop | timeout => exact ⟨rfl, rfl, rfl, rfl⟩
  | discard _ _ hgoing | accept _ _ hgoing | ignore _ hgoing | fail _ hgoing | idle _ hgoing =>
      exact absurd hgoing hended

theorem ending_of_not_poll {m next : PacketMonitor State} {a : MonitorAction} (ha : a ≠ .poll)
    (h : m.step filterFn shouldContinueFn a = some next) : next.ending = m.ending := by
  cases monitor_move h with
  | capture | endStream | stop | timeout => rfl
  | discard | accept | ignore | fail | idle => exact absurd rfl ha

/-- The monitor ended in a poll; `middle` is its state before that, `next` after. -/
structure EndedAt (filterFn : ParsedPacket → Bool)
    (shouldContinueFn : State → ParsedPacket → Bool × State) (s : PacketMonitor State)
    (before : List MonitorAction) (middle next m : PacketMonitor State) : Prop where
  run : run (PacketMonitor.step filterFn shouldContinueFn) s before = some middle
  going : middle.ending = none
  poll : middle.step filterFn shouldContinueFn .poll = some next
  record : SameRecord next m

theorem run_ended {s m : PacketMonitor State} (actions : List MonitorAction)
    (hstart : s.ending = none)
    (hrun : run (PacketMonitor.step filterFn shouldContinueFn) s actions = some m)
    (hended : m.ending ≠ none) :
    ∃ before after middle next, actions = before ++ .poll :: after ∧
      EndedAt filterFn shouldContinueFn s before middle next m := by
  induction actions using List.reverseRecOn generalizing m with
  | nil =>
      cases hrun
      exact absurd hstart hended
  | append_singleton actions a ih =>
      rw [run_append] at hrun
      obtain ⟨middle, hmiddle, hlast⟩ := Option.bind_eq_some_iff.mp hrun
      obtain ⟨next, hstep, hnext⟩ := Option.bind_eq_some_iff.mp hlast
      obtain rfl : next = m := Option.some.inj hnext
      by_cases hgoing : middle.ending = none
      · obtain rfl : a = .poll := by
          by_contra ha
          exact hended ((ending_of_not_poll ha hstep).trans hgoing)
        exact ⟨actions, [], middle, next, rfl, hmiddle, hgoing, hstep, ⟨rfl, rfl, rfl, rfl⟩⟩
      · obtain ⟨before, after, earlier, first, rfl, hat⟩ := ih hmiddle hgoing
        have hsame := sameRecord_of_ended hgoing hstep
        refine ⟨before, after ++ [a], earlier, first, by simp, hat.run, hat.going, hat.poll, ?_⟩
        exact ⟨hsame.packets.trans hat.record.packets,
          hsame.discardedPackets.trans hat.record.discardedPackets,
          hsame.consumed.trans hat.record.consumed, hsame.ending.trans hat.record.ending⟩

/-- The stop and the timeout are only noticed when nothing else is there. -/
theorem EndedAt.consumed_eq {conditionState : State} {before : List MonitorAction}
    {middle next m : PacketMonitor State}
    (h : EndedAt filterFn shouldContinueFn (.start conditionState) before middle next m)
    (hending : m.ending = some .stopped ∨ m.ending = some .timedOut) :
    m.consumed = captures before ∧ m.packets = middle.packets := by
  obtain ⟨hrun, hgoing, hpoll, hrecord⟩ := h
  have hcaptures : middle.consumed ++ middle.available = captures before := by
    simpa [PacketMonitor.start] using run_captures before hrun
  rw [hrecord.ending] at hending
  rw [hrecord.consumed, hrecord.packets]
  cases monitor_move hpoll with
  | discard | ignore => simp [hgoing] at hending
  | accept =>
      dsimp only at hending
      split at hending <;> simp at hending
  | fail => simp at hending
  | idle ending _ havailable =>
      rw [havailable, List.append_nil] at hcaptures
      exact ⟨hcaptures, rfl⟩

/-- The last packet is the one for which the closure has answered no. -/
theorem EndedAt.satisfied {before : List MonitorAction} {s middle next m : PacketMonitor State}
    (h : EndedAt filterFn shouldContinueFn s before middle next m)
    (hending : m.ending = some .satisfied) :
    ∃ packet rest, middle.available = .packet packet :: rest ∧ filterFn packet = true ∧
      (shouldContinueFn middle.conditionState packet).1 = false ∧
      m.packets = middle.packets ++ [packet] := by
  obtain ⟨hrun, hgoing, hpoll, hrecord⟩ := h
  rw [hrecord.ending] at hending
  rw [hrecord.packets]
  cases monitor_move hpoll with
  | discard | ignore => simp [hgoing] at hending
  | fail => cases hending
  | accept packet rest _ havailable hfilter =>
      refine ⟨packet, rest, havailable, hfilter, ?_, rfl⟩
      dsimp only at hending
      split at hending
      · cases hending
      · next hanswer => simpa using hanswer
  | idle ending _ _ _ _ hsatisfied => exact absurd hending hsatisfied

theorem result_ok {m : PacketMonitor State} {result : MonitorResult}
    (h : m.result = some (.ok result)) :
    result = ⟨m.packets, m.discardedPackets⟩ ∧
      (m.ending = some .satisfied ∨ m.ending = some .stopped ∨ m.ending = some .timedOut) := by
  obtain ⟨ending, hending, hok⟩ := Option.map_eq_some_iff.mp h
  cases ending <;> simp_all

end

/-! ### Probes -/

/-- `IpNextHeaderProtocols::Icmp`. -/
def icmp : UInt8 := 1

structure ProbeResult where
  tcp : Nat
  udp : Nat
  icmp : Nat
  deriving DecidableEq, Repr

namespace ProbeResult

def all (result : ProbeResult) : Bool := 0 < result.tcp && 0 < result.udp && 0 < result.icmp

def any (result : ProbeResult) : Bool := 0 < result.tcp || 0 < result.udp || 0 < result.icmp

def none (result : ProbeResult) : Bool := !result.any

/-- One packet in the loop of `send_guest_probes`. -/
def add (result : ProbeResult) (pkt : ParsedPacket) : ProbeResult :=
  if pkt.protocol = Ip.tcp then {result with tcp := min (result.tcp + 1) usizeMax}
  else if pkt.protocol = Ip.udp then {result with udp := min (result.udp + 1) usizeMax}
  else if pkt.protocol = TestManager.icmp then
    {result with icmp := min (result.icmp + 1) usizeMax}
  else result

def ofPackets (packets : List ParsedPacket) : ProbeResult := packets.foldl add ⟨0, 0, 0⟩

end ProbeResult

/-- The packets with a protocol. -/
def countProtocol (protocol : UInt8) (packets : List ParsedPacket) : Nat :=
  packets.countP fun packet => packet.protocol = protocol

theorem foldl_saturating (p : ParsedPacket → Bool) (packets : List ParsedPacket) (n : Nat) :
    packets.foldl (fun n packet => if p packet then min (n + 1) usizeMax else n) (min n usizeMax) =
      min (n + packets.countP p) usizeMax := by
  induction packets generalizing n with
  | nil => rfl
  | cons packet rest ih =>
      rw [List.foldl_cons, List.countP_cons]
      split
      · have hsucc : min (min n usizeMax + 1) usizeMax = min (n + 1) usizeMax := by omega
        rw [hsucc, ih]
        congr 1
        omega
      · rw [ih, Nat.add_zero]

/-- The three counters do not get in each other's way. -/
theorem add_fields (result : ProbeResult) (pkt : ParsedPacket) :
    (result.add pkt).tcp =
        (if pkt.protocol = Ip.tcp then min (result.tcp + 1) usizeMax else result.tcp) ∧
      (result.add pkt).udp =
        (if pkt.protocol = Ip.udp then min (result.udp + 1) usizeMax else result.udp) ∧
      (result.add pkt).icmp =
        (if pkt.protocol = icmp then min (result.icmp + 1) usizeMax else result.icmp) := by
  have hdistinct : Ip.tcp ≠ Ip.udp ∧ Ip.tcp ≠ icmp ∧ Ip.udp ≠ icmp := by decide
  unfold ProbeResult.add
  by_cases htcp : pkt.protocol = Ip.tcp
  · simp [htcp, hdistinct]
  by_cases hudp : pkt.protocol = Ip.udp
  · simp [hudp, hdistinct, hdistinct.1.symm]
  by_cases hicmp : pkt.protocol = icmp
  · simp [hicmp, hdistinct.2.1.symm, hdistinct.2.2.symm]
  · simp [htcp, hudp, hicmp]

theorem ofPackets_eq (packets : List ParsedPacket) :
    ProbeResult.ofPackets packets =
      ⟨min (countProtocol Ip.tcp packets) usizeMax, min (countProtocol Ip.udp packets) usizeMax,
        min (countProtocol icmp packets) usizeMax⟩ := by
  have hcount : ∀ (protocol : UInt8) (field : ProbeResult → Nat),
      (∀ result pkt, field (result.add pkt) =
        if pkt.protocol = protocol then min (field result + 1) usizeMax else field result) →
      field ⟨0, 0, 0⟩ = 0 →
      field (ProbeResult.ofPackets packets) = min (countProtocol protocol packets) usizeMax := by
    intro protocol field hfield hzero
    have hfold := foldl_saturating (fun pkt => pkt.protocol = protocol) packets 0
    have hhom : packets.foldl (fun n pkt =>
        if decide (pkt.protocol = protocol) = true then min (n + 1) usizeMax else n)
        (field ⟨0, 0, 0⟩) = field (ProbeResult.ofPackets packets) := by
      apply List.foldl_hom
      intro result pkt
      simp [hfield]
    rw [hzero] at hhom
    rw [Nat.zero_min, Nat.zero_add] at hfold
    rw [← hhom, hfold, countProtocol]
  have htcp := hcount Ip.tcp ProbeResult.tcp (fun result pkt => (add_fields result pkt).1) rfl
  have hudp := hcount Ip.udp ProbeResult.udp (fun result pkt => (add_fields result pkt).2.1) rfl
  have hicmp := hcount icmp ProbeResult.icmp (fun result pkt => (add_fields result pkt).2.2) rfl
  cases hresult : ProbeResult.ofPackets packets
  simp_all

theorem positive_ofPackets (packets : List ParsedPacket) :
    ((ProbeResult.ofPackets packets).none = true ↔
        ∀ packet ∈ packets, packet.protocol ≠ Ip.tcp ∧ packet.protocol ≠ Ip.udp ∧
          packet.protocol ≠ icmp) ∧
      ((ProbeResult.ofPackets packets).all = true ↔
        ∀ protocol ∈ [Ip.tcp, Ip.udp, icmp], ∃ packet ∈ packets, packet.protocol = protocol) := by
  have hmax : 0 < usizeMax := by decide
  have hpositive : ∀ protocol, 0 < min (countProtocol protocol packets) usizeMax ↔
      ∃ packet ∈ packets, packet.protocol = protocol := by
    intro protocol
    simp [hmax, countProtocol]
  simp only [ofPackets_eq, ProbeResult.none, ProbeResult.any, ProbeResult.all, hpositive,
    Bool.not_eq_true', Bool.or_eq_false_iff, Bool.and_eq_true, decide_eq_false_iff_not,
    decide_eq_true_eq, not_exists, not_and, List.forall_mem_cons]
  constructor
  · constructor
    · rintro ⟨⟨htcp, hudp⟩, hicmp⟩ packet hpacket
      exact ⟨htcp packet hpacket, hudp packet hpacket, hicmp packet hpacket⟩
    · intro h
      exact ⟨⟨fun packet hpacket => (h packet hpacket).1,
        fun packet hpacket => (h packet hpacket).2.1⟩,
        fun packet hpacket => (h packet hpacket).2.2⟩
  · simp [and_assoc]

inductive ProbeError where
  | interfaceIp (message : String)
  | monitorStopped
  deriving DecidableEq, Repr

/-- The filter of `send_guest_probes`. -/
def toAddress (destination : SocketAddr) (packet : ParsedPacket) : Bool :=
  packet.destination.ip = destination.ip

/-- `send_guest_probes`, given the state of its monitor. The address of the
interface is asked for if there is one; whether the probes can be sent does not
matter. -/
def sendGuestProbes (interfaceIp : Option (Except String Ip.IpAddr)) (m : PacketMonitor Unit) :
    Option (Except ProbeError ProbeResult) :=
  match interfaceIp with
  | some (.error e) => some (.error (.interfaceIp e))
  | _ =>
      m.result.map fun result =>
        match result with
        | .error _ => .error .monitorStopped
        | .ok result => .ok (.ofPackets result.packets)

/-- `start_packet_monitor` does not stop for any packet. -/
abbrev stepAll (filterFn : ParsedPacket → Bool) :
    PacketMonitor Unit → MonitorAction → Option (PacketMonitor Unit) :=
  PacketMonitor.step filterFn fun _ _ => (true, ())

/-- A monitor that does not stop by itself has seen all that had arrived before
the poll in which it was stopped or timed out. -/
theorem packets_of_result {filterFn : ParsedPacket → Bool} {actions : List MonitorAction}
    {m : PacketMonitor Unit} {result : MonitorResult}
    (hrun : run (stepAll filterFn) (.start ()) actions = some m)
    (hresult : m.result = some (.ok result)) :
    ∃ before after middle next, actions = before ++ .poll :: after ∧
      EndedAt filterFn (fun _ _ => (true, ())) (.start ()) before middle next m ∧
      m.consumed = captures before ∧
      result = ⟨(parsed (captures before)).filter filterFn,
        min ((parsed (captures before)).countP fun packet => !filterFn packet) usizeMax⟩ := by
  obtain ⟨rfl, hending⟩ := result_ok hresult
  have hended : m.ending ≠ none := by
    rcases hending with h | h | h <;> simp [h]
  obtain ⟨before, after, middle, next, hactions, hat⟩ := run_ended actions rfl hrun hended
  have hinv : MonitorInv filterFn (fun _ _ => (true, ())) () m :=
    run_preserves (MonitorInv.step ()) actions (.initial ()) hrun
  have hquiet : m.ending = some .stopped ∨ m.ending = some .timedOut := by
    rcases hending with hsatisfied | hquiet
    · obtain ⟨packet, rest, _, _, hanswer, _⟩ := hat.satisfied hsatisfied
      cases hanswer
    · exact hquiet
  have hconsumed := (hat.consumed_eq hquiet).1
  refine ⟨before, after, middle, next, hactions, hat, hconsumed, ?_⟩
  rw [← hconsumed, ← hinv.packets, ← hinv.discarded]

/-- In every run of the monitor, whatever arrives and whenever it is polled: the
result counts the packets to the destination that had arrived before the poll
that ended the loop. It is `none` exactly if no TCP, UDP or ICMP packet was among
them, and `all` exactly if each of the three was. ICMPv6 counts for neither. -/
theorem guest_probes_exact (interfaceIp : Option (Except String Ip.IpAddr))
    (destination : SocketAddr) (actions : List MonitorAction) (m : PacketMonitor Unit)
    (result : ProbeResult)
    (hrun : run (stepAll (toAddress destination)) (.start ()) actions = some m)
    (hresult : sendGuestProbes interfaceIp m = some (.ok result)) :
    ∃ before after middle next, actions = before ++ .poll :: after ∧
      EndedAt (toAddress destination) (fun _ _ => (true, ())) (.start ()) before middle next m ∧
      m.consumed = captures before ∧
      let seen := (parsed (captures before)).filter fun packet =>
        packet.destination.ip = destination.ip
      result = ⟨min (countProtocol Ip.tcp seen) usizeMax, min (countProtocol Ip.udp seen) usizeMax,
          min (countProtocol icmp seen) usizeMax⟩ ∧
        (result.none = true ↔ ∀ packet ∈ seen, packet.protocol ≠ Ip.tcp ∧
          packet.protocol ≠ Ip.udp ∧ packet.protocol ≠ icmp) ∧
        (result.all = true ↔ ∀ protocol ∈ [Ip.tcp, Ip.udp, icmp],
          ∃ packet ∈ seen, packet.protocol = protocol) := by
  obtain ⟨monitored, hmonitored, rfl⟩ : ∃ monitored : MonitorResult,
      m.result = some (.ok monitored) ∧ result = .ofPackets monitored.packets := by
    unfold sendGuestProbes at hresult
    split at hresult
    · simp at hresult
    · obtain ⟨outcome, houtcome, hok⟩ := Option.map_eq_some_iff.mp hresult
      cases outcome with
      | error => simp at hok
      | ok monitored => exact ⟨monitored, houtcome, (Except.ok.inj hok).symm⟩
  obtain ⟨before, after, middle, next, hactions, hat, hconsumed, rfl⟩ :=
    packets_of_result hrun hmonitored
  exact ⟨before, after, middle, next, hactions, hat, hconsumed, ofPackets_eq _,
    positive_ofPackets _⟩

/-- A TCP packet arrives before the timeout is noticed, an ICMP packet after. -/
def lateEcho : List MonitorAction :=
  [.poll, .capture (.packet {packetTo 80 with protocol := Ip.tcp}), .timeout, .poll, .poll,
    .capture (.packet {packetTo 80 with protocol := icmp})]

theorem lateEcho_exact :
    ∃ m before after middle next,
      run (stepAll (toAddress ⟨.v4 fun _ => 2, 1337⟩)) (.start ()) lateEcho = some m ∧
      sendGuestProbes none m = some (.ok ⟨1, 0, 0⟩) ∧
      lateEcho = before ++ .poll :: after ∧
      EndedAt (toAddress ⟨.v4 fun _ => 2, 1337⟩) (fun _ _ => (true, ())) (.start ()) before middle
        next m ∧
      (countProtocol Ip.tcp ((parsed (captures before)).filter fun packet =>
        packet.destination.ip = .v4 fun _ => 2)) ≠ 0 := by
  have hrun : (run (stepAll (toAddress ⟨.v4 fun _ => 2, 1337⟩)) (.start ()) lateEcho).map
      (sendGuestProbes none) = some (some (.ok ⟨1, 0, 0⟩)) := by decide
  obtain ⟨m, hm, hprobes⟩ := Option.map_eq_some_iff.mp hrun
  obtain ⟨before, after, middle, next, hactions, hat, _, hcounts, _⟩ :=
    guest_probes_exact none ⟨.v4 fun _ => 2, 1337⟩ lateEcho m ⟨1, 0, 0⟩ hm hprobes
  refine ⟨m, before, after, middle, next, hm, hprobes, hactions, hat, ?_⟩
  intro hzero
  have htcp := congrArg ProbeResult.tcp hcounts
  simp [hzero] at htcp

/-! ### The resolver that is used -/

/-- What the calls of `run_dns_config_test` give; `connected` is whether the tunnel
is up already. -/
structure DnsConfigCalls where
  connected : Except String Bool
  connectLocalWgRelay : Except String Unit
  guestIp : Except String Ip.IpAddr
  tunnelIp : Except String Ip.IpAddr

/-- The closure with which the monitor is created: it stops at port 53, and gets no
other packet. -/
def untilDns (_ : Unit) (packet : ParsedPacket) : Bool × Unit := (packet.destination.port ≠ 53, ())

/-- The calls before the monitor is created. -/
def DnsConfigCalls.prepare (calls : DnsConfigCalls) : Except String Unit := do
  let connected ← calls.connected
  if connected = false then calls.connectLocalWgRelay
  let _ ← calls.guestIp
  let _ ← calls.tunnelIp

/-- The assertion on the first packet. The index is out of bounds if there is none. -/
def checkResolver (expectedDnsResolver : Ip.IpAddr) (result : MonitorResult) : Except String Unit :=
  match result.packets with
  | [] => .error "index out of bounds"
  | packet :: _ =>
      if packet.destination = ⟨expectedDnsResolver, 53⟩ then .ok ()
      else .error "expected tunnel packet to expected destination"

/-- `run_dns_config_test`, given the state of its monitor. A panic is an error. -/
def runDnsConfigTest (calls : DnsConfigCalls) (expectedDnsResolver : Ip.IpAddr)
    (m : PacketMonitor Unit) : Option (Except String Unit) :=
  match calls.prepare with
  | .error e => some (.error e)
  | .ok _ =>
      m.result.map fun result =>
        match result with
        | .error _ => .error "called `Result::unwrap()` on an `Err` value"
        | .ok result => checkResolver expectedDnsResolver result

theorem answers_stateless (f : ParsedPacket → Bool) (packets : List ParsedPacket) :
    answers (fun (_ : Unit) packet => (f packet, ())) () packets = packets.map f := by
  induction packets with
  | nil => rfl
  | cons packet rest ih => rw [answers, ih, List.map_cons]

/-- While the loop goes on, no packet to port 53 has been consumed. -/
theorem MonitorInv.packets_eq_nil {m : PacketMonitor Unit}
    (h : MonitorInv toDns untilDns () m) (hgoing : m.ending = none) : m.packets = [] := by
  cases hpackets : m.packets with
  | nil => rfl
  | cons packet rest =>
      exfalso
      have hanswers : m.calls.map Prod.snd = m.packets.map fun packet =>
          decide (packet.destination.port ≠ 53) :=
        h.answered.trans (answers_stateless _ _)
      have hdns : packet ∈ (parsed m.consumed).filter toDns := by
        rw [← h.packets, hpackets]
        exact List.mem_cons_self
      have hfalse : false ∈ m.calls.map Prod.snd := by
        rw [hanswers, hpackets]
        have hport : packet.destination.port = 53 := by
          simpa [toDns] using List.of_mem_filter hdns
        simp [hport]
      obtain ⟨call, hcall, hanswer⟩ := List.mem_map.mp hfalse
      rw [h.going hgoing call hcall] at hanswer
      cases hanswer

theorem checkResolver_eq_ok {expectedDnsResolver : Ip.IpAddr} {result : MonitorResult} :
    checkResolver expectedDnsResolver result = .ok () ↔
      ∃ packet, result.packets.head? = some packet ∧
        packet.destination = ⟨expectedDnsResolver, 53⟩ := by
  unfold checkResolver
  split
  · next h => simp [h]
  · next packet rest h =>
    split
    · next hdestination => simp [h, hdestination]
    · next hdestination => simp [h, hdestination]

/-- The first recorded packet is the first packet to port 53 that had arrived. -/
theorem head?_packets {before : List MonitorAction} {middle next m : PacketMonitor Unit}
    (h : EndedAt toDns untilDns (.start ()) before middle next m)
    (hinv : MonitorInv toDns untilDns () m)
    (hending : m.ending = some .satisfied ∨ m.ending = some .stopped ∨
      m.ending = some .timedOut) :
    m.packets.head? = (parsed (captures before)).find? toDns := by
  have hmiddle : MonitorInv toDns untilDns () middle :=
    run_preserves (MonitorInv.step ()) before (.initial ()) h.run
  have hnone := hmiddle.packets_eq_nil h.going
  rw [← List.head?_filter]
  rcases hending with hsatisfied | hquiet
  · obtain ⟨packet, rest, havailable, hfilter, _, hpackets⟩ := h.satisfied hsatisfied
    have hcaptures : middle.consumed ++ middle.available = captures before := by
      simpa [PacketMonitor.start] using run_captures before h.run
    rw [hpackets, hnone, ← hcaptures, havailable, parsed_append, List.filter_append,
      ← hmiddle.packets, hnone]
    simp [parsed, hfilter]
  · obtain ⟨hconsumed, hpackets⟩ := h.consumed_eq hquiet
    rw [← hconsumed, ← hinv.packets]

/-- The test passes if and only if its calls succeed, the capture was not lost and
the first packet to port 53 that arrived before the monitor ended went to the
expected resolver. -/
theorem dns_config_test_iff (calls : DnsConfigCalls) (expectedDnsResolver : Ip.IpAddr)
    (actions : List MonitorAction) (m : PacketMonitor Unit)
    (hrun : run (PacketMonitor.step toDns untilDns) (.start ()) actions = some m)
    (hended : m.ending ≠ none) :
    ∃ before after middle next, actions = before ++ .poll :: after ∧
      EndedAt toDns untilDns (.start ()) before middle next m ∧
      (runDnsConfigTest calls expectedDnsResolver m = some (.ok ()) ↔
        calls.prepare = .ok () ∧ m.ending ≠ some .lost ∧
          ∃ packet, (parsed (captures before)).find? (·.destination.port = 53) = some packet ∧
            packet.destination = ⟨expectedDnsResolver, 53⟩) := by
  obtain ⟨before, after, middle, next, hactions, hat⟩ := run_ended actions rfl hrun hended
  have hinv : MonitorInv toDns untilDns () m :=
    run_preserves (MonitorInv.step ()) actions (.initial ()) hrun
  refine ⟨before, after, middle, next, hactions, hat, ?_⟩
  unfold runDnsConfigTest
  cases calls.prepare with
  | error e => simp
  | ok _ =>
      obtain ⟨ending, hending⟩ := Option.ne_none_iff_exists'.mp hended
      have hdns : toDns = fun packet => decide (packet.destination.port = 53) := rfl
      cases ending with
      | lost => simp [PacketMonitor.result, hending]
      | satisfied | stopped | timedOut =>
          have hhead := head?_packets hat hinv (by simp [hending])
          simp [PacketMonitor.result, hending, checkResolver_eq_ok, hhead, hdns]

/-- A query to the wrong resolver, then one to the right one. -/
def twoQueries : List MonitorAction :=
  [.poll, .capture (.packet (packetTo 53)),
    .capture (.packet {packetTo 53 with destination := ⟨.v4 fun _ => 3, 53⟩}), .poll]

def DnsConfigCalls.working : DnsConfigCalls :=
  ⟨.ok false, .ok (), .ok (.v4 fun _ => 1), .ok (.v4 fun _ => 10)⟩

/-- Only the first query counts. -/
theorem twoQueries_iff :
    ∃ m, run (PacketMonitor.step toDns untilDns) (.start ()) twoQueries = some m ∧
      runDnsConfigTest .working (.v4 fun _ => 2) m = some (.ok ()) ∧
      runDnsConfigTest .working (.v4 fun _ => 3) m ≠ some (.ok ()) ∧
      ∃ before after middle next, twoQueries = before ++ .poll :: after ∧
        EndedAt toDns untilDns (.start ()) before middle next m ∧
        ∃ packet, (parsed (captures before)).find? (·.destination.port = 53) = some packet ∧
          packet.destination = ⟨.v4 fun _ => 2, 53⟩ := by
  have hrun : (run (PacketMonitor.step toDns untilDns) (.start ()) twoQueries).map (fun m =>
      (m.ending, runDnsConfigTest .working (.v4 fun _ => 2) m,
        runDnsConfigTest .working (.v4 fun _ => 3) m)) =
      some (some .satisfied, some (.ok ()),
        some (.error "expected tunnel packet to expected destination")) := by decide
  obtain ⟨m, hm, hfields⟩ := Option.map_eq_some_iff.mp hrun
  obtain ⟨hending, hrest⟩ := Prod.mk.inj hfields
  obtain ⟨hpass, hwrong⟩ := Prod.mk.inj hrest
  have hfail : runDnsConfigTest .working (.v4 fun _ => 3) m ≠ some (.ok ()) := by
    rw [hwrong]
    simp
  obtain ⟨before, after, middle, next, hactions, hat, hiff⟩ :=
    dns_config_test_iff .working (.v4 fun _ => 2) twoQueries m hm (by simp [hending])
  exact ⟨m, hm, hpass, hfail, before, after, middle, next, hactions, hat, (hiff.mp hpass).2.2⟩

end MullvadAppTests.TestManager
