import MullvadAppTests.TestManager.NetworkMonitor

/-!
Whether the decoder of the packet monitor reads protocol and ports as the IP
standards do. It takes the payload of every IPv4 packet as the start of a segment,
also of a later fragment, and of IPv6 it knows the fixed header only.
-/

namespace MullvadAppTests.TestManager

open Lib Lib.LengthDelimited Lib.Ip

/-- The packet that the decoder should return. -/
def referencePacket (version : Version) (ip : Bytes) (reading : Reading) : ParsedPacket :=
  ⟨⟨version.source ip, reading.sourcePort⟩, ⟨version.destination ip, reading.destinationPort⟩,
    reading.protocol⟩

/-- `payload()` of a well-formed packet is what its length fields say. -/
structure Pnet.Standard (pnet : Pnet) : Prop where
  ipv4 : ∀ packet, Version.v4.WellFormed packet →
    pnet.ipv4PayloadLength packet = totalLength packet - 4 * ihl packet
  ipv6 : ∀ packet, Version.v6.WellFormed packet →
    pnet.ipv6PayloadLength packet = payloadLength packet

theorem Pnet.Standard.payload_eq {pnet : Pnet} (h : pnet.Standard) {version : Version}
    {ip : Bytes} (hformed : version.WellFormed ip) :
    pnet.payload version ip = version.payload ip := by
  cases version with
  | v4 =>
      have hihl : 20 + 4 * (ihl ip - 5) = 4 * ihl ip := by
        have hmin : 5 ≤ ihl ip := hformed.2.2.1
        omega
      rw [Pnet.payload, Pnet.ipv4Payload, h.ipv4 ip hformed, hihl]
      rfl
  | v6 =>
      rw [Pnet.payload, Pnet.ipv6Payload, h.ipv6 ip hformed]
      rfl

/-- The two words that the decoder takes as ports are zero. -/
def ZeroPorts (payload : Bytes) : Prop := u16 payload 0 = 0 ∧ u16 payload 2 = 0

/-- The condition on an IP packet under which it is read right. -/
def ReadsRight : Version → Bytes → Prop
  | .v4, ip =>
      CompleteSegment (byte ip 9) (Version.v4.payload ip) ∧
        ((byte ip 9 = tcp ∨ byte ip 9 = udp) →
          fragmentOffset ip = 0 ∨ ZeroPorts (Version.v4.payload ip))
  | .v6, ip =>
      if isExtension (byte ip 6) then
        Chain (byte ip 6) (Version.v6.payload ip) ⟨byte ip 6, none⟩
      else CompleteSegment (byte ip 6) (Version.v6.payload ip)

/-- The decoder agrees with a reading of the same protocol exactly when it has a
complete segment and the ports of the reading are those at its start. -/
theorem parseTransport_eq_iff {version : Version} {ip payload : Bytes} {reading : Reading} :
    parseTransport (version.source ip) (version.destination ip) (version.protocol ip) payload =
        some (referencePacket version ip reading) ↔
      version.protocol ip = reading.protocol ∧
        CompleteSegment (version.protocol ip) payload ∧
        (if version.protocol ip = tcp ∨ version.protocol ip = udp then
          u16 payload 0 = reading.sourcePort ∧ u16 payload 2 = reading.destinationPort
        else 0 = reading.sourcePort ∧ 0 = reading.destinationPort) := by
  have hne : udp ≠ tcp := by decide
  unfold parseTransport parseSegment packetNew CompleteSegment referencePacket
  by_cases htcp : version.protocol ip = tcp
  · by_cases hsize : tcpHeaderSize ≤ payload.length
    · simp [htcp, hsize, hne.symm]
      exact and_rotate.symm
    · simp [htcp, hsize]
  · by_cases hudp : version.protocol ip = udp
    · by_cases hsize : udpHeaderSize ≤ payload.length
      · simp [hudp, hsize, hne]
        exact and_rotate.symm
      · simp [hudp, hsize, hne]
    · simp [htcp, hudp]
      exact and_rotate.symm

/-- The ports of a complete segment are at its start. -/
theorem reading_of_complete {protocol : UInt8} {payload : Bytes}
    (h : CompleteSegment protocol payload) :
    (ChainEnd.mk protocol (some payload)).reading =
      if protocol = tcp ∨ protocol = udp then
        ⟨protocol, u16 payload 0, u16 payload 2⟩
      else ⟨protocol, 0, 0⟩ := by
  have hlength : protocol = tcp ∨ protocol = udp → 4 ≤ payload.length := by
    rintro (htcp | hudp)
    · have hsize : 20 ≤ payload.length := h.1 htcp
      omega
    · have hsize : 8 ≤ payload.length := h.2 hudp
      omega
  by_cases hports : protocol = tcp ∨ protocol = udp
  · simp [ChainEnd.reading, hports, hlength hports]
  · simp [ChainEnd.reading, hports]

theorem reading_protocol (last : ChainEnd) : last.reading.protocol = last.protocol := by
  unfold ChainEnd.reading
  split
  · split <;> rfl
  · rfl

theorem parse_upper_iff (version : Version) (ip payload : Bytes) :
    parseTransport (version.source ip) (version.destination ip) (version.protocol ip) payload =
        some (referencePacket version ip
          (ChainEnd.mk (version.protocol ip) (some payload)).reading) ↔
      CompleteSegment (version.protocol ip) payload := by
  rw [parseTransport_eq_iff, reading_protocol]
  constructor
  · rintro ⟨_, hcomplete, _⟩
    exact hcomplete
  · intro hcomplete
    refine ⟨rfl, hcomplete, ?_⟩
    rw [reading_of_complete hcomplete]
    split <;> exact ⟨rfl, rfl⟩

theorem parse_fragment_iff (version : Version) (ip payload : Bytes) (protocol : UInt8) :
    parseTransport (version.source ip) (version.destination ip) (version.protocol ip) payload =
        some (referencePacket version ip (ChainEnd.mk protocol none).reading) ↔
      version.protocol ip = protocol ∧ CompleteSegment (version.protocol ip) payload ∧
        ((version.protocol ip = tcp ∨ version.protocol ip = udp) → ZeroPorts payload) := by
  rw [parseTransport_eq_iff]
  by_cases hports : version.protocol ip = tcp ∨ version.protocol ip = udp
  · simp [ChainEnd.reading, hports, ZeroPorts]
  · simp [ChainEnd.reading, hports]

theorem extension_not_transport {kind : UInt8} (h : isExtension kind = true) :
    kind ≠ tcp ∧ kind ≠ udp := by
  constructor
  · rintro rfl
    exact absurd h (by decide)
  · rintro rfl
    exact absurd h (by decide)

theorem parse_v4_iff {ip : Bytes} {last : ChainEnd} (h : Carries .v4 ip last) :
    parseTransport (Version.v4.source ip) (Version.v4.destination ip) (Version.v4.protocol ip)
        (Version.v4.payload ip) = some (referencePacket .v4 ip last.reading) ↔
      ReadsRight .v4 ip := by
  cases h
  by_cases hoffset : fragmentOffset ip = 0
  · rw [if_pos hoffset]
    simpa [ReadsRight, hoffset, Version.protocol] using
      parse_upper_iff .v4 ip (Version.v4.payload ip)
  · rw [if_neg hoffset]
    simpa [ReadsRight, hoffset, Version.protocol] using
      parse_fragment_iff .v4 ip (Version.v4.payload ip) (byte ip 9)

/-- The protocol of a packet with extension headers is read right only where the
chain is cut off by a fragment header that names the first extension header
again. -/
theorem parse_v6_iff {ip : Bytes} {last : ChainEnd} (h : Carries .v6 ip last) :
    parseTransport (Version.v6.source ip) (Version.v6.destination ip) (Version.v6.protocol ip)
        (Version.v6.payload ip) = some (referencePacket .v6 ip last.reading) ↔
      ReadsRight .v6 ip := by
  have hchain : Chain (byte ip 6) (Version.v6.payload ip) last := by
    cases h
    assumption
  by_cases hext : isExtension (byte ip 6) = true
  · obtain ⟨htcp, hudp⟩ := extension_not_transport hext
    rw [ReadsRight, if_pos hext]
    constructor
    · intro hparse
      have hprotocol : byte ip 6 = last.protocol := by
        rw [← reading_protocol last]
        exact (parseTransport_eq_iff.mp hparse).1
      have hsegment : last.segment = none := by
        by_contra hsome
        have hupper := hchain.end_not_extension hsome
        rw [← hprotocol, hext] at hupper
        cases hupper
      have hlast : last = ⟨byte ip 6, none⟩ := by
        rw [hprotocol, ← hsegment]
      rwa [hlast] at hchain
    · intro hfragment
      rw [hchain.unique hfragment, parse_fragment_iff]
      refine ⟨rfl, ⟨fun h => absurd h htcp, fun h => absurd h hudp⟩, ?_⟩
      rintro (h | h)
      · exact absurd h htcp
      · exact absurd h hudp
  · rw [Bool.not_eq_true] at hext
    rw [hchain.eq_of_upper hext, ReadsRight, hext]
    simpa [Version.protocol] using parse_upper_iff .v6 ip (Version.v6.payload ip)

/-- For every well-formed packet, the decoder reads protocol and ports as the
standards do if and only if the condition on its headers holds. -/
theorem decode_reads_iff (codec : Codec) (pnet : Pnet) (data : Bytes) (version : Version)
    (ip : Bytes) (last : ChainEnd) (hpnet : pnet.Standard)
    (hholds : codec.Holds data version ip) (hformed : version.WellFormed ip)
    (hcarries : Carries version ip last) :
    codec.decode pnet data = .ok (some (referencePacket version ip last.reading)) ↔
      ReadsRight version ip := by
  rw [decode_holds hholds, Except.ok.injEq, parseIp, hpnet.payload_eq hformed]
  cases version with
  | v4 => exact parse_v4_iff hcarries
  | v6 => exact parse_v6_iff hcarries

theorem Pnet.standard_standard : Pnet.standard.Standard := ⟨fun _ _ => rfl, fun _ _ => rfl⟩

/-- An IPv4 packet with four bytes of options and a UDP datagram from port 40000
to port 53, in an Ethernet frame. -/
def dnsQuery : Bytes :=
  [2, 0, 0, 0, 0, 1, 2, 0, 0, 0, 0, 2, 0x08, 0x00,
    0x46, 0, 0, 34, 0, 1, 0, 0, 64, 17, 0, 0, 10, 0, 0, 1, 10, 0, 0, 2, 1, 1, 1, 1,
    0x9c, 0x40, 0, 53, 0, 10, 0, 0, 7, 7]

theorem dnsQuery_read :
    (Codec.mk false false).decode .standard dnsQuery =
      .ok (some (referencePacket .v4 (dnsQuery.drop 14) ⟨udp, 40000, 53⟩)) := by
  have hread := decode_reads_iff ⟨false, false⟩ .standard dnsQuery .v4 (dnsQuery.drop 14) _
    Pnet.standard_standard (by decide) (by decide) (.v4 _)
  have hright : ReadsRight .v4 (dnsQuery.drop 14) :=
    ⟨⟨by decide, by decide⟩, fun _ => .inl (by decide)⟩
  have hports : (ChainEnd.mk (byte (dnsQuery.drop 14) 9)
      (if fragmentOffset (dnsQuery.drop 14) = 0 then
        some (Version.v4.payload (dnsQuery.drop 14)) else none)).reading =
      ⟨udp, 40000, 53⟩ := by decide
  rw [hread.mpr hright, hports]

/-- An IPv6 packet with a hop-by-hop options header before a UDP datagram from
port 40000 to port 53. -/
def hopByHopQuery : Bytes :=
  [0x60, 0, 0, 0, 0, 18, 0, 64,
    0xfd, 0, 0, 0, 0, 0, 0, 0, 0, 0, 0, 0, 0, 0, 0, 1,
    0xfd, 0, 0, 0, 0, 0, 0, 0, 0, 0, 0, 0, 0, 0, 0, 2,
    17, 0, 1, 4, 0, 0, 0, 0, 0x9c, 0x40, 0, 53, 0, 10, 0, 0, 7, 7]

theorem hopByHopQuery_carries :
    Carries .v6 hopByHopQuery ⟨udp, some [0x9c, 0x40, 0, 53, 0, 10, 0, 0, 7, 7]⟩ := by
  apply Carries.v6
  have hpayload : Version.v6.payload hopByHopQuery =
      [17, 0, 1, 4, 0, 0, 0, 0, 0x9c, 0x40, 0, 53, 0, 10, 0, 0, 7, 7] := by decide
  rw [hpayload]
  apply Chain.extension
  · decide
  · decide
  · decide
  · exact .upper 17 _ (by decide)

/-- The query is a packet to port 53, and is returned as one to port 0 with the
protocol number of the hop-by-hop header. -/
theorem hopByHopQuery_misread :
    Version.v6.WellFormed hopByHopQuery ∧
      Carries .v6 hopByHopQuery ⟨udp, some [0x9c, 0x40, 0, 53, 0, 10, 0, 0, 7, 7]⟩ ∧
      (ChainEnd.mk udp (some [0x9c, 0x40, 0, 53, 0, 10, 0, 0, 7, 7])).reading =
        ⟨udp, 40000, 53⟩ ∧
      (Codec.mk true false).decode .standard hopByHopQuery =
        .ok (some (referencePacket .v6 hopByHopQuery ⟨0, 0, 0⟩)) ∧
      (Codec.mk true false).decode .standard hopByHopQuery ≠
        .ok (some (referencePacket .v6 hopByHopQuery ⟨udp, 40000, 53⟩)) := by
  have hholds : (Codec.mk true false).Holds hopByHopQuery .v6 hopByHopQuery := by decide
  have hdecode : (Codec.mk true false).decode .standard hopByHopQuery =
      .ok (some (referencePacket .v6 hopByHopQuery ⟨0, 0, 0⟩)) := by
    rw [decode_holds hholds]
    rfl
  refine ⟨by decide, hopByHopQuery_carries, by decide, hdecode, ?_⟩
  rw [hdecode]
  intro hsame
  have hprotocol : (0 : UInt8) = udp :=
    congrArg ParsedPacket.protocol (Option.some.inj (Except.ok.inj hsame))
  exact absurd hprotocol (by decide)

end MullvadAppTests.TestManager
