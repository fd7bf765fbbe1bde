import MullvadAppTests.Lib.Ip

/-!
The decoder of the packet monitor in `test-manager/src/network_monitor.rs`. A
captured frame is turned into addresses, ports and a protocol, or ignored. An
index out of bounds is a panic. How far `payload()` of a pnet packet reaches is a
parameter; where it begins is given by the header.
-/

namespace MullvadAppTests.TestManager

open Lib Lib.LengthDelimited Lib.Ip

structure SocketAddr where
  ip : IpAddr
  port : Nat
  deriving DecidableEq

structure ParsedPacket where
  source : SocketAddr
  destination : SocketAddr
  protocol : UInt8
  deriving DecidableEq

/-- An access out of bounds. -/
inductive Panic where
  | outOfBounds
  deriving DecidableEq, Repr

/-- `macos` is the compile-time `target_os`. -/
structure Codec where
  noFrame : Bool
  macos : Bool
  deriving DecidableEq, Repr

/-! ### pnet_packet -/

/-- The length that `payload()` of an `Ipv4Packet` and of an `Ipv6Packet` takes
from the packet, if the buffer has that many bytes. -/
structure Pnet where
  ipv4PayloadLength : Bytes → Nat
  ipv6PayloadLength : Bytes → Nat

/-- `payload()` begins after the options given by IHL. -/
def Pnet.ipv4Payload (pnet : Pnet) (packet : Bytes) : Bytes :=
  (packet.drop (20 + 4 * (ihl packet - 5))).take (pnet.ipv4PayloadLength packet)

/-- `payload()` begins after the fixed header. -/
def Pnet.ipv6Payload (pnet : Pnet) (packet : Bytes) : Bytes :=
  (packet.drop 40).take (pnet.ipv6PayloadLength packet)

/-- `new` of every packet type: the buffer has at least the size of the header. -/
def packetNew (minimumPacketSize : Nat) (buffer : Bytes) : Option Bytes :=
  if minimumPacketSize ≤ buffer.length then some buffer else none

def ethernetHeaderSize : Nat := 14

def tcpHeaderSize : Nat := 20

def udpHeaderSize : Nat := 8

def etherTypeIpv4 : Nat := 0x0800

def etherTypeIpv6 : Nat := 0x86DD

/-! ### The decoder -/

/-- The ports of a segment, if its header is complete. -/
def parseSegment (headerSize : Nat) (source destination : IpAddr) (protocol : UInt8)
    (payload : Bytes) : Option ParsedPacket := do
  let seg ← packetNew headerSize payload
  some ⟨⟨source, u16 seg 0⟩, ⟨destination, u16 seg 2⟩, protocol⟩

/-- The `match` on the protocol that `parse_ipv4` and `parse_ipv6` have in
common. -/
def parseTransport (source destination : IpAddr) (protocol : UInt8) (payload : Bytes) :
    Option ParsedPacket :=
  if protocol = tcp then parseSegment tcpHeaderSize source destination protocol payload
  else if protocol = udp then parseSegment udpHeaderSize source destination protocol payload
  else some ⟨⟨source, 0⟩, ⟨destination, 0⟩, protocol⟩

def parseIpv4 (pnet : Pnet) (payload : Bytes) : Option ParsedPacket := do
  let packet ← packetNew 20 payload
  parseTransport (Version.v4.source packet) (Version.v4.destination packet)
    (Version.v4.protocol packet) (pnet.ipv4Payload packet)

def parseIpv6 (pnet : Pnet) (payload : Bytes) : Option ParsedPacket := do
  let packet ← packetNew 40 payload
  parseTransport (Version.v6.source packet) (Version.v6.destination packet)
    (Version.v6.protocol packet) (pnet.ipv6Payload packet)

/-- `data[0]` after the utun header, which only macOS has. -/
def decodeNoFrame (pnet : Pnet) (data : Bytes) : Except Panic (Option ParsedPacket) :=
  match data with
  | [] => .error .outOfBounds
  | _ :: _ =>
      let ipVersion := versionField data
      if ipVersion = 4 then .ok (parseIpv4 pnet data)
      else if ipVersion = 6 then .ok (parseIpv6 pnet data)
      else .ok none

def decodeFrame (pnet : Pnet) (data : Bytes) : Option ParsedPacket := do
  let frame ← packetNew ethernetHeaderSize data
  let ethertype := u16 frame 12
  let payload := frame.drop ethernetHeaderSize
  if ethertype = etherTypeIpv4 then parseIpv4 pnet payload
  else if ethertype = etherTypeIpv6 then parseIpv6 pnet payload
  else none

/-- `Codec::decode`. -/
def Codec.decode (codec : Codec) (pnet : Pnet) (data : Bytes) :
    Except Panic (Option ParsedPacket) :=
  if codec.noFrame then
    if codec.macos then
      if data.length < 4 then .error .outOfBounds else decodeNoFrame pnet (data.drop 4)
    else decodeNoFrame pnet data
  else .ok (decodeFrame pnet data)

/-! ### The IP packet in a capture -/

/-- The bytes that the link puts before an IP packet. -/
def Codec.linkSize (codec : Codec) : Nat :=
  if codec.noFrame then (if codec.macos then 4 else 0) else ethernetHeaderSize

/-- The version of the IP packet in a capture: its first four bits or, with a
frame, the ethertype. -/
def Codec.version (codec : Codec) (data : Bytes) : Option Version :=
  if codec.noFrame then
    let ipVersion := versionField (data.drop codec.linkSize)
    if ipVersion = 4 then some .v4 else if ipVersion = 6 then some .v6 else none
  else if u16 data 12 = etherTypeIpv4 then some .v4
  else if u16 data 12 = etherTypeIpv6 then some .v6
  else none

/-- The capture holds an IP packet of the given version with a complete header. -/
def Codec.Holds (codec : Codec) (data : Bytes) (version : Version) (ip : Bytes) : Prop :=
  codec.version data = some version ∧ ip = data.drop codec.linkSize ∧
    version.headerSize ≤ ip.length

instance (codec : Codec) (data : Bytes) (version : Version) (ip : Bytes) :
    Decidable (codec.Holds data version ip) := by
  unfold Codec.Holds
  infer_instance

def Pnet.payload (pnet : Pnet) : Version → Bytes → Bytes
  | .v4, ip => pnet.ipv4Payload ip
  | .v6, ip => pnet.ipv6Payload ip

/-- What the decoder makes of a complete IP header. -/
def parseIp (pnet : Pnet) (version : Version) (ip : Bytes) : Option ParsedPacket :=
  parseTransport (version.source ip) (version.destination ip) (version.protocol ip)
    (pnet.payload version ip)

/-- The utun header, or the byte with the version, is not there. -/
def Codec.tooShort (codec : Codec) (data : Bytes) : Prop :=
  codec.noFrame = true ∧ data.length ≤ codec.linkSize

theorem decodeNoFrame_ok {pnet : Pnet} {data : Bytes} (h : data ≠ []) :
    decodeNoFrame pnet data =
      .ok (if versionField data = 4 then parseIpv4 pnet data
        else if versionField data = 6 then parseIpv6 pnet data else none) := by
  cases data with
  | nil => exact absurd rfl h
  | cons b rest =>
      simp only [decodeNoFrame]
      split
      · rfl
      · split <;> rfl

/-- Only a capture without the byte that is looked at first makes it panic. -/
theorem decode_ok_iff {codec : Codec} {pnet : Pnet} {data : Bytes} :
    (∃ result, codec.decode pnet data = .ok result) ↔ ¬ codec.tooShort data := by
  have hnoFrame : ∀ bytes : Bytes,
      (∃ result, decodeNoFrame pnet bytes = .ok result) ↔ bytes ≠ [] := by
    intro bytes
    constructor
    · rintro ⟨result, hresult⟩ rfl
      cases hresult
    · intro hbytes
      exact ⟨_, decodeNoFrame_ok hbytes⟩
  unfold Codec.decode Codec.tooShort Codec.linkSize
  cases codec.noFrame with
  | false => simp
  | true =>
      cases codec.macos with
      | false => simp [hnoFrame]
      | true =>
          by_cases hshort : data.length < 4
          · have hle : data.length ≤ 4 := by omega
            simp [hshort, hle]
          · simp [hshort, hnoFrame]

def parseVersion (pnet : Pnet) : Version → Bytes → Option ParsedPacket
  | .v4, bytes => parseIpv4 pnet bytes
  | .v6, bytes => parseIpv6 pnet bytes

theorem parseVersion_eq {pnet : Pnet} {version : Version} {ip : Bytes}
    (h : version.headerSize ≤ ip.length) :
    parseVersion pnet version ip = parseIp pnet version ip := by
  cases version with
  | v4 =>
      have hsize : 20 ≤ ip.length := h
      simp [parseVersion, parseIpv4, packetNew, hsize, parseIp, Pnet.payload]
  | v6 =>
      have hsize : 40 ≤ ip.length := h
      simp [parseVersion, parseIpv6, packetNew, hsize, parseIp, Pnet.payload]

/-- A complete IP header is always looked at. -/
theorem decode_holds {codec : Codec} {pnet : Pnet} {data ip : Bytes} {version : Version}
    (h : codec.Holds data version ip) :
    codec.decode pnet data = .ok (parseIp pnet version ip) := by
  obtain ⟨hversion, rfl, hsize⟩ := h
  have hlonger : codec.linkSize < data.length := by
    have hpositive : 0 < version.headerSize := by cases version <;> decide
    rw [List.length_drop] at hsize
    omega
  rw [← parseVersion_eq hsize]
  have hnoFrame : ∀ bytes : Bytes, bytes ≠ [] →
      (if versionField bytes = 4 then some Version.v4
        else if versionField bytes = 6 then some .v6 else none) = some version →
      decodeNoFrame pnet bytes = .ok (parseVersion pnet version bytes) := by
    intro bytes hbytes hfield
    rw [decodeNoFrame_ok hbytes]
    split at hfield
    · next hfour => cases hfield; rw [if_pos hfour]; rfl
    · next hfour =>
      split at hfield
      · next hsix => cases hfield; rw [if_neg hfour, if_pos hsix]; rfl
      · cases hfield
  have hdrop : data.drop codec.linkSize ≠ [] := by
    rw [ne_eq, List.drop_eq_nil_iff]
    omega
  unfold Codec.version at hversion
  unfold Codec.decode
  obtain ⟨noFrame, macos⟩ := codec
  cases noFrame with
  | true =>
      cases macos with
      | true =>
          have hfour : ¬ data.length < 4 := by
            have h4 : 4 < data.length := hlonger
            omega
          simp only [if_true, if_neg hfour]
          exact hnoFrame _ hdrop hversion
      | false => exact hnoFrame _ hdrop hversion
  | false =>
      have hframe : ethernetHeaderSize ≤ data.length := Nat.le_of_lt hlonger
      simp only [Bool.false_eq_true, if_false] at hversion ⊢
      simp only [decodeFrame, packetNew, if_pos hframe, bind, Option.bind]
      split at hversion
      · next hfour => cases hversion; rw [if_pos hfour]; rfl
      · next hfour =>
        split at hversion
        · next hsix => cases hversion; rw [if_neg hfour, if_pos hsix]; rfl
        · cases hversion

/-! ### No packet is missed -/

/-- The decoder does not panic, and a packet with a complete IP header is returned
with the addresses and the protocol of that header. -/
def Seen (codec : Codec) (pnet : Pnet) (data : Bytes) : Prop :=
  (∃ result, codec.decode pnet data = .ok result) ∧
    ∀ version ip, codec.Holds data version ip →
      ∃ packet, codec.decode pnet data = .ok (some packet) ∧
        packet.source.ip = version.source ip ∧ packet.destination.ip = version.destination ip ∧
        packet.protocol = version.protocol ip

/-- The payload of a TCP or UDP packet has the whole header of its protocol. -/
def CompleteSegment (protocol : UInt8) (payload : Bytes) : Prop :=
  (protocol = tcp → tcpHeaderSize ≤ payload.length) ∧
    (protocol = udp → udpHeaderSize ≤ payload.length)

theorem parseTransport_some {source destination : IpAddr} {protocol : UInt8} {payload : Bytes}
    (h : CompleteSegment protocol payload) :
    ∃ packet, parseTransport source destination protocol payload = some packet ∧
      packet.source.ip = source ∧ packet.destination.ip = destination ∧
      packet.protocol = protocol := by
  unfold parseTransport parseSegment packetNew
  split
  · next htcp =>
    rw [if_pos (h.1 htcp)]
    exact ⟨_, rfl, rfl, rfl, rfl⟩
  · split
    · next hudp =>
      rw [if_pos (h.2 hudp)]
      exact ⟨_, rfl, rfl, rfl, rfl⟩
    · exact ⟨_, rfl, rfl, rfl, rfl⟩

theorem completeSegment_of_some {source destination : IpAddr} {protocol : UInt8}
    {payload : Bytes} {packet : ParsedPacket}
    (h : parseTransport source destination protocol payload = some packet) :
    CompleteSegment protocol payload := by
  constructor
  · rintro rfl
    by_contra hshort
    simp [parseTransport, parseSegment, packetNew, hshort] at h
  · rintro rfl
    by_contra hshort
    have hne : udp ≠ tcp := by decide
    simp [parseTransport, parseSegment, packetNew, hne, hshort] at h

/-- For every capture, the decoder misses nothing if and only if there is a first
byte to look at and the packet, if it is a TCP or UDP packet, has the whole header
of that protocol. -/
theorem decode_sees_iff (codec : Codec) (pnet : Pnet) (data : Bytes) :
    Seen codec pnet data ↔
      ¬ codec.tooShort data ∧ ∀ version ip, codec.Holds data version ip →
        CompleteSegment (version.protocol ip) (pnet.payload version ip) := by
  constructor
  · rintro ⟨hok, hseen⟩
    refine ⟨decode_ok_iff.mp hok, ?_⟩
    intro version ip hholds
    obtain ⟨packet, hpacket, _⟩ := hseen version ip hholds
    rw [decode_holds hholds, Except.ok.injEq] at hpacket
    exact completeSegment_of_some hpacket
  · rintro ⟨hshort, hcomplete⟩
    refine ⟨decode_ok_iff.mpr hshort, ?_⟩
    intro version ip hholds
    obtain ⟨packet, hpacket, hfields⟩ := parseTransport_some (hcomplete version ip hholds)
    exact ⟨packet, by rw [decode_holds hholds, parseIp, hpacket], hfields⟩

/-- `payload()` reaches as far as the length fields of the header say. -/
def Pnet.standard : Pnet := ⟨fun packet => totalLength packet - 4 * ihl packet, payloadLength⟩

/-- The first fragment of a TCP packet to port 53, with eight bytes of the TCP
header. -/
def tinyFragment : Bytes :=
  [0x45, 0, 0, 28, 0, 1, 0x20, 0, 64, 6, 0, 0, 10, 0, 0, 1, 10, 0, 0, 2,
    0x9c, 0x40, 0, 53, 0, 0, 0, 1]

/-- On a tunnel interface the fragment has a complete IPv4 header and is not
seen. -/
theorem tinyFragment_missed :
    (Codec.mk true false).Holds tinyFragment .v4 tinyFragment ∧
      (Codec.mk true false).decode .standard tinyFragment = .ok none ∧
      ¬ Seen ⟨true, false⟩ .standard tinyFragment := by
  have hholds : (Codec.mk true false).Holds tinyFragment .v4 tinyFragment := by decide
  have hdecode : (Codec.mk true false).decode .standard tinyFragment = .ok none := by
    rw [decode_holds hholds]
    decide
  refine ⟨hholds, hdecode, ?_⟩
  rintro ⟨_, hseen⟩
  obtain ⟨packet, hpacket, _⟩ := hseen .v4 tinyFragment hholds
  cases hdecode.symm.trans hpacket

end MullvadAppTests.TestManager
