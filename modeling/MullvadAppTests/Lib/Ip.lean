import Mathlib.Data.Fintype.Pi
import Mathlib.Tactic
import MullvadAppTests.Lib.LengthDelimited

/-!
IP packets as byte strings, read as the standards define them: the fields of the
IPv4 and of the fixed IPv6 header, fragments, and the chain of extension headers
of IPv6 with the upper-layer protocol at its end. Fields are read from any byte
string; bytes that are not there count as zero.
-/

namespace MullvadAppTests.Lib.Ip

open LengthDelimited

def byte (data : Bytes) (i : Nat) : UInt8 := data.getD i 0

/-- A big-endian 16-bit field. -/
def u16 (data : Bytes) (i : Nat) : Nat := (byte data i).toNat * 256 + (byte data (i + 1)).toNat

inductive Version where
  | v4
  | v6
  deriving DecidableEq, Repr

inductive IpAddr where
  | v4 (octets : Fin 4 → UInt8)
  | v6 (octets : Fin 16 → UInt8)
  deriving DecidableEq

def versionField (data : Bytes) : UInt8 := (byte data 0 &&& 0xf0) >>> 4

def tcp : UInt8 := 6

def udp : UInt8 := 17

/-! ### The headers -/

/-- The header length of IPv4, in units of four bytes. -/
def ihl (data : Bytes) : Nat := (byte data 0 &&& 0x0f).toNat

def totalLength (data : Bytes) : Nat := u16 data 2

/-- Thirteen bits, after the flags. -/
def fragmentOffset (data : Bytes) : Nat := u16 data 6 % 8192

def payloadLength (data : Bytes) : Nat := u16 data 4

namespace Version

/-- The size of the header without options or extension headers. -/
def headerSize : Version → Nat
  | .v4 => 20
  | .v6 => 40

/-- The number in the version field. -/
def number : Version → UInt8
  | .v4 => 4
  | .v6 => 6

/-- The protocol of IPv4 or the next header of IPv6. -/
def protocol : Version → Bytes → UInt8
  | .v4, data => byte data 9
  | .v6, data => byte data 6

def source : Version → Bytes → IpAddr
  | .v4, data => .v4 fun i => byte data (12 + i)
  | .v6, data => .v6 fun i => byte data (8 + i)

def destination : Version → Bytes → IpAddr
  | .v4, data => .v4 fun i => byte data (16 + i)
  | .v6, data => .v6 fun i => byte data (24 + i)

/-- What the length fields say about a packet fits the bytes that are there. -/
def WellFormed : Version → Bytes → Prop
  | .v4, data => 20 ≤ data.length ∧ versionField data = 4 ∧ 5 ≤ ihl data ∧
      4 * ihl data ≤ totalLength data ∧ totalLength data ≤ data.length
  | .v6, data => 40 ≤ data.length ∧ versionField data = 6 ∧ 40 + payloadLength data ≤ data.length

instance (version : Version) (data : Bytes) : Decidable (version.WellFormed data) := by
  cases version <;> unfold WellFormed <;> infer_instance

/-- What follows the IPv4 header with its options or the fixed IPv6 header. -/
def payload : Version → Bytes → Bytes
  | .v4, data => (data.drop (4 * ihl data)).take (totalLength data - 4 * ihl data)
  | .v6, data => (data.drop 40).take (payloadLength data)

end Version

/-! ### What a packet carries -/

/-- The extension headers of IPv6 that name a next header. -/
def isExtension (kind : UInt8) : Bool := kind ∈ ([0, 43, 44, 51, 60, 135, 139, 140] : List UInt8)

def fragmentHeader : UInt8 := 44

def authenticationHeader : UInt8 := 51

def extensionLength (kind : UInt8) (rest : Bytes) : Nat :=
  if kind = fragmentHeader then 8
  else if kind = authenticationHeader then ((byte rest 1).toNat + 2) * 4
  else ((byte rest 1).toNat + 1) * 8

/-- The offset in a fragment header, in units of eight bytes. -/
def extensionOffset (rest : Bytes) : Nat := u16 rest 2 / 8

/-- The protocol at the end of a chain of headers and, unless the packet is a
later fragment, the bytes of that protocol. -/
structure ChainEnd where
  protocol : UInt8
  segment : Option Bytes
  deriving DecidableEq, Repr

/-- `Chain kind rest last`: a header of type `kind` at the start of `rest` is the
first of a chain of headers that ends in `last`. -/
inductive Chain : UInt8 → Bytes → ChainEnd → Prop
  | upper (kind : UInt8) (rest : Bytes) (hkind : isExtension kind = false) :
      Chain kind rest ⟨kind, some rest⟩
  | laterFragment (rest : Bytes) (hlength : 8 ≤ rest.length) (hoffset : extensionOffset rest ≠ 0) :
      Chain fragmentHeader rest ⟨byte rest 0, none⟩
  | extension (kind : UInt8) (rest : Bytes) (last : ChainEnd) (hkind : isExtension kind = true)
      (hlength : extensionLength kind rest ≤ rest.length)
      (hoffset : kind = fragmentHeader → extensionOffset rest = 0)
      (htail : Chain (byte rest 0) (rest.drop (extensionLength kind rest)) last) :
      Chain kind rest last

/-- A chain that is not cut off by a fragment ends in an upper-layer protocol. -/
theorem Chain.end_not_extension {kind : UInt8} {rest : Bytes} {last : ChainEnd}
    (h : Chain kind rest last) (hsegment : last.segment ≠ none) :
    isExtension last.protocol = false := by
  induction h with
  | upper kind rest hkind => exact hkind
  | laterFragment => exact absurd rfl hsegment
  | extension _ _ _ _ _ _ _ ih => exact ih hsegment

theorem Chain.eq_of_upper {kind : UInt8} {rest : Bytes} {last : ChainEnd}
    (h : Chain kind rest last) (hkind : isExtension kind = false) : last = ⟨kind, some rest⟩ := by
  cases h with
  | upper => rfl
  | laterFragment => cases hkind
  | extension _ _ _ hext => rw [hkind] at hext; cases hext

theorem Chain.unique {kind : UInt8} {rest : Bytes} {first second : ChainEnd}
    (hfirst : Chain kind rest first) (hsecond : Chain kind rest second) : first = second := by
  induction hfirst with
  | upper kind rest hkind => exact (hsecond.eq_of_upper hkind).symm
  | laterFragment rest hlength hoffset =>
      cases hsecond with
      | upper _ _ hkind => cases hkind
      | laterFragment => rfl
      | extension _ _ _ _ _ hzero => exact absurd (hzero rfl) hoffset
  | extension kind rest first hkind hlength hoffset htail ih =>
      cases hsecond with
      | upper _ _ hupper => rw [hkind] at hupper; cases hupper
      | laterFragment _ _ hlater => exact absurd (hoffset rfl) hlater
      | extension _ _ _ _ _ _ hother => exact ih hother

/-- The upper-layer protocol of a packet and its source and destination port. -/
structure Reading where
  protocol : UInt8
  sourcePort : Nat
  destinationPort : Nat
  deriving DecidableEq, Repr

/-- The ports are in the first four bytes of a TCP or UDP header. -/
def ChainEnd.reading (last : ChainEnd) : Reading :=
  match last.segment with
  | some segment =>
      if (last.protocol = tcp ∨ last.protocol = udp) ∧ 4 ≤ segment.length then
        ⟨last.protocol, u16 segment 0, u16 segment 2⟩
      else ⟨last.protocol, 0, 0⟩
  | none => ⟨last.protocol, 0, 0⟩

/-- Where the headers of a packet end. An IPv4 packet other than the first
fragment has no start of an upper-layer header. -/
inductive Carries : Version → Bytes → ChainEnd → Prop
  | v4 (data : Bytes) :
      Carries .v4 data ⟨byte data 9,
        if fragmentOffset data = 0 then some (Version.v4.payload data) else none⟩
  | v6 (data : Bytes) (last : ChainEnd) (h : Chain (byte data 6) (Version.v6.payload data) last) :
      Carries .v6 data last

end MullvadAppTests.Lib.Ip
