import MullvadAppTests.Lib.Incremental
import MullvadAppTests.Lib.LengthDelimited

/-!
The multiplexing codec of `test-rpc/src/transport.rs`: three kinds of frames
share one serial line. A frame is a type byte and a payload inside a
length-delimited frame. Before it decodes, the codec drops `^x` pairs from the
front of the buffer and, as long as it has not connected, looks for the
handshake signature to find out where the first frame begins.

The `has_connected` flag is shared with `ConnectionHandle` in the source. Here
it is a field of the codec; whoever resets the connection writes that field.
-/

namespace MullvadAppTests.TestRpc

open Lib.LengthDelimited Lib.Incremental

/-- `FRAME_TYPE_SIZE`: the size of the `repr(u8)` frame type. -/
def frameTypeSize : Nat := 1

/-- `MULTIPLEX_LEN_DELIMITED_HEADER_SIZE`. -/
def multiplexLenDelimitedHeaderSize : Nat := 4

/-- The default `max_frame_length` of the length-delimited codec, 8 MiB. -/
def maxFrameLength : Nat := 8 * 1024 * 1024

/-- `MULLVAD_SIGNATURE`, the bytes of `MULLV4D;`. -/
def mullvadSignature : Bytes := [0x4D, 0x55, 0x4C, 0x4C, 0x56, 0x34, 0x44, 0x3B]

/-- The byte `^`. -/
def caret : UInt8 := 0x5E

inductive Frame where
  | handshake
  | testRunner (data : Bytes)
  | daemonRpc (data : Bytes)
  deriving DecidableEq, Repr

inductive FrameType where
  | handshake
  | testRunner
  | daemonRpc
  deriving DecidableEq, Repr

def FrameType.toByte : FrameType → UInt8
  | .handshake => 0
  | .testRunner => 1
  | .daemonRpc => 2

def FrameType.tryFrom (value : UInt8) : Option FrameType :=
  if value = FrameType.handshake.toByte then some .handshake
  else if value = FrameType.testRunner.toByte then some .testRunner
  else if value = FrameType.daemonRpc.toByte then some .daemonRpc
  else none

structure MultiplexCodec where
  lenDelimCodec : DecodeState
  hasConnected : Bool
  deriving DecidableEq, Repr

/-- `MultiplexCodec::new`: the inner decoder waits for a header. -/
def MultiplexCodec.new (hasConnected : Bool) : MultiplexCodec :=
  ⟨.head, hasConnected⟩

def decodeFrame : Bytes → Except IoError Frame
  | [] => .error ⟨.invalidInput, "frame does not contain frame type"⟩
  | typeByte :: frame =>
      match FrameType.tryFrom typeByte with
      | none => .error ⟨.invalidInput, "invalid frame type"⟩
      | some .handshake => .ok .handshake
      | some .testRunner => .ok (.testRunner frame)
      | some .daemonRpc => .ok (.daemonRpc frame)

/-- `encode_frame`. The source's case without a payload is never used. -/
def encodeFrame (frameType : FrameType) (bytes : Option Bytes) : Except IoError Bytes :=
  match bytes with
  | some bytes => Lib.LengthDelimited.encode maxFrameLength (frameType.toByte :: bytes)
  | none => Lib.LengthDelimited.encode maxFrameLength [frameType.toByte]

/-- `Encoder::encode`: the bytes put into the write buffer. -/
def encode : Frame → Except IoError Bytes
  | .handshake => encodeFrame .handshake (some mullvadSignature)
  | .testRunner bytes => encodeFrame .testRunner (some bytes)
  | .daemonRpc bytes => encodeFrame .daemonRpc (some bytes)

/-- The first position at which a window of the signature's length equals the
signature. A suffix shorter than the signature is never equal to it, so the
windows need not be told apart from the suffixes. -/
def findSignature : Bytes → Option Nat
  | [] => none
  | b :: rest =>
      if (b :: rest).take mullvadSignature.length = mullvadSignature then some 0
      else (findSignature rest).map (· + 1)

/-- `skip_noise`: the new value of `has_connected` and what is left of `src`.
Subtraction of naturals saturates, as `saturating_sub` does. -/
def skipNoise (hasConnected : Bool) : Bytes → Bool × Bytes
  | a :: b :: rest =>
      if a = caret then skipNoise hasConnected rest
      else if hasConnected then (hasConnected, a :: b :: rest)
      else
        match findSignature (a :: b :: rest) with
        | some window =>
            (true, (a :: b :: rest).drop
              (window - frameTypeSize - multiplexLenDelimitedHeaderSize))
        | none => (hasConnected, a :: b :: rest)
  | src => (hasConnected, src)

/-- What `decode_inner` makes of the result of the inner decoder:
`frame.map(Self::decode_frame).transpose()` behind the `?`. -/
def liftFrame : Except IoError (Option Bytes) → Except IoError (Option Frame)
  | .error e => .error e
  | .ok none => .ok none
  | .ok (some frame) => (decodeFrame frame).map some

/-- `decode_inner`, which is all that `Decoder::decode` calls. -/
def decode : DecodeFn MultiplexCodec UInt8 Frame IoError := fun codec src =>
  let (hasConnected, src) := skipNoise codec.hasConnected src
  if !hasConnected then
    (.ok none, {codec with hasConnected}, src)
  else
    let (frame, lenDelimCodec, src) :=
      Lib.LengthDelimited.decode maxFrameLength codec.lenDelimCodec src
    (liftFrame frame, ⟨lenDelimCodec, hasConnected⟩, src)

def Frame.frameType : Frame → FrameType
  | .handshake => .handshake
  | .testRunner _ => .testRunner
  | .daemonRpc _ => .daemonRpc

/-- The payload that is sent with the frame's type byte. -/
def Frame.payload : Frame → Bytes
  | .handshake => mullvadSignature
  | .testRunner data => data
  | .daemonRpc data => data

/-- The frame fits the length limit together with its type byte. -/
def Frame.Fits (f : Frame) : Prop := f.payload.length ≤ maxFrameLength - 1

instance (f : Frame) : Decidable f.Fits := inferInstanceAs (Decidable (_ ≤ _))

/-- The body of the length-delimited frame. -/
def Frame.body (f : Frame) : Bytes := f.frameType.toByte :: f.payload

/-- The bytes of the frame on the line. -/
def Frame.wire (f : Frame) : Bytes := putUint32 f.body.length ++ f.body

@[simp] theorem Frame.length_body (f : Frame) : f.body.length = f.payload.length + 1 := rfl

@[simp] theorem Frame.length_wire (f : Frame) : f.wire.length = f.payload.length + 5 := by
  simp only [Frame.wire, List.length_append, length_putUint32, Frame.length_body]
  omega

theorem encode_eq (f : Frame) :
    encode f = Lib.LengthDelimited.encode maxFrameLength f.body := by
  cases f <;> rfl

theorem encode_of_fits (f : Frame) (hf : f.Fits) : encode f = .ok f.wire := by
  have hle : ¬ maxFrameLength < f.body.length := by
    unfold Frame.Fits at hf
    simp only [Frame.length_body, maxFrameLength] at hf ⊢
    omega
  rw [encode_eq, Lib.LengthDelimited.encode, if_neg hle]
  rfl

theorem encode_of_not_fits (f : Frame) (hf : ¬ f.Fits) :
    encode f = .error ⟨.invalidInput, "frame size too big"⟩ := by
  have hlt : maxFrameLength < f.body.length := by
    unfold Frame.Fits at hf
    simp only [Frame.length_body, maxFrameLength] at hf ⊢
    omega
  rw [encode_eq, Lib.LengthDelimited.encode, if_pos hlt]

/-- Decoding the body of a frame gives the frame back. -/
theorem decodeFrame_body (f : Frame) : decodeFrame f.body = .ok f := by
  cases f <;> rfl

/-- The type byte is never `^`, and neither is the first byte of a header:
the limit keeps the top length byte at zero. -/
theorem Frame.body_head (f : Frame) : ∃ rest, f.body = f.frameType.toByte :: rest ∧
    f.frameType.toByte ≠ caret := by
  refine ⟨f.payload, rfl, ?_⟩
  cases f <;> simp [Frame.frameType, FrameType.toByte, caret]

theorem Frame.wire_head (f : Frame) (hf : f.Fits) : ∃ rest, f.wire = 0 :: rest := by
  have hlt : f.body.length < 2 ^ 24 := by
    unfold Frame.Fits at hf
    simp only [Frame.length_body, maxFrameLength] at hf ⊢
    omega
  refine ⟨(putUint32 f.body.length).tail ++ f.body, ?_⟩
  unfold Frame.wire
  rw [putUint32_small _ hlt]
  rfl

end MullvadAppTests.TestRpc
