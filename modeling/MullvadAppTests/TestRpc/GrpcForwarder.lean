import MullvadAppTests.Lib.Pipe
import MullvadAppTests.TestRpc.Codec

/-!
`GrpcForwarder` of `test-rpc/src/transport.rs`: the duplex stream on which the
loops of `new_rpc_client` and of `forward_to_mullvad_daemon_interface` exchange
length-delimited messages with `forward_messages`. An empty message is the EOF
marker of a session.
-/

namespace MullvadAppTests.TestRpc

open Lib Lib.LengthDelimited

def daemonChannelBufSize : Nat := 16 * 1024

/-- A message together with the management channel it belongs to: the one it
was read from or, on the way back, the one whose message had opened the daemon
connection. The loops see the data only. -/
structure Message where
  channel : Nat
  data : Bytes
  deriving DecidableEq, Repr

/-- The bytes that `LengthDelimitedCodec` puts into the stream for a message; none
if the message is too long, in which case the send fails. -/
def framed (data : Bytes) : Bytes :=
  match Lib.LengthDelimited.encode maxFrameLength data with
  | .ok bytes => bytes
  | .error _ => []

theorem length_framed {data : Bytes} (h : data.length ≤ maxFrameLength) :
    (framed data).length = data.length + 4 := by
  have hle : ¬ maxFrameLength < data.length := by omega
  simp only [framed, Lib.LengthDelimited.encode, if_neg hle, List.length_append, length_putUint32]
  omega

/-- The reading half of a `Framed` stream: the decoder and the bytes that it has
not used yet. -/
structure FramedRead where
  state : DecodeState
  buffer : Bytes
  deriving DecidableEq, Repr

def FramedRead.new : FramedRead := ⟨.head, []⟩

/-- What `next()` gives without reading; `none` is pending. `ended` says that
the other end of the stream is gone and everything has been read. -/
def FramedRead.next (f : FramedRead) (ended : Bool) :
    Option (Option (Except IoError Bytes)) × FramedRead :=
  match Lib.LengthDelimited.decode maxFrameLength f.state f.buffer with
  | (.ok (some data), state, buffer) => (some (some (.ok data)), ⟨state, buffer⟩)
  | (.error e, state, buffer) => (some (some (.error e)), ⟨state, buffer⟩)
  | (.ok none, state, buffer) =>
      if ended then
        if buffer = [] then (some none, ⟨state, buffer⟩)
        else (some (some (.error ⟨.other, "bytes remaining on stream"⟩)), ⟨state, buffer⟩)
      else (none, ⟨state, buffer⟩)

end MullvadAppTests.TestRpc
