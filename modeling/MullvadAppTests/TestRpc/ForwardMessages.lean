import MullvadAppTests.TestRpc.Codec

/-!
`forward_messages` of `test-rpc/src/transport.rs`: the loop that joins the
serial line, the handshake channel, the tarpc channel and the daemon channel of
one end. An iteration polls a select of four sources, the serial line first,
then runs the body of the branch that won. `serde_json` is a parameter.

Reads from the serial line are inputs, cut in any way. The two local channels
are queues that the application fills and closes; a body that waits for a send
completes in a step of its own and may fail there. The channels are kept with
their histories, which nothing in the loop reads.
-/

namespace MullvadAppTests.TestRpc

open Lib.LengthDelimited Lib.Incremental

/-! ### The serial stream -/

/-- `MultiplexCodec::framed(serial_stream)`: the codec with the read buffer of
tokio's `Framed` and its two flags. `readable` means that the decoder may find
a frame without reading. -/
structure SerialStream where
  codec : MultiplexCodec
  buffer : Bytes
  readable : Bool
  eof : Bool
  deriving DecidableEq, Repr

def SerialStream.new (codec : MultiplexCodec) : SerialStream := ⟨codec, [], false, false⟩

inductive SerialPoll where
  | pending
  | ready (item : Option (Except IoError Frame))
  deriving DecidableEq

/-- Decode from the buffer if that can give anything; at the end of the stream
what is left over must be empty. -/
def SerialStream.tryDecode (s : SerialStream) : SerialPoll × SerialStream :=
  if s.readable then
    match decode s.codec s.buffer with
    | (.ok (some frame), codec, buffer) => (.ready (some (.ok frame)), {s with codec, buffer})
    | (.error e, codec, buffer) => (.ready (some (.error e)), {s with codec, buffer})
    | (.ok none, codec, buffer) =>
        if s.eof then
          if buffer = [] then (.ready none, {s with codec, buffer, readable := false})
          else (.ready (some (.error ⟨.other, "bytes remaining on stream"⟩)),
            {s with codec, buffer, readable := false})
        else (.pending, {s with codec, buffer, readable := false})
  else (.pending, s)

/-- `serial_stream.next()` polled once. `reads` are the results of the reads
it makes, all of which must be used; a read of no bytes is the end of the
stream. -/
def SerialStream.pollNext : List (Except IoError Bytes) → SerialStream →
    Option (SerialPoll × SerialStream)
  | [], s => some s.tryDecode
  | read :: reads, s =>
      match s.tryDecode with
      | (.ready _, _) => none
      | (.pending, s) =>
          match read with
          | .error e => if reads = [] then some (.ready (some (.error e)), s) else none
          | .ok [] =>
              if s.eof then
                if reads = [] then some (.ready none, s) else none
              else SerialStream.pollNext reads {s with eof := true, readable := true}
          | .ok chunk =>
              SerialStream.pollNext reads
                {s with buffer := s.buffer ++ chunk, eof := false, readable := true}

/-! ### The body of the loop -/

/-- An error of `serde_json`, by its text. -/
abbrev JsonError := String

/-- `serde_json::to_vec` and `serde_json::from_slice` at one message type. -/
structure Json (M : Type) where
  toVec : M → Except JsonError Bytes
  fromSlice : Bytes → Except JsonError M

/-- What was serialised is read back. -/
def Json.RoundTrips {M : Type} (json : Json M) : Prop :=
  ∀ message bytes, json.toVec message = .ok bytes → json.fromSlice bytes = .ok message

/-- `serde_json` at `bool`. -/
def boolJson : Json Bool where
  toVec
    | true => .ok [0x74, 0x72, 0x75, 0x65]
    | false => .ok [0x66, 0x61, 0x6C, 0x73, 0x65]
  fromSlice bytes :=
    if bytes = [0x74, 0x72, 0x75, 0x65] then .ok true
    else if bytes = [0x66, 0x61, 0x6C, 0x73, 0x65] then .ok false
    else .error "expected value at line 1 column 1"

theorem boolJson_roundTrips : boolJson.RoundTrips := by
  rintro (_ | _) bytes h <;> cases h <;> rfl

inductive ChannelError where
  | send
  | receive
  deriving DecidableEq, Repr

inductive ForwardError where
  | deserializeFailed (source : JsonError)
  | serializeFailed (source : JsonError)
  | serialConnection (source : IoError)
  | testRunnerChannel (source : ChannelError)
  | daemonChannel (source : IoError)
  | handshakeError (source : IoError)
  deriving DecidableEq, Repr

/-- Which source of the select was ready, and with what. -/
inductive Selected (T : Type) where
  | serial (frame : Option (Except IoError Frame))
  | handshake (token : Option Unit)
  | runner (message : Option (Except ChannelError T))
  | daemon (data : Option (Except IoError Bytes))

/-- What the branch then waits for, or how the loop ends. -/
inductive Op (S : Type) where
  | sendRunner (message : S)
  | sendDaemon (data : Bytes)
  | forwardHandshake
  | queueHandshake
  | sendSerial (frame : Frame)
  | closeDaemon
  | stop (result : Except ForwardError Unit)

inductive Phase (S : Type) where
  | selecting
  | performing (op : Op S)
  | returned (result : Except ForwardError Unit)

/-- The arms of the `match`. `handshakeFwd` says whether `handshake_fwd` is
given, which only the client does. -/
def onSelected {T S : Type} (out : Json T) (into : Json S) (handshakeFwd : Bool) :
    Selected T → Op S
  | .serial (some (.error e)) => .stop (.error (.serialConnection e))
  | .serial (some (.ok (.testRunner data))) =>
      match into.fromSlice data with
      | .error e => .stop (.error (.deserializeFailed e))
      | .ok message => .sendRunner message
  | .serial (some (.ok (.daemonRpc data))) => .sendDaemon data
  | .serial (some (.ok .handshake)) =>
      if handshakeFwd then .forwardHandshake else .queueHandshake
  | .handshake (some ()) => .sendSerial .handshake
  | .runner (some (.error e)) => .stop (.error (.testRunnerChannel e))
  | .runner (some (.ok message)) =>
      match out.toVec message with
      | .error e => .stop (.error (.serializeFailed e))
      | .ok serialized => .sendSerial (.testRunner serialized)
  | .daemon (some (.error e)) => .stop (.error (.daemonChannel e))
  | .daemon (some (.ok data)) => .sendSerial (.daemonRpc data)
  | .daemon none => .closeDaemon
  | .serial none | .handshake none | .runner none => .stop (.ok ())

/-- The error a failed send of this frame ends the loop with. -/
def sendSerialError (frame : Frame) (e : IoError) : ForwardError :=
  match frame with
  | .handshake => .handshakeError e
  | .testRunner _ | .daemonRpc _ => .serialConnection e

/-! ### One end of the line -/

/-- The loop with its channels. `handshakes` counts the tokens queued in
`handshaker`; the last six fields are histories. -/
structure Endpoint (T S : Type) where
  serial : SerialStream
  handshakes : Nat
  phase : Phase S
  runnerQueue : List T
  runnerClosed : Bool
  daemonQueue : List Bytes
  daemonClosed : Bool
  runnerSent : List T
  runnerDelivered : List S
  daemonOffered : List Bytes
  daemonDelivered : List Bytes
  emitted : List Frame
  received : List Frame

/-- The state in which `create_server_transports` and
`create_client_transports` start the loop: one handshake is queued. -/
def Endpoint.new (T S : Type) (hasConnected : Bool) : Endpoint T S where
  serial := .new (.new hasConnected)
  handshakes := 1
  phase := .selecting
  runnerQueue := []
  runnerClosed := false
  daemonQueue := []
  daemonClosed := false
  runnerSent := []
  runnerDelivered := []
  daemonOffered := []
  daemonDelivered := []
  emitted := []
  received := []

/-- An error that a local channel reports instead of an item. -/
inductive Fault where
  | runner (e : ChannelError)
  | daemon (e : IoError)
  deriving DecidableEq

inductive EndAction (T : Type) where
  | offerRunner (message : T)
  | closeRunner
  | offerDaemon (payload : Bytes)
  | closeDaemon
  | poll (reads : List (Except IoError Bytes)) (fault : Option Fault)
  | complete (ok : Bool)

variable {T S : Type}

/-- `runner_forwarder.next()`: `none` is pending. -/
def Endpoint.pollRunner (e : Endpoint T S) : Option Fault →
    Option (Option (Except ChannelError T))
  | some (.runner err) => some (some (.error err))
  | _ =>
      match e.runnerQueue with
      | message :: _ => some (some (.ok message))
      | [] => if e.runnerClosed then some none else none

/-- `mullvad_daemon_forwarder.next()`: `none` is pending. -/
def Endpoint.pollDaemon (e : Endpoint T S) : Option Fault →
    Option (Option (Except IoError Bytes))
  | some (.daemon err) => some (some (.error err))
  | _ =>
      match e.daemonQueue with
      | payload :: _ => some (some (.ok payload))
      | [] => if e.daemonClosed then some none else none

/-- The local part of the select once the serial line is pending: handshakes
before the tarpc channel before the daemon channel. -/
def Endpoint.pollLocal (e : Endpoint T S) (fault : Option Fault) : Option (Selected T) :=
  if 0 < e.handshakes then some (.handshake (some ()))
  else
    match e.pollRunner fault with
    | some item => some (.runner item)
    | none => (e.pollDaemon fault).map .daemon

/-- Remove from its channel what the select has returned. -/
def Endpoint.take (e : Endpoint T S) : Selected T → Endpoint T S
  | .serial (some (.ok frame)) => {e with received := e.received ++ [frame]}
  | .handshake _ => {e with handshakes := e.handshakes - 1}
  | .runner (some (.ok _)) => {e with runnerQueue := e.runnerQueue.tail}
  | .daemon (some (.ok _)) => {e with daemonQueue := e.daemonQueue.tail}
  | _ => e

/-- The send that the branch waits for is over. A send that fails leaves
nothing behind and ends the loop. Also gives the bytes put on the line. -/
def Endpoint.finish (e : Endpoint T S) (op : Op S) (ok : Bool) : Endpoint T S × Bytes :=
  match op with
  | .sendRunner message =>
      if ok then ({e with phase := .selecting
                          runnerDelivered := e.runnerDelivered ++ [message]}, [])
      else ({e with phase := .returned (.error (.testRunnerChannel .send))}, [])
  | .sendDaemon data =>
      if ok then ({e with phase := .selecting
                          daemonDelivered := e.daemonDelivered ++ [data]}, [])
      else ({e with phase := .returned (.error (.daemonChannel ⟨.brokenPipe, "broken pipe"⟩))}, [])
  | .forwardHandshake => ({e with phase := .selecting}, [])
  | .queueHandshake => ({e with phase := .selecting, handshakes := e.handshakes + 1}, [])
  | .sendSerial frame =>
      match encode frame with
      | .error err => ({e with phase := .returned (.error (sendSerialError frame err))}, [])
      | .ok bytes =>
          if ok then ({e with phase := .selecting, emitted := e.emitted ++ [frame]}, bytes)
          else ({e with phase := .returned (.error
            (sendSerialError frame ⟨.brokenPipe, "broken pipe"⟩))}, [])
  | .closeDaemon =>
      match encode (.daemonRpc []), ok with
      | .ok bytes, true =>
          ({e with phase := .returned (.ok ()), emitted := e.emitted ++ [.daemonRpc []]}, bytes)
      | _, _ => ({e with phase := .returned (.ok ())}, [])
  | .stop result => ({e with phase := .returned result}, [])

/-- One poll of the whole select. When every source is pending the loop stays
where it is, with the bytes it has read in the buffer. -/
def Endpoint.poll (out : Json T) (into : Json S) (handshakeFwd : Bool) (e : Endpoint T S)
    (reads : List (Except IoError Bytes)) (fault : Option Fault) : Option (Endpoint T S) :=
  match e.serial.pollNext reads with
  | none => none
  | some (.ready item, serial) =>
      some {({e with serial} : Endpoint T S).take (.serial item) with
        phase := .performing (onSelected out into handshakeFwd (.serial item))}
  | some (.pending, serial) =>
      match e.pollLocal fault with
      | none => some {e with serial}
      | some selected =>
          some {({e with serial} : Endpoint T S).take selected with
            phase := .performing (onSelected out into handshakeFwd selected)}

/-- One step of an end: the application fills or closes a channel, or the loop
moves. Also gives the bytes put on the line. -/
def Endpoint.step (out : Json T) (into : Json S) (handshakeFwd : Bool) (e : Endpoint T S) :
    EndAction T → Option (Endpoint T S × Bytes)
  | .offerRunner message =>
      if e.runnerClosed then none
      else some ({e with runnerQueue := e.runnerQueue ++ [message]
                         runnerSent := e.runnerSent ++ [message]}, [])
  | .closeRunner => some ({e with runnerClosed := true}, [])
  | .offerDaemon payload =>
      if e.daemonClosed then none
      else some ({e with daemonQueue := e.daemonQueue ++ [payload]
                         daemonOffered := e.daemonOffered ++ [payload]}, [])
  | .closeDaemon => some ({e with daemonClosed := true}, [])
  | .poll reads fault =>
      match e.phase with
      | .selecting => (e.poll out into handshakeFwd reads fault).map fun next => (next, [])
      | _ => none
  | .complete ok =>
      match e.phase with
      | .performing op => some (e.finish op ok)
      | _ => none

end MullvadAppTests.TestRpc
