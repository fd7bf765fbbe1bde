import MullvadAppTests.TestRpc.GrpcForwarder

/-!
The loop of `new_rpc_client` in `test-manager/src/mullvad_daemon.rs` with the
management channels it serves. `DummyService::call` makes a duplex stream for
every gRPC client and queues one end of it; the loop takes these ends in order,
throws away what is left on the transport and forwards in both directions until
one of the exits of the inner loop is reached.

The transport is seen from the loop only: what `framed_transport.next()` gives
is an input. A poll of the select is split into its three parts, so that another
thread may act between them. Channels are numbered in the order in which they
were opened. Numbers, `delivered`, `shutdownBy`, `iteration` and `log` are
histories that the loop does not read.
-/

namespace MullvadAppTests.TestManager

open Lib Lib.LengthDelimited TestRpc

def converterBufSize : Nat := 16 * 1024

/-! ### Management channels -/

/-- The duplex stream of one gRPC client: `delivered` is what the loop has
written, by the sessions it came from, and `shutdownBy` the session whose EOF
marker made the loop shut the stream down. -/
structure ManagementChannel where
  fromClient : Pipe UInt8
  toClient : Pipe UInt8
  delivered : List Message
  shutdownBy : Option Nat
  deriving DecidableEq, Repr

def ManagementChannel.new : ManagementChannel := ⟨.new, .new, [], none⟩

/-- Either end of a duplex stream closes both directions when it is dropped. -/
def ManagementChannel.dropEnd (ch : ManagementChannel) : ManagementChannel :=
  {ch with fromClient := ch.fromClient.close, toClient := ch.toClient.close}

inductive ClientAction where
  | write (chunk : Bytes)
  | read (n : Nat)
  | shutdown
  | drop
  deriving DecidableEq, Repr

def ManagementChannel.client (ch : ManagementChannel) : ClientAction → Option ManagementChannel
  | .write chunk =>
      match ch.fromClient.write converterBufSize chunk with
      | some (.ok pipe) => some {ch with fromClient := pipe}
      | some (.error ()) => some ch
      | none => none
  | .read n => (ch.toClient.read n).map fun result => {ch with toClient := result.2}
  | .shutdown => some {ch with fromClient := ch.fromClient.close}
  | .drop => some ch.dropEnd

/-! ### The loop -/

/-- Which source of the select was ready, and with what. -/
inductive Selected where
  | reset
  | transport (item : Option (Except IoError Message))
  | channel (read : Except IoError Bytes)

/-- What the branch does next. Every send of no bytes is the last one. -/
inductive Arm where
  | restart
  | shutdown (session : Nat)
  | writeAll (message : Message)
  | send (data : Bytes)
  deriving DecidableEq

/-- The arms of the `match`. -/
def onSelected : Selected → Arm
  | .reset => .restart
  | .transport (some (.ok message)) =>
      if message.data = [] then .shutdown message.channel else .writeAll message
  | .transport (some (.error _)) => .restart
  | .transport none => .restart
  | .channel (.ok data) => .send data
  | .channel (.error _) => .send []

/-- The source that the select polls next. -/
inductive Stage where
  | reset
  | transport
  | channel
  deriving DecidableEq, Repr

/-- Where the loop is. While it selects there is a `Notified` future, and
`notified` says whether it has been woken. -/
inductive ManagerPhase where
  | waiting
  | clearing
  | selecting (stage : Stage) (notified : Bool)
  | writing (session : Nat) (rest : Bytes)
  | sending (data : Bytes)
  | stopped
  deriving DecidableEq, Repr

/-- Reads and writes of the loop on a channel, and resets while one is served.
An operation that a reset finds the loop suspended in is named by the iteration
it belongs to. -/
inductive ChannelEvent where
  | access (channel iteration : Nat)
  | reset (channel : Nat) (operation : Option Nat)
  deriving DecidableEq, Repr

structure Manager where
  phase : ManagerPhase
  opened : Nat
  accepted : Nat
  current : Nat
  providerClosed : Bool
  channels : Nat → ManagementChannel
  iteration : Nat
  log : List ChannelEvent

def Manager.new : Manager where
  phase := .waiting
  opened := 0
  accepted := 0
  current := 0
  providerClosed := false
  channels := fun _ => .new
  iteration := 0
  log := []

/-- `pollTransport none` finds the transport pending; the number given to a
read or a write is how many bytes it moves. -/
inductive ManagerAction where
  | call
  | closeProvider
  | client (c : Nat) (a : ClientAction)
  | notifyWaiters
  | nextChannel
  | clear (ready : Bool)
  | pollReset
  | pollTransport (item : Option (Option (Except IoError Message)))
  | pollChannel (n : Nat)
  | write (n : Nat)
  | sent (ok : Bool)

def Manager.channel (m : Manager) : ManagementChannel := m.channels m.current

def Manager.setChannel (m : Manager) (c : Nat) (ch : ManagementChannel) : Manager :=
  {m with channels := Function.update m.channels c ch}

/-- The top of the inner loop. -/
def Manager.iterate (m : Manager) : Manager :=
  {m with phase := .selecting .reset false, iteration := m.iteration + 1}

/-- The inner loop is left and the stream dropped. -/
def Manager.leave (m : Manager) : Manager :=
  {m.setChannel m.current m.channel.dropEnd with phase := .waiting}

def Manager.access (m : Manager) : Manager :=
  {m with log := m.log ++ [.access m.current m.iteration]}

/-- A read has left `pipe` behind. -/
def Manager.took (m : Manager) (pipe : Pipe UInt8) : Manager :=
  (m.setChannel m.current {m.channel with fromClient := pipe}).access

/-- A write of `chunk`, which came from `session`, has left `pipe` behind. -/
def Manager.gave (m : Manager) (pipe : Pipe UInt8) (session : Nat) (chunk : Bytes) : Manager :=
  (m.setChannel m.current
    {m.channel with
      toClient := pipe, delivered := m.channel.delivered ++ [⟨session, chunk⟩]}).access

/-- `write_all` with `rest` still to be written. -/
def Manager.writeAll (m : Manager) (session : Nat) (rest : Bytes) : Manager :=
  if rest = [] then m.iterate else {m with phase := .writing session rest}

/-- The operation that the loop is suspended in, if it is one that a branch of
the select has started. -/
def Manager.operation (m : Manager) : Option Nat :=
  match m.phase with
  | .writing _ _ | .sending _ => some m.iteration
  | _ => none

def ManagerPhase.serving : ManagerPhase → Bool
  | .waiting | .stopped => false
  | _ => true

/-- `notify_waiters` wakes the `Notified` of the select and leaves no permit. The
one of an iteration whose select is over is not polled again. -/
def Manager.notifyWaiters (m : Manager) : Manager where
  phase :=
    match m.phase with
    | .selecting stage _ => .selecting stage true
    | phase => phase
  opened := m.opened
  accepted := m.accepted
  current := m.current
  providerClosed := m.providerClosed
  channels := m.channels
  iteration := m.iteration
  log := if m.phase.serving then m.log ++ [.reset m.current m.operation] else m.log

def Manager.perform (m : Manager) : Arm → Manager
  | .restart => m.leave
  | .shutdown session =>
      (m.setChannel m.current
        {m.channel with toClient := m.channel.toClient.close, shutdownBy := some session}).leave
  | .writeAll message => m.writeAll message.channel message.data
  | .send data => {m with phase := .sending data}

/-- One step of the spawned task, of a client, or of the holder of the
connection handle. -/
def newRpcClient (m : Manager) : ManagerAction → Option Manager
  | .call => if m.providerClosed then none else some {m with opened := m.opened + 1}
  | .closeProvider => some {m with providerClosed := true}
  | .client c a =>
      if c < m.opened then ((m.channels c).client a).map (m.setChannel c) else none
  | .notifyWaiters => some m.notifyWaiters
  | .nextChannel =>
      match m.phase with
      | .waiting =>
          if m.accepted < m.opened then
            some {m with phase := .clearing, current := m.accepted, accepted := m.accepted + 1}
          else if m.providerClosed then some {m with phase := .stopped}
          else none
      | _ => none
  | .clear ready =>
      match m.phase with
      | .clearing => if ready then some m else some m.iterate
      | _ => none
  | .pollReset =>
      match m.phase with
      | .selecting .reset notified =>
          if notified then some (m.perform (onSelected .reset))
          else some {m with phase := .selecting .transport notified}
      | _ => none
  | .pollTransport item =>
      match m.phase with
      | .selecting .transport notified =>
          match item with
          | none => some {m with phase := .selecting .channel notified}
          | some item => some (m.perform (onSelected (.transport item)))
      | _ => none
  | .pollChannel n =>
      match m.phase with
      | .selecting .channel notified =>
          if converterBufSize < n then none
          else
            match m.channel.fromClient.read n with
            | some (data, pipe) =>
                some ((m.took pipe).perform (onSelected (.channel (.ok data))))
            | none =>
                if m.channel.fromClient.pending = [] then
                  some {m with phase := .selecting .reset notified}
                else none
      | _ => none
  | .write n =>
      match m.phase with
      | .writing session rest =>
          if n = 0 ∨ rest.length < n then none
          else
            match m.channel.toClient.write converterBufSize (rest.take n) with
            | some (.error ()) => some m.leave
            | some (.ok pipe) =>
                some ((m.gave pipe session (rest.take n)).writeAll session (rest.drop n))
            | none => none
      | _ => none
  | .sent ok =>
      match m.phase with
      | .sending data => if ok = false ∨ data = [] then some m.leave else some m.iterate
      | _ => none

end MullvadAppTests.TestManager
