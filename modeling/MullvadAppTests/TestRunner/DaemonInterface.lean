import MullvadAppTests.TestRpc.GrpcForwarder

/-!
`forward_to_mullvad_daemon_interface` of `test-runner/src/main.rs`: the loop
that opens a connection to the daemon's socket for the first message of a
session and then forwards in both directions. What `proxy_transport.next()`
gives and whether a send succeeds are inputs, and so is what the daemon does: it
may refuse a connection, and every read and every write on the socket may fail.

`past`, `abandoned`, `attempts` and the `taken` of a connection are histories that
the loop does not read.
-/

namespace MullvadAppTests.TestRunner

open Lib Lib.LengthDelimited TestRpc

def ipcReadBufSize : Nat := 16 * 1024

/-- A connection to the daemon, with the management channel whose message
opened it and the messages that were taken from the link for it. -/
structure Connection where
  channel : Nat
  taken : List Message
  written : Bytes
  fromDaemon : Pipe UInt8
  deriving DecidableEq, Repr

/-- Where the loop is within a session. The first message and the later ones
are written by two calls whose outcomes have the same effect. -/
inductive Serving where
  | selecting
  | writing (rest : Bytes)
  | sending (data : Bytes)
  deriving DecidableEq, Repr

/-- `signalling` is the send of the EOF marker after a connection was refused
or a read has failed; its result is ignored. -/
inductive RunnerPhase where
  | waiting
  | connecting (first : Message)
  | serving (conn : Connection) (op : Serving)
  | signalling (channel : Nat)
  | stopped
  deriving DecidableEq, Repr

/-- `abandoned` is the channel of the last session that ended for another
reason than an EOF marker. -/
structure Runner where
  phase : RunnerPhase
  past : List Connection
  abandoned : Option Nat
  attempts : Nat
  deriving DecidableEq, Repr

def Runner.new : Runner := ⟨.waiting, [], none, 0⟩

inductive RunnerAction where
  | receive (item : Option (Except IoError Message))
  | connect (ok : Bool)
  | write (n : Nat)
  | writeFail
  | read (n : Nat)
  | readFail
  | sent (ok : Bool)
  | daemonWrite (chunk : Bytes)
  | daemonClose

def RunnerPhase.connection : RunnerPhase → List Connection
  | .serving conn _ => [conn]
  | _ => []

/-- All connections ever made, the latest one first. -/
def Runner.connections (r : Runner) : List Connection := r.phase.connection ++ r.past

/-- `write_all` with `rest` still to be written. -/
def Serving.writeAll (rest : Bytes) : Serving := if rest = [] then .selecting else .writing rest

/-- The session is over because an EOF marker came. -/
def Runner.finish (r : Runner) (conn : Connection) : Runner :=
  {r with phase := .waiting, past := conn :: r.past}

/-- The session is over for a reason of the runner's own. -/
def Runner.abandon (r : Runner) (conn : Connection) (phase : RunnerPhase) : Runner :=
  {r with phase, past := conn :: r.past, abandoned := some conn.channel}

/-- One step of the loop or of the daemon. -/
def forwardToMullvadDaemonInterface (r : Runner) : RunnerAction → Option Runner
  | .receive item =>
      match r.phase with
      | .waiting =>
          match item with
          | some (.ok message) =>
              if message.data = [] then some r
              else some {r with phase := .connecting message, attempts := r.attempts + 1}
          | some (.error _) => some {r with phase := .stopped}
          | none => some {r with phase := .stopped}
      | .serving conn .selecting =>
          match item with
          | some (.ok message) =>
              if message.data = [] then some (r.finish conn)
              else
                let conn := {conn with taken := conn.taken ++ [message]}
                some {r with phase := .serving conn (.writeAll message.data)}
          | some (.error _) => some (r.abandon conn .waiting)
          | none => some (r.abandon conn .waiting)
      | _ => none
  | .connect ok =>
      match r.phase with
      | .connecting first =>
          if ok then
            let conn := ⟨first.channel, [first], [], .new⟩
            some {r with phase := .serving conn (.writeAll first.data)}
          else
            some {r with phase := .signalling first.channel, abandoned := some first.channel}
      | _ => none
  | .write n =>
      match r.phase with
      | .serving conn (.writing rest) =>
          if n = 0 ∨ rest.length < n then none
          else
            let conn := {conn with written := conn.written ++ rest.take n}
            some {r with phase := .serving conn (.writeAll (rest.drop n))}
      | _ => none
  | .writeFail =>
      match r.phase with
      | .serving conn (.writing _) => some (r.abandon conn .waiting)
      | _ => none
  | .read n =>
      match r.phase with
      | .serving conn .selecting =>
          if ipcReadBufSize < n then none
          else
            match conn.fromDaemon.read n with
            | none => none
            | some (data, pipe) =>
                if data = [] then some (r.abandon conn .waiting)
                else some {r with phase := .serving {conn with fromDaemon := pipe} (.sending data)}
      | _ => none
  | .readFail =>
      match r.phase with
      | .serving conn .selecting => some (r.abandon conn (.signalling conn.channel))
      | _ => none
  | .sent ok =>
      match r.phase with
      | .serving conn (.sending _) =>
          if ok then some {r with phase := .serving conn .selecting}
          else some (r.abandon conn .waiting)
      | .signalling _ => some {r with phase := .waiting}
      | _ => none
  | .daemonWrite chunk =>
      match r.phase with
      | .serving conn op =>
          if conn.fromDaemon.closed then none
          else
            let conn := {conn with fromDaemon := conn.fromDaemon.put chunk}
            some {r with phase := .serving conn op}
      | _ => none
  | .daemonClose =>
      match r.phase with
      | .serving conn op =>
          let conn := {conn with fromDaemon := conn.fromDaemon.close}
          some {r with phase := .serving conn op}
      | _ => none

end MullvadAppTests.TestRunner
