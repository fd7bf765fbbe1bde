import MullvadAppTests.TestRunner.DaemonInterface

/-!
What one step of `forward_to_mullvad_daemon_interface` or of the daemon can do,
said once. `RunnerMove` lists the transitions by what they change.
-/

namespace MullvadAppTests.TestRunner

open Lib Lib.LengthDelimited TestRpc

inductive RunnerMove (r : Runner) : RunnerAction → Runner → Prop
  | ignoreEof (message : Message) (hphase : r.phase = .waiting) (hdata : message.data = []) :
      RunnerMove r (.receive (some (.ok message))) r
  | first (message : Message) (hphase : r.phase = .waiting) (hdata : message.data ≠ []) :
      RunnerMove r (.receive (some (.ok message)))
        {r with phase := .connecting message, attempts := r.attempts + 1}
  | lost (item : Option (Except IoError Message)) (hphase : r.phase = .waiting)
      (hitem : ∀ message, item ≠ some (.ok message)) :
      RunnerMove r (.receive item) {r with phase := .stopped}
  | eof (conn : Connection) (message : Message) (hphase : r.phase = .serving conn .selecting)
      (hdata : message.data = []) :
      RunnerMove r (.receive (some (.ok message))) (r.finish conn)
  | message (conn : Connection) (message : Message)
      (hphase : r.phase = .serving conn .selecting) (hdata : message.data ≠ []) :
      RunnerMove r (.receive (some (.ok message)))
        {r with phase := .serving {conn with taken := conn.taken ++ [message]}
                  (.writing message.data)}
  | lostServing (conn : Connection) (item : Option (Except IoError Message))
      (hphase : r.phase = .serving conn .selecting)
      (hitem : ∀ message, item ≠ some (.ok message)) :
      RunnerMove r (.receive item) (r.abandon conn .waiting)
  | connected (first : Message) (hphase : r.phase = .connecting first) :
      RunnerMove r (.connect true)
        {r with phase := .serving ⟨first.channel, [first], [], .new⟩ (.writeAll first.data)}
  | refused (first : Message) (hphase : r.phase = .connecting first) :
      RunnerMove r (.connect false)
        {r with phase := .signalling first.channel, abandoned := some first.channel}
  | wrote (n : Nat) (conn : Connection) (rest : Bytes)
      (hphase : r.phase = .serving conn (.writing rest)) :
      RunnerMove r (.write n)
        {r with phase := .serving {conn with written := conn.written ++ rest.take n}
                  (.writeAll (rest.drop n))}
  | writeFail (conn : Connection) (rest : Bytes)
      (hphase : r.phase = .serving conn (.writing rest)) :
      RunnerMove r .writeFail (r.abandon conn .waiting)
  | daemonEof (n : Nat) (conn : Connection) (hphase : r.phase = .serving conn .selecting) :
      RunnerMove r (.read n) (r.abandon conn .waiting)
  | read (n : Nat) (conn : Connection) (data : Bytes) (pipe : Pipe UInt8)
      (hphase : r.phase = .serving conn .selecting)
      (hread : conn.fromDaemon.read n = some (data, pipe)) (hdata : data ≠ []) :
      RunnerMove r (.read n)
        {r with phase := .serving {conn with fromDaemon := pipe} (.sending data)}
  | readFail (conn : Connection) (hphase : r.phase = .serving conn .selecting) :
      RunnerMove r .readFail (r.abandon conn (.signalling conn.channel))
  | sentData (conn : Connection) (data : Bytes)
      (hphase : r.phase = .serving conn (.sending data)) :
      RunnerMove r (.sent true) {r with phase := .serving conn .selecting}
  | sendFailed (conn : Connection) (data : Bytes)
      (hphase : r.phase = .serving conn (.sending data)) :
      RunnerMove r (.sent false) (r.abandon conn .waiting)
  | signalled (channel : Nat) (ok : Bool) (hphase : r.phase = .signalling channel) :
      RunnerMove r (.sent ok) {r with phase := .waiting}
  | daemonWrite (chunk : Bytes) (conn : Connection) (op : Serving)
      (hphase : r.phase = .serving conn op) :
      RunnerMove r (.daemonWrite chunk)
        {r with phase := .serving {conn with fromDaemon := conn.fromDaemon.put chunk} op}
  | daemonClose (conn : Connection) (op : Serving) (hphase : r.phase = .serving conn op) :
      RunnerMove r .daemonClose
        {r with phase := .serving {conn with fromDaemon := conn.fromDaemon.close} op}

theorem receive_move {r next : Runner} {item : Option (Except IoError Message)}
    (h : forwardToMullvadDaemonInterface r (.receive item) = some next) :
    RunnerMove r (.receive item) next := by
  simp only [forwardToMullvadDaemonInterface] at h
  split at h
  · next hphase =>
    rcases item with _ | error | message
    · cases h
      exact .lost none hphase (by simp)
    · cases h
      exact .lost (some (.error error)) hphase (by simp)
    · by_cases hdata : message.data = []
      · simp only [if_pos hdata] at h
        cases h
        exact .ignoreEof message hphase hdata
      · simp only [if_neg hdata] at h
        cases h
        exact .first message hphase hdata
  · next conn hphase =>
    rcases item with _ | error | message
    · cases h
      exact .lostServing conn none hphase (by simp)
    · cases h
      exact .lostServing conn (some (.error error)) hphase (by simp)
    · by_cases hdata : message.data = []
      · simp only [if_pos hdata] at h
        cases h
        exact .eof conn message hphase hdata
      · simp only [if_neg hdata, Serving.writeAll] at h
        cases h
        exact .message conn message hphase hdata
  · cases h

theorem read_move {r next : Runner} {n : Nat}
    (h : forwardToMullvadDaemonInterface r (.read n) = some next) :
    RunnerMove r (.read n) next := by
  simp only [forwardToMullvadDaemonInterface] at h
  split at h
  · next conn hphase =>
    split at h
    · cases h
    · split at h
      · cases h
      · next data pipe hread =>
        split at h
        · cases h
          exact .daemonEof n conn hphase
        · next hdata =>
          cases h
          exact .read n conn data pipe hphase hread hdata
  · cases h

theorem sent_move {r next : Runner} {ok : Bool}
    (h : forwardToMullvadDaemonInterface r (.sent ok) = some next) :
    RunnerMove r (.sent ok) next := by
  simp only [forwardToMullvadDaemonInterface] at h
  split at h
  · next conn data hphase =>
    cases ok with
    | true =>
        cases h
        exact .sentData conn data hphase
    | false =>
        cases h
        exact .sendFailed conn data hphase
  · next channel hphase =>
    cases h
    exact .signalled channel ok hphase
  · cases h

theorem forwardToMullvadDaemonInterface_move {r next : Runner} {a : RunnerAction}
    (h : forwardToMullvadDaemonInterface r a = some next) : RunnerMove r a next := by
  cases a with
  | receive item => exact receive_move h
  | connect ok =>
      simp only [forwardToMullvadDaemonInterface] at h
      split at h
      · next first hphase =>
        cases ok with
        | true =>
            cases h
            exact .connected first hphase
        | false =>
            cases h
            exact .refused first hphase
      · cases h
  | write n =>
      simp only [forwardToMullvadDaemonInterface] at h
      split at h
      · next conn rest hphase =>
        split at h
        · cases h
        · cases h
          exact .wrote n conn rest hphase
      · cases h
  | writeFail =>
      simp only [forwardToMullvadDaemonInterface] at h
      split at h
      · next conn rest hphase =>
        cases h
        exact .writeFail conn rest hphase
      · cases h
  | read n => exact read_move h
  | readFail =>
      simp only [forwardToMullvadDaemonInterface] at h
      split at h
      · next conn hphase =>
        cases h
        exact .readFail conn hphase
      · cases h
  | sent ok => exact sent_move h
  | daemonWrite chunk =>
      simp only [forwardToMullvadDaemonInterface] at h
      split at h
      · next conn op hphase =>
        split at h
        · cases h
        · cases h
          exact .daemonWrite chunk conn op hphase
      · cases h
  | daemonClose =>
      simp only [forwardToMullvadDaemonInterface] at h
      split at h
      · next conn op hphase =>
        cases h
        exact .daemonClose conn op hphase
      · cases h

end MullvadAppTests.TestRunner
