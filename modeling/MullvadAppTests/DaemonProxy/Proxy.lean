import MullvadAppTests.TestManager.ManagerMoves
import MullvadAppTests.TestRunner.RunnerMoves

/-!
The daemon proxy: the loop of `new_rpc_client` in the test manager and
`forward_to_mullvad_daemon_interface` in the test runner, joined by a link that
carries length-delimited messages in both directions. The link is reliable and
keeps the order; a message may be on its way for any time. `upLog` is the history
of the upstream direction.
-/

namespace MullvadAppTests.DaemonProxy

open Lib Lib.LengthDelimited TestRpc TestManager TestRunner

structure Proxy where
  manager : Manager
  runner : Runner
  up : List Message
  down : List Message
  upLog : List Message

def Proxy.new : Proxy := ⟨.new, .new, [], [], []⟩

inductive ProxyAction where
  | manager (a : ManagerAction)
  | runner (a : RunnerAction)

/-- The manager's side of the link: what an action puts on it, and what it
leaves of what is on its way to the manager. -/
def Proxy.managerLink (s : Proxy) : ManagerAction → Option (List Message × List Message)
  | .clear true =>
      match s.down with
      | _ :: rest => some ([], rest)
      | [] => none
  | .pollTransport (some (some (.ok message))) =>
      match s.down with
      | first :: rest => if message = first then some ([], rest) else none
      | [] => none
  | .pollTransport (some _) => none
  | .sent ok =>
      match s.manager.phase with
      | .sending data => if ok then some ([⟨s.manager.current, data⟩], s.down) else none
      | _ => none
  | _ => some ([], s.down)

/-- The runner's side: what an action leaves of what is on its way to the
runner, and what it puts on the link. -/
def Proxy.runnerLink (s : Proxy) : RunnerAction → Option (List Message × List Message)
  | .receive (some (.ok message)) =>
      match s.up with
      | first :: rest => if message = first then some (rest, []) else none
      | [] => none
  | .receive _ => none
  | .sent ok =>
      match s.runner.phase with
      | .serving conn (.sending data) => if ok then some (s.up, [⟨conn.channel, data⟩]) else none
      | .signalling channel => if ok then some (s.up, [⟨channel, []⟩]) else none
      | _ => none
  | _ => some (s.up, [])

def Proxy.step (s : Proxy) : ProxyAction → Option Proxy
  | .manager a =>
      (newRpcClient s.manager a).bind fun manager =>
        (s.managerLink a).map fun link =>
          {s with manager, up := s.up ++ link.1, upLog := s.upLog ++ link.1, down := link.2}
  | .runner a =>
      (forwardToMullvadDaemonInterface s.runner a).bind fun runner =>
        (s.runnerLink a).map fun link =>
          {s with runner, up := link.1, down := s.down ++ link.2}

/-! ### The history of the upstream direction -/

def payload (messages : List Message) : Bytes := messages.flatMap Message.data

@[simp] theorem payload_nil : payload [] = [] := rfl

@[simp] theorem payload_cons (message : Message) (rest : List Message) :
    payload (message :: rest) = message.data ++ payload rest := rfl

@[simp] theorem payload_append (a b : List Message) :
    payload (a ++ b) = payload a ++ payload b := List.flatMap_append

theorem payload_mono {a b : List Message} (h : a <+: b) : payload a <+: payload b := by
  obtain ⟨rest, rfl⟩ := h
  rw [payload_append]
  exact List.prefix_append _ _

/-- The data that the manager has sent for the channel, message by message. -/
def sentOn (c : Nat) (upLog : List Message) : List Message :=
  upLog.filter fun message => message.channel = c ∧ message.data ≠ []

@[simp] theorem sentOn_append (c : Nat) (a b : List Message) :
    sentOn c (a ++ b) = sentOn c a ++ sentOn c b := List.filter_append a b

theorem sentOn_data {c : Nat} {data : Bytes} (hdata : data ≠ []) :
    sentOn c [⟨c, data⟩] = [⟨c, data⟩] := by
  simp [sentOn, hdata]

theorem sentOn_eof (c d : Nat) : sentOn d [⟨c, []⟩] = [] := by
  simp [sentOn]

theorem sentOn_other {c d : Nat} {data : Bytes} (h : d ≠ c) : sentOn d [⟨c, data⟩] = [] := by
  simp [sentOn, h.symm]

/-! ### What the loops have in hand -/

/-- What the manager has read from the channel that it serves and not sent yet. -/
def unsent : ManagerPhase → Option Bytes
  | .waiting | .stopped => none
  | .sending data => some data
  | _ => some []

/-- What the runner has taken from the link and not written to the socket yet. -/
def unwritten : Serving → Bytes
  | .writing rest => rest
  | _ => []

@[simp] theorem unwritten_writeAll (rest : Bytes) : unwritten (.writeAll rest) = rest := by
  unfold Serving.writeAll
  split
  · next h => simp [unwritten, h]
  · rfl

/-! ### Moves -/

/-- The action does not involve the link. -/
def Offline : ManagerAction → Prop
  | .clear ready => ready = false
  | .pollTransport item => item = none
  | .sent _ => False
  | _ => True

def OfflineRunner : RunnerAction → Prop
  | .receive _ | .sent _ => False
  | _ => True

/-- What the runner is sending to the manager. -/
def outgoing : RunnerPhase → Option Message
  | .serving conn (.sending data) => some ⟨conn.channel, data⟩
  | .signalling channel => some ⟨channel, []⟩
  | _ => none

inductive ProxyMove (s : Proxy) : ProxyAction → Proxy → Prop
  | managerOffline (a : ManagerAction) (manager : Manager) (hoffline : Offline a)
      (hmove : ManagerMove s.manager a manager) :
      ProxyMove s (.manager a) {s with manager}
  | discard (first : Message) (rest : List Message) (hphase : s.manager.phase = .clearing)
      (hdown : s.down = first :: rest) :
      ProxyMove s (.manager (.clear true)) {s with down := rest}
  | managerTakes (message : Message) (rest : List Message) (manager : Manager)
      (hdown : s.down = message :: rest)
      (hmove : ManagerMove s.manager (.pollTransport (some (some (.ok message)))) manager) :
      ProxyMove s (.manager (.pollTransport (some (some (.ok message)))))
        {s with manager, down := rest}
  | managerSends (data : Bytes) (manager : Manager) (hphase : s.manager.phase = .sending data)
      (hmove : ManagerMove s.manager (.sent true) manager) :
      ProxyMove s (.manager (.sent true))
        {s with manager, up := s.up ++ [⟨s.manager.current, data⟩]
                upLog := s.upLog ++ [⟨s.manager.current, data⟩]}
  | runnerOffline (a : RunnerAction) (runner : Runner) (hoffline : OfflineRunner a)
      (hmove : RunnerMove s.runner a runner) :
      ProxyMove s (.runner a) {s with runner}
  | runnerTakes (message : Message) (rest : List Message) (runner : Runner)
      (hup : s.up = message :: rest)
      (hmove : RunnerMove s.runner (.receive (some (.ok message))) runner) :
      ProxyMove s (.runner (.receive (some (.ok message)))) {s with runner, up := rest}
  | runnerSends (message : Message) (runner : Runner)
      (hmessage : outgoing s.runner.phase = some message)
      (hmove : RunnerMove s.runner (.sent true) runner) :
      ProxyMove s (.runner (.sent true)) {s with runner, down := s.down ++ [message]}

theorem manager_move {s : Proxy} {a : ManagerAction} {manager : Manager}
    {link : List Message × List Message} (hmove : ManagerMove s.manager a manager)
    (hlink : s.managerLink a = some link) :
    ProxyMove s (.manager a)
      {s with manager, up := s.up ++ link.1, upLog := s.upLog ++ link.1, down := link.2} := by
  have hlocal (hoffline : Offline a) (h : s.managerLink a = some ([], s.down)) :
      ProxyMove s (.manager a)
        {s with manager, up := s.up ++ link.1, upLog := s.upLog ++ link.1, down := link.2} := by
    obtain rfl : link = ([], s.down) := Option.some.inj (hlink.symm.trans h)
    simpa using ProxyMove.managerOffline a manager hoffline hmove
  cases a with
  | clear ready =>
      cases ready with
      | false => exact hlocal rfl rfl
      | true =>
          simp only [Proxy.managerLink] at hlink
          split at hlink
          · next first rest hdown =>
            cases hlink
            cases hmove with
            | discard hphase => simpa using ProxyMove.discard first rest hphase hdown
          · cases hlink
  | pollTransport item =>
      rcases item with _ | _ | error | message
      · exact hlocal rfl rfl
      · cases hlink
      · cases hlink
      · simp only [Proxy.managerLink] at hlink
        split at hlink
        · next first rest hdown =>
          split at hlink
          · next hsame =>
            subst hsame
            cases hlink
            simpa using ProxyMove.managerTakes message rest manager hdown hmove
          · cases hlink
        · cases hlink
  | sent ok =>
      simp only [Proxy.managerLink] at hlink
      split at hlink
      · next data hphase =>
        cases ok with
        | true =>
            cases hlink
            exact .managerSends data manager hphase hmove
        | false => cases hlink
      · cases hlink
  | _ => exact hlocal trivial rfl

theorem runner_move {s : Proxy} {a : RunnerAction} {runner : Runner}
    {link : List Message × List Message} (hmove : RunnerMove s.runner a runner)
    (hlink : s.runnerLink a = some link) :
    ProxyMove s (.runner a) {s with runner, up := link.1, down := s.down ++ link.2} := by
  have hlocal (hoffline : OfflineRunner a) (h : s.runnerLink a = some (s.up, [])) :
      ProxyMove s (.runner a) {s with runner, up := link.1, down := s.down ++ link.2} := by
    obtain rfl : link = (s.up, []) := Option.some.inj (hlink.symm.trans h)
    simpa using ProxyMove.runnerOffline a runner hoffline hmove
  cases a with
  | receive item =>
      rcases item with _ | error | message
      · cases hlink
      · cases hlink
      · simp only [Proxy.runnerLink] at hlink
        split at hlink
        · next first rest hup =>
          split at hlink
          · next hsame =>
            subst hsame
            cases hlink
            simpa using ProxyMove.runnerTakes message rest runner hup hmove
          · cases hlink
        · cases hlink
  | sent ok =>
      simp only [Proxy.runnerLink] at hlink
      split at hlink
      · next conn data hphase =>
        cases ok with
        | true =>
            cases hlink
            exact .runnerSends _ runner (by simp [outgoing, hphase]) hmove
        | false => cases hlink
      · next channel hphase =>
        cases ok with
        | true =>
            cases hlink
            exact .runnerSends _ runner (by simp [outgoing, hphase]) hmove
        | false => cases hlink
      · cases hlink
  | _ => exact hlocal trivial rfl

theorem step_move {s next : Proxy} {a : ProxyAction} (h : s.step a = some next) :
    ProxyMove s a next := by
  cases a with
  | manager a =>
      obtain ⟨manager, hmanager, hrest⟩ := Option.bind_eq_some_iff.mp h
      obtain ⟨link, hlink, rfl⟩ := Option.map_eq_some_iff.mp hrest
      exact manager_move (newRpcClient_move hmanager) hlink
  | runner a =>
      obtain ⟨runner, hrunner, hrest⟩ := Option.bind_eq_some_iff.mp h
      obtain ⟨link, hlink, rfl⟩ := Option.map_eq_some_iff.mp hrest
      exact runner_move (forwardToMullvadDaemonInterface_move hrunner) hlink

/-! ### Parts of runs -/

/-- A client connects and writes one byte, which is forwarded. -/
def clientWrites (c : Nat) (byte : UInt8) : List ProxyAction :=
  [.manager .call, .manager .nextChannel, .manager (.clear false),
    .manager (.client c (.write [byte])), .manager .pollReset, .manager (.pollTransport none),
    .manager (.pollChannel 1), .manager (.sent true)]

/-- The runner opens a connection for the byte and writes it. -/
def runnerConnects (c : Nat) (byte : UInt8) : List ProxyAction :=
  [.runner (.receive (some (.ok ⟨c, [byte]⟩))), .runner (.connect true), .runner (.write 1)]

/-- The daemon answers, and the answer reaches the client. -/
def answered (c : Nat) : List ProxyAction :=
  [.runner (.daemonWrite [9]), .runner (.read 1), .runner (.sent true), .manager .pollReset,
    .manager (.pollTransport (some (some (.ok ⟨c, [9]⟩)))), .manager (.write 1)]

/-- The client is dropped, and the EOF marker goes upstream. -/
def clientCloses (c : Nat) : List ProxyAction :=
  [.manager (.client c .drop), .manager .pollReset, .manager (.pollTransport none),
    .manager (.pollChannel 1), .manager (.sent true), .runner (.receive (some (.ok ⟨c, []⟩)))]

end MullvadAppTests.DaemonProxy
