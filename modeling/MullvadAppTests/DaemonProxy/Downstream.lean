import MullvadAppTests.Lib.Transition
import MullvadAppTests.DaemonProxy.Proxy

/-!
Sessions in the downstream direction. Messages from the runner do not say which
session they belong to. The manager throws away what has arrived when it takes a
new channel, which separates the sessions only if nothing is on its way at that
moment and the runner has nothing left to send for an earlier channel.
-/

namespace MullvadAppTests.DaemonProxy

open Lib Lib.LengthDelimited Lib.Transition TestRpc TestManager TestRunner

/-- What the loop has written to the channel came from daemon connections that
were opened for it, and so did the EOF marker that shut it down. -/
def Isolated (c : Nat) (ch : ManagementChannel) : Prop :=
  (∀ message ∈ ch.delivered, message.channel = c) ∧
    ∀ session, ch.shutdownBy = some session → session = c

def DownstreamIsolation (s : Proxy) : Prop := ∀ c, Isolated c (s.manager.channels c)

/-! ### The condition -/

/-- The loop forwards for its channel: it is done with clearing. -/
def forwarding : ManagerPhase → Bool
  | .selecting _ _ | .writing _ _ | .sending _ => true
  | _ => false

/-- The clearing ends when nothing is on its way to the manager, and while the
loop forwards for a channel the runner sends only for sessions of this channel. -/
def Separated (s : Proxy) : ProxyAction → Prop
  | .manager (.clear false) => s.down = []
  | .runner (.sent _) =>
      forwarding s.manager.phase = true →
        ∀ message ∈ outgoing s.runner.phase, message.channel = s.manager.current
  | _ => True

instance (s : Proxy) (a : ProxyAction) : Decidable (Separated s a) := by
  unfold Separated
  split <;> infer_instance

/-! ### The invariant -/

structure DownstreamInv (s : Proxy) : Prop where
  onTheWay : forwarding s.manager.phase = true → ∀ message ∈ s.down,
    message.channel = s.manager.current
  inHand : ∀ session rest, s.manager.phase = .writing session rest → session = s.manager.current
  isolated : DownstreamIsolation s

theorem DownstreamInv.initial : DownstreamInv Proxy.new where
  onTheWay := by simp [Proxy.new]
  inHand := by simp [Proxy.new, Manager.new]
  isolated := by
    intro c
    simp [Proxy.new, Manager.new, ManagementChannel.new, Isolated]

theorem client_isolated {ch next : ManagementChannel} {a : ClientAction} {c : Nat}
    (h : ch.client a = some next) (hold : Isolated c ch) : Isolated c next := by
  cases client_move h <;> exact hold

/-- One channel is replaced. -/
theorem setChannel_isolated {m : Manager} {c : Nat} {ch : ManagementChannel}
    (h : ∀ d, Isolated d (m.channels d)) (hch : Isolated c ch) (d : Nat) :
    Isolated d ((m.setChannel c ch).channels d) := by
  rw [setChannel_apply]
  split
  · next hsame =>
    subst hsame
    exact hch
  · exact h d

theorem leave_isolated {m : Manager} (h : ∀ d, Isolated d (m.channels d)) (d : Nat) :
    Isolated d (m.leave.channels d) := by
  have hdropped : Isolated m.current m.channel.dropEnd := h m.current
  exact setChannel_isolated h hdropped d

/-- A move keeps the channels isolated if what the loop has in hand, or takes
from the link, belongs to the channel that it serves. -/
theorem move_isolated {m next : Manager} {a : ManagerAction} (hmove : ManagerMove m a next)
    (h : ∀ d, Isolated d (m.channels d))
    (hwriting : ∀ session rest, m.phase = .writing session rest → session = m.current)
    (htaken : ∀ message, a = .pollTransport (some (some (.ok message))) →
      message.channel = m.current) (d : Nat) : Isolated d (next.channels d) := by
  cases hmove with
  | client c a ch hopened hclient =>
      exact setChannel_isolated h (client_isolated hclient (h c)) d
  | channelRead n notified data pipe hphase hread =>
      have hread : Isolated m.current {m.channel with fromClient := pipe} := h m.current
      exact setChannel_isolated h hread d
  | eofMarker notified message hphase hdata =>
      apply leave_isolated
      apply setChannel_isolated h
      refine ⟨(h m.current).1, ?_⟩
      intro session hsession
      rw [← Option.some.inj hsession]
      exact htaken message rfl
  | wrote n session rest hphase hclosed =>
      rw [writeAll_channels]
      apply setChannel_isolated h
      refine ⟨?_, (h m.current).2⟩
      intro message hmem
      rcases List.mem_append.mp hmem with hold | hnew
      · exact (h m.current).1 message hold
      · rw [List.mem_singleton.mp hnew]
        exact hwriting session rest hphase
  | restart | transportLost | writeFail | sendFailed | sentEof => exact leave_isolated h d
  | _ => exact h d

/-- Where the loop can be after a move other than taking a message: what it has
in hand is part of what it had before, and it forwards for the same channel
unless it has just ended the clearing. -/
theorem move_forwarding {m next : Manager} {a : ManagerAction} (hmove : ManagerMove m a next)
    (htaken : ∀ message, a ≠ .pollTransport (some (some (.ok message)))) :
    (∀ session rest, next.phase = .writing session rest →
        next.current = m.current ∧ ∃ before, m.phase = .writing session before) ∧
      (forwarding next.phase = true →
        next.current = m.current ∧ (forwarding m.phase = true ∨ a = .clear false)) := by
  cases hmove with
  | notify =>
      unfold Manager.notifyWaiters
      cases hphase : m.phase <;> simp [forwarding]
  | wrote n session rest hphase hclosed =>
      unfold Manager.writeAll
      split
      · simp [Manager.iterate, Manager.gave, Manager.access, Manager.setChannel, hphase, forwarding]
      · simp [Manager.gave, Manager.access, Manager.setChannel, hphase, forwarding]
  | eofMarker notified message | message notified message => exact absurd rfl (htaken message)
  | call | closeProvider | client | discard =>
      refine ⟨fun session rest hphase => ⟨rfl, rest, hphase⟩, fun hforward => ⟨rfl, .inl hforward⟩⟩
  | start hphase => simp [Manager.iterate, forwarding]
  | channelRead n notified data pipe hphase hread =>
      simp [Manager.took, Manager.access, Manager.setChannel, hphase, forwarding]
  | sentData data hphase hdata => simp [Manager.iterate, hphase, forwarding]
  | accept | stop => simp [forwarding]
  | restart | transportLost | writeFail | sendFailed | sentEof => simp [Manager.leave, forwarding]
  | resetPending hphase | transportPending notified hphase | channelPending n notified hphase =>
      simp [hphase, forwarding]

theorem DownstreamInv.manager {s : Proxy} {a : ManagerAction} {manager : Manager}
    (h : DownstreamInv s) (up upLog : List Message)
    (htaken : ∀ message, a ≠ .pollTransport (some (some (.ok message))))
    (hclear : a = .clear false → s.down = []) (hmove : ManagerMove s.manager a manager) :
    DownstreamInv ⟨manager, s.runner, up, s.down, upLog⟩ := by
  obtain ⟨hwriting, hforwarding⟩ := move_forwarding hmove htaken
  constructor
  · intro hnext message hmem
    obtain ⟨hcurrent, hbefore | hcleared⟩ := hforwarding hnext
    · rw [hcurrent]
      exact h.onTheWay hbefore message hmem
    · rw [hclear hcleared] at hmem
      cases hmem
  · intro session rest hphase
    obtain ⟨hcurrent, before, hold⟩ := hwriting session rest hphase
    rw [hcurrent]
    exact h.inHand session before hold
  · intro c
    refine move_isolated hmove h.isolated h.inHand ?_ c
    intro message haction
    exact absurd haction (htaken message)

/-- The loop takes a message, which belongs to the channel that it serves. -/
theorem DownstreamInv.takes {s : Proxy} {message : Message} {rest : List Message}
    {manager : Manager} (h : DownstreamInv s) (hdown : s.down = message :: rest)
    (hmove : ManagerMove s.manager (.pollTransport (some (some (.ok message)))) manager) :
    DownstreamInv {s with manager, down := rest} := by
  have hforward : forwarding s.manager.phase = true := by
    cases hmove <;> simp_all [forwarding]
  have hall := h.onTheWay hforward
  rw [hdown] at hall
  have hchannel : message.channel = s.manager.current := hall message List.mem_cons_self
  have hisolated : ∀ c, Isolated c (manager.channels c) := by
    intro c
    refine move_isolated hmove h.isolated h.inHand ?_ c
    intro other hother
    simp only [ManagerAction.pollTransport.injEq, Option.some.injEq, Except.ok.injEq] at hother
    rw [← hother]
    exact hchannel
  cases hmove with
  | transportLost notified item hphase hitem => exact absurd rfl (hitem message)
  | eofMarker notified message hphase hdata =>
      exact ⟨by simp [Manager.perform, Manager.leave, forwarding],
        by simp [Manager.perform, Manager.leave], hisolated⟩
  | message notified message hphase hdata =>
      constructor
      · intro _ other hother
        exact hall other (List.mem_cons_of_mem _ hother)
      · intro session left hwriting
        simp only [ManagerPhase.writing.injEq] at hwriting
        rw [← hwriting.1]
        exact hchannel
      · exact hisolated

theorem DownstreamInv.step (s : Proxy) (a : ProxyAction) (next : Proxy) (h : DownstreamInv s)
    (hcond : Separated s a) (hstep : s.step a = some next) : DownstreamInv next := by
  cases step_move hstep with
  | managerOffline a manager hoffline hmove =>
      refine h.manager s.up s.upLog ?_ ?_ hmove
      · rintro message rfl
        cases hoffline
      · rintro rfl
        exact hcond
  | discard first rest hphase hdown =>
      exact ⟨by simp [hphase, forwarding], h.inHand, h.isolated⟩
  | managerTakes message rest manager hdown hmove => exact h.takes hdown hmove
  | managerSends data manager hphase hmove =>
      exact h.manager _ _ (by simp) (by simp) hmove
  | runnerOffline a runner hoffline hmove => exact ⟨h.onTheWay, h.inHand, h.isolated⟩
  | runnerTakes message rest runner hup hmove => exact ⟨h.onTheWay, h.inHand, h.isolated⟩
  | runnerSends message runner hmessage hmove =>
      refine ⟨?_, h.inHand, h.isolated⟩
      intro hforward other hother
      rcases List.mem_append.mp hother with hold | hnew
      · exact h.onTheWay hforward other hold
      · rw [List.mem_singleton.mp hnew]
        exact hcond hforward message hmessage

/-- In every run in which the clearing leaves nothing on its way and the runner
sends nothing for an earlier channel afterwards, every channel gets data and the
EOF marker of its own sessions only. -/
theorem downstream_isolation (actions : List ProxyAction) (s : Proxy)
    (hmeets : Meets Proxy.step Separated Proxy.new actions)
    (hrun : run Proxy.step Proxy.new actions = some s) : DownstreamIsolation s := by
  have hinv : DownstreamInv s :=
    run_preserves_of_meets DownstreamInv.step actions .initial hmeets hrun
  exact hinv.isolated

/-- Two clients in succession, each with its own session and its own answer. -/
theorem answer_is_isolated :
    ∃ s, run Proxy.step Proxy.new
        (clientWrites 0 1 ++ runnerConnects 0 1 ++ answered 0 ++ clientCloses 0 ++
          clientWrites 1 2 ++ runnerConnects 1 2 ++ answered 1) = some s ∧
      ((s.manager.channels 0).delivered, (s.manager.channels 1).delivered) =
        ([⟨0, [9]⟩], [⟨1, [9]⟩]) ∧
      DownstreamIsolation s := by
  have hdelivered : (run Proxy.step Proxy.new
      (clientWrites 0 1 ++ runnerConnects 0 1 ++ answered 0 ++ clientCloses 0 ++
        clientWrites 1 2 ++ runnerConnects 1 2 ++ answered 1)).map
        (fun s => ((s.manager.channels 0).delivered, (s.manager.channels 1).delivered)) =
          some ([⟨0, [9]⟩], [⟨1, [9]⟩]) := by decide
  obtain ⟨s, hrun, hs⟩ := Option.map_eq_some_iff.mp hdelivered
  exact ⟨s, hrun, hs, downstream_isolation _ s (by decide) hrun⟩

/-- The first client is dropped while the runner has an answer for it in hand.
The answer is sent when the next channel has been cleared. -/
def lateAnswer : List ProxyAction :=
  [.runner (.daemonWrite [9]), .runner (.read 1),
    .manager (.client 0 .drop), .manager .pollReset, .manager (.pollTransport none),
    .manager (.pollChannel 1), .manager (.sent true),
    .manager .call, .manager .nextChannel, .manager (.clear false), .runner (.sent true),
    .manager .pollReset, .manager (.pollTransport (some (some (.ok ⟨0, [9]⟩)))),
    .manager (.write 1)]

theorem late_answer_reaches_next_client :
    ∃ s, run Proxy.step Proxy.new (clientWrites 0 1 ++ runnerConnects 0 1 ++ lateAnswer) = some s ∧
      (s.manager.channels 1).delivered = [⟨0, [9]⟩] ∧ ¬ DownstreamIsolation s := by
  have hdelivered : (run Proxy.step Proxy.new
      (clientWrites 0 1 ++ runnerConnects 0 1 ++ lateAnswer)).map
        (fun s => (s.manager.channels 1).delivered) = some [⟨0, [9]⟩] := by decide
  obtain ⟨s, hrun, hs⟩ := Option.map_eq_some_iff.mp hdelivered
  refine ⟨s, hrun, hs, ?_⟩
  intro hisolated
  have hsame : 0 = 1 := (hisolated 1).1 ⟨0, [9]⟩ (by simp [hs])
  cases hsame

end MullvadAppTests.DaemonProxy
