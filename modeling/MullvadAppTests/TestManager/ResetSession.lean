import MullvadAppTests.Lib.Transition
import MullvadAppTests.TestManager.ManagerMoves

/-!
What a reset does to the session that the loop of `new_rpc_client` is serving.
`notify_waiters` wakes the `Notified` future of the current iteration, which is
looked at only at the beginning of a poll of the select. A reset that comes while
the loop clears the transport, is in the middle of a poll or is suspended in an
operation is lost, and the session goes on. The transport may give anything
here.
-/

namespace MullvadAppTests.TestManager

open Lib Lib.LengthDelimited Lib.Transition TestRpc

/-- After a reset the loop touches the channel that it was serving only within
the operation, if any, that it was suspended in. -/
def ResetEnds (log : List ChannelEvent) : Prop :=
  ∀ before c operation after, log = before ++ .reset c operation :: after →
    ∀ iteration, .access c iteration ∈ after → operation = some iteration

theorem ResetEnds.reset {log : List ChannelEvent} (h : ResetEnds log) (c : Nat)
    (operation : Option Nat) : ResetEnds (log ++ [.reset c operation]) := by
  intro before d other after heq iteration hmem
  rcases snoc_eq_append_cons heq with ⟨_, _, rfl⟩ | ⟨later, rfl, hlog⟩
  · simp at hmem
  · have hlater : .access d iteration ∈ later := by simpa using hmem
    exact h before d other later hlog iteration hlater

theorem ResetEnds.access {log : List ChannelEvent} (h : ResetEnds log) {c : Nat}
    (iteration : Nat) (hfresh : ∀ operation, .reset c operation ∉ log) :
    ResetEnds (log ++ [.access c iteration]) := by
  intro before d operation after heq other hmem
  rcases snoc_eq_append_cons heq with ⟨_, hlast, _⟩ | ⟨later, rfl, hlog⟩
  · cases hlast
  · rcases List.mem_append.mp hmem with hlater | hnew
    · exact h before d operation later hlog other hlater
    · obtain ⟨rfl, rfl⟩ : d = c ∧ other = iteration := by simpa using hnew
      have hreset : .reset d operation ∈ log := by simp [hlog]
      exact absurd hreset (hfresh operation)

/-! ### The condition -/

/-- The loop leaves the channel before it touches it again. -/
def Manager.ending (m : Manager) : Prop :=
  match m.phase with
  | .waiting | .stopped => True
  | .selecting .reset notified => notified = true
  | .writing _ _ => m.channel.toClient.closed = true
  | .sending data => data = []
  | _ => False

/-- A reset comes while the loop is suspended in the select; or the loop is about
to leave anyway, because its client is gone or it sends the EOF marker. -/
def Heard (m : Manager) : ManagerAction → Prop
  | .notifyWaiters =>
      match m.phase with
      | .waiting | .stopped => True
      | .selecting .reset _ => True
      | .writing _ _ => m.channel.toClient.closed = true
      | .sending data => data = []
      | _ => False
  | _ => True

instance (m : Manager) (a : ManagerAction) : Decidable (Heard m a) := by
  unfold Heard
  split
  · split <;> infer_instance
  · infer_instance

theorem ending_notifyWaiters {m : Manager} (h : Heard m .notifyWaiters) :
    m.notifyWaiters.ending := by
  unfold Heard at h
  unfold Manager.ending Manager.notifyWaiters
  cases hphase : m.phase with
  | waiting => trivial
  | clearing => simp [hphase] at h
  | selecting stage notified =>
      cases stage with
      | reset => rfl
      | transport => simp [hphase] at h
      | channel => simp [hphase] at h
  | writing session rest => simpa [hphase, Manager.channel] using h
  | sending data => simpa [hphase] using h
  | stopped => trivial

/-! ### The invariant -/

structure ResetInv (m : Manager) : Prop where
  ordered : m.Ordered
  reset_lt : ∀ c operation, .reset c operation ∈ m.log → c < m.accepted
  ending : ∀ operation, .reset m.current operation ∈ m.log → m.ending
  ends : ResetEnds m.log

theorem ResetInv.initial : ResetInv Manager.new where
  ordered := .initial
  reset_lt := by simp [Manager.new]
  ending := by simp [Manager.new]
  ends := by
    intro before c operation after heq
    simp [Manager.new] at heq

theorem closed_client {ch next : ManagementChannel} {a : ClientAction}
    (h : ch.client a = some next) (hclosed : ch.toClient.closed = true) :
    next.toClient.closed = true := by
  cases client_move h with
  | dropped => rfl
  | _ => exact hclosed

/-- A move that does not touch the channel. -/
theorem ResetInv.quiet {m next : Manager} {a : ManagerAction} (h : ResetInv m)
    (hmove : ManagerMove m a next) (hlog : next.log = m.log)
    (hcurrent : next.current = m.current) (haccepted : next.accepted = m.accepted)
    (hending : m.ending → next.ending) : ResetInv next := by
  constructor
  · exact h.ordered.move hmove
  · rw [hlog, haccepted]
    exact h.reset_lt
  · rw [hlog, hcurrent]
    intro operation hmem
    exact hending (h.ending operation hmem)
  · rw [hlog]
    exact h.ends

/-- A move after which the loop waits for the next channel. -/
theorem ResetInv.leave {m next : Manager} {a : ManagerAction} (h : ResetInv m)
    (hmove : ManagerMove m a next) (hlog : next.log = m.log)
    (hcurrent : next.current = m.current) (haccepted : next.accepted = m.accepted)
    (hphase : next.phase = .waiting) : ResetInv next := by
  apply h.quiet hmove hlog hcurrent haccepted
  intro _
  simp [Manager.ending, hphase]

/-- A move that reads from or writes to the channel. -/
theorem ResetInv.touch {m next : Manager} {a : ManagerAction} (h : ResetInv m)
    (hmove : ManagerMove m a next) (hbusy : ¬ m.ending)
    (hlog : next.log = m.log ++ [.access m.current m.iteration])
    (hcurrent : next.current = m.current) (haccepted : next.accepted = m.accepted) :
    ResetInv next := by
  have hfresh : ∀ operation, .reset m.current operation ∉ m.log := by
    intro operation hmem
    exact hbusy (h.ending operation hmem)
  constructor
  · exact h.ordered.move hmove
  · intro c operation hmem
    rw [haccepted]
    exact h.reset_lt c operation (by simpa [hlog] using hmem)
  · intro operation hmem
    exact absurd (by simpa [hlog, hcurrent] using hmem) (hfresh operation)
  · rw [hlog]
    exact h.ends.access m.iteration hfresh

theorem ResetInv.notify {m : Manager} (h : ResetInv m) (hcond : Heard m .notifyWaiters) :
    ResetInv m.notifyWaiters := by
  have hending := ending_notifyWaiters hcond
  by_cases hserving : m.phase.serving = true
  · have hlog : m.notifyWaiters.log = m.log ++ [.reset m.current m.operation] := by
      simp [Manager.notifyWaiters, hserving]
    constructor
    · exact h.ordered.move .notify
    · intro c operation hmem
      rw [hlog] at hmem
      rcases List.mem_append.mp hmem with hold | hnew
      · exact h.reset_lt c operation hold
      · obtain ⟨rfl, _⟩ : c = m.current ∧ operation = m.operation := by simpa using hnew
        exact h.ordered.current_lt hserving
    · intro _ _
      exact hending
    · rw [hlog]
      exact h.ends.reset m.current m.operation
  · have hlog : m.notifyWaiters.log = m.log := by simp [Manager.notifyWaiters, hserving]
    apply h.quiet .notify hlog rfl rfl
    intro _
    exact hending

/-- The next channel is one that no reset has met yet. -/
theorem ResetInv.accept {m : Manager} (h : ResetInv m) (hphase : m.phase = .waiting)
    (hqueued : m.accepted < m.opened) :
    ResetInv {m with phase := .clearing, current := m.accepted, accepted := m.accepted + 1} := by
  constructor
  · exact h.ordered.move (.accept hphase hqueued)
  · intro c operation hmem
    exact Nat.lt_succ_of_lt (h.reset_lt c operation hmem)
  · intro operation hmem
    exact absurd (h.reset_lt _ operation hmem) (Nat.lt_irrefl _)
  · exact h.ends

theorem ResetInv.step (m : Manager) (a : ManagerAction) (next : Manager) (h : ResetInv m)
    (hcond : Heard m a) (hstep : newRpcClient m a = some next) : ResetInv next := by
  have hmove := newRpcClient_move hstep
  cases newRpcClient_move hstep with
  | call | closeProvider => exact h.quiet hmove rfl rfl rfl id
  | client c a ch hopened hclient =>
      refine h.quiet hmove rfl rfl rfl ?_
      unfold Manager.ending
      cases hphase : m.phase with
      | writing session rest =>
          intro hclosed
          simp only [Manager.setChannel, Manager.channel, hphase,
            Function.update_apply] at hclosed ⊢
          split
          · next hsame =>
            subst hsame
            exact closed_client hclient hclosed
          · exact hclosed
      | selecting stage notified => cases stage <;> simp [Manager.setChannel, hphase]
      | _ => simp [Manager.setChannel, hphase]
  | notify => exact h.notify hcond
  | accept hphase hqueued => exact h.accept hphase hqueued
  | stop hphase =>
      apply h.quiet hmove rfl rfl rfl
      intro _
      trivial
  | discard hphase => exact h
  | start hphase | resetPending hphase | transportPending notified hphase
  | message notified message hphase hdata | channelPending n notified hphase =>
      refine h.quiet hmove rfl rfl rfl ?_
      simp [Manager.ending, hphase]
  | restart | transportLost | eofMarker | writeFail | sendFailed | sentEof =>
      exact h.leave hmove rfl rfl rfl rfl
  | channelRead n notified data pipe hphase hread =>
      have hbusy : ¬ m.ending := by simp [Manager.ending, hphase]
      exact h.touch hmove hbusy rfl rfl rfl
  | wrote n session rest hphase hclosed =>
      have hbusy : ¬ m.ending := by simp [Manager.ending, hphase, hclosed]
      unfold Manager.writeAll at hmove ⊢
      split
      · next hrest => exact h.touch (by simpa [hrest] using hmove) hbusy rfl rfl rfl
      · next hrest => exact h.touch (by simpa [hrest] using hmove) hbusy rfl rfl rfl
  | sentData data hphase hdata =>
      refine h.quiet hmove rfl rfl rfl ?_
      simp [Manager.ending, hphase, hdata]

/-- In every run in which each reset finds the loop suspended in the select or
about to leave, a reset ends the session that was being served. -/
theorem reset_ends_session (actions : List ManagerAction) (m : Manager)
    (hmeets : Meets newRpcClient Heard Manager.new actions)
    (hrun : run newRpcClient Manager.new actions = some m) : ResetEnds m.log := by
  have hinv : ResetInv m := run_preserves_of_meets ResetInv.step actions .initial hmeets hrun
  exact hinv.ends

/-- A client writes two bytes, the loop reads them and sends them; then a reset
comes, and the loop is polled again. -/
def sendThenReset : List ManagerAction :=
  [.call, .nextChannel, .clear false, .client 0 (.write [1, 2]), .pollReset, .pollTransport none,
    .pollChannel 2, .sent true, .notifyWaiters, .client 0 (.write [3]), .pollReset]

theorem sendThenReset_ends :
    ∃ m, run newRpcClient Manager.new sendThenReset = some m ∧
      m.log = [.access 0 1, .reset 0 none] ∧ ResetEnds m.log := by
  have hlog : (run newRpcClient Manager.new sendThenReset).map Manager.log =
      some [.access 0 1, .reset 0 none] := by decide
  obtain ⟨m, hrun, hm⟩ := Option.map_eq_some_iff.mp hlog
  exact ⟨m, hrun, hm, reset_ends_session sendThenReset m (by decide) hrun⟩

/-- The reset comes while the loop is suspended in `framed_transport.send`. -/
def resetDuringSend : List ManagerAction :=
  [.call, .nextChannel, .clear false, .client 0 (.write [1, 2]), .pollReset, .pollTransport none,
    .pollChannel 2, .notifyWaiters, .sent true, .client 0 (.write [3]), .pollReset,
    .pollTransport none, .pollChannel 1]

/-- The loop goes on with the channel: the read of iteration 2 comes after a
reset that found it in the send of iteration 1. -/
theorem resetDuringSend_lost :
    ∃ m, run newRpcClient Manager.new resetDuringSend = some m ∧
      m.log = [.access 0 1, .reset 0 (some 1), .access 0 2] ∧ ¬ ResetEnds m.log := by
  have hlog : (run newRpcClient Manager.new resetDuringSend).map Manager.log =
      some [.access 0 1, .reset 0 (some 1), .access 0 2] := by decide
  obtain ⟨m, hrun, hm⟩ := Option.map_eq_some_iff.mp hlog
  refine ⟨m, hrun, hm, ?_⟩
  intro hends
  have hsame : some 1 = some 2 := hends [.access 0 1] 0 (some 1) [.access 0 2] hm 2 (by simp)
  cases hsame

end MullvadAppTests.TestManager
