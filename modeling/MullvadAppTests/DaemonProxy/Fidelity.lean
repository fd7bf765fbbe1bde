import MullvadAppTests.Lib.Transition
import MullvadAppTests.DaemonProxy.Proxy

/-!
One daemon session. With a single management channel and a single connection to
the daemon, the proxy is a pair of byte streams: however the bytes are cut by
the writers, by the reads of the two loops and by the messages of the link, each
end receives an initial part of what the other one has written. The empty
message that ends the upstream direction comes after everything else.
-/

namespace MullvadAppTests.DaemonProxy

open Lib Lib.LengthDelimited Lib.Transition TestRpc TestManager TestRunner

/-- Channel 0 is the only one. -/
structure Fidelity (s : Proxy) : Prop where
  toDaemon : ∀ conn ∈ s.runner.connections,
    conn.written <+: (s.manager.channels 0).fromClient.written
  toClient : (s.manager.channels 0).toClient.written <+:
    s.runner.connections.flatMap fun conn => conn.fromDaemon.written
  eofLast : ∀ before message after, s.upLog = before ++ message :: after → message.data = [] →
    payload before = (s.manager.channels 0).fromClient.written

/-- One client, and one attempt to connect to the daemon, which succeeds. -/
def SingleSession (s : Proxy) : ProxyAction → Prop
  | .manager .call => s.manager.opened = 0
  | .runner (.connect ok) => ok = true ∧ s.runner.attempts = 1
  | _ => True

instance (s : Proxy) (a : ProxyAction) : Decidable (SingleSession s a) := by
  unfold SingleSession
  split <;> infer_instance

/-! ### The parts of the invariant -/

/-- What has been sent upstream is what the loop has read, up to what it has in
hand. -/
def Sent (m : Manager) (upLog : List Message) : Prop :=
  match unsent m.phase with
  | none => payload upLog <+: (m.channels 0).fromClient.written
  | some data => (m.channels 0).fromClient.seen = payload upLog ++ data

/-- The loop sends an empty message only at the end of the client's stream. -/
def EofNext (m : Manager) : Prop :=
  m.phase = .sending [] → (m.channels 0).fromClient.closed = true ∧
    (m.channels 0).fromClient.seen = (m.channels 0).fromClient.written

def EofLast (m : Manager) (upLog : List Message) : Prop :=
  ∀ before message after, upLog = before ++ message :: after → message.data = [] →
    (m.channels 0).fromClient.closed = true ∧
      payload before = (m.channels 0).fromClient.written

/-- What the runner has written to its connection is what has been sent, up to
what it has in hand and what is on its way. -/
structure Taken (r : Runner) (coming sent : Bytes) : Prop where
  untried : r.attempts = 0 → r.phase = .waiting ∧ r.past = [] ∧ coming = sent
  connecting : ∀ first, r.phase = .connecting first → r.attempts = 1 →
    r.past = [] ∧ first.data ++ coming = sent
  serving : ∀ conn op, r.phase = .serving conn op →
    r.past = [] ∧ conn.written ++ unwritten op ++ coming = sent
  past : ∀ conn ∈ r.past, conn.written <+: sent
  once : r.past.length ≤ 1

/-- What the loop has taken from the link and not given to the client yet. -/
def inHand : ManagerPhase → Bytes
  | .writing _ rest => rest
  | _ => []

/-- What the runner has read from the daemon and not put on the link yet. -/
def leaving (phase : RunnerPhase) : Bytes := ((outgoing phase).map Message.data).getD []

def received (r : Runner) : Bytes := r.connections.flatMap fun conn => conn.fromDaemon.seen

/-- What the client has been given is what the runner has read from the daemon,
up to what is in hand and on its way. -/
def Given (m : Manager) (r : Runner) (down : List Message) : Prop :=
  if m.phase.serving then
    (m.channels 0).toClient.written ++ inHand m.phase ++ payload down ++ leaving r.phase =
      received r
  else (m.channels 0).toClient.written <+: received r

structure FidelityInv (s : Proxy) : Prop where
  ordered : s.manager.Ordered
  single : s.manager.opened ≤ 1
  quiet : s.upLog = [] → s.up = [] ∧ s.runner.attempts = 0 ∧ s.down = []
  fresh : s.manager.accepted = 0 ∨ s.manager.phase = .clearing → s.upLog = []
  sent : Sent s.manager s.upLog
  eofNext : EofNext s.manager
  eofLast : EofLast s.manager s.upLog
  taken : Taken s.runner (payload s.up) (payload s.upLog)
  given : Given s.manager s.runner s.down

theorem FidelityInv.initial : FidelityInv Proxy.new where
  ordered := .initial
  single := Nat.zero_le 1
  quiet := by simp [Proxy.new, Runner.new]
  fresh := by simp [Proxy.new]
  sent := List.nil_prefix
  eofNext := by simp [EofNext, Proxy.new, Manager.new]
  eofLast := by simp [EofLast, Proxy.new]
  taken := by constructor <;> simp [Proxy.new, Runner.new]
  given := List.nil_prefix

/-! ### The manager moves: upstream -/

theorem FidelityInv.current {s : Proxy} (h : FidelityInv s)
    (hserving : s.manager.phase.serving = true) : s.manager.current = 0 := by
  have hlt := h.ordered.current_lt hserving
  have hle := h.ordered.accepted_le
  have hone := h.single
  omega

theorem Sent.isPrefix {m : Manager} {upLog : List Message} (h : Sent m upLog) :
    payload upLog <+: (m.channels 0).fromClient.written := by
  unfold Sent at h
  split at h
  · exact h
  · next data hunsent =>
    have hseen : payload upLog <+: (m.channels 0).fromClient.seen := by
      rw [h]
      exact List.prefix_append _ _
    exact hseen.trans (Pipe.seen_prefix _)

theorem Sent.same {m next : Manager} {upLog : List Message} (h : Sent m upLog)
    (hunsent : unsent next.phase = unsent m.phase)
    (hseen : (next.channels 0).fromClient.seen = (m.channels 0).fromClient.seen)
    (hwritten : (m.channels 0).fromClient.written <+: (next.channels 0).fromClient.written) :
    Sent next upLog := by
  unfold Sent at *
  rw [hunsent]
  split
  · next hnone =>
    simp only [hnone] at h
    exact h.trans hwritten
  · next data hsome =>
    simp only [hsome] at h
    rw [hseen]
    exact h

theorem Sent.leave {m next : Manager} {a : ManagerAction} {upLog : List Message}
    (h : Sent m upLog) (hmove : ManagerMove m a next) (hphase : next.phase = .waiting) :
    Sent next upLog := by
  have hprefix := h.isPrefix.trans (hmove.written 0)
  simpa [Sent, hphase, unsent] using hprefix

theorem FidelityInv.sentMove {s : Proxy} {a : ManagerAction} {manager : Manager}
    (h : FidelityInv s) (hsend : ∀ ok, a ≠ .sent ok) (hmove : ManagerMove s.manager a manager) :
    Sent manager s.upLog := by
  have hwhole := hmove
  have hwritten := hmove.written 0
  cases hmove with
  | call | closeProvider | discard => exact h.sent
  | client c a ch hopened hclient =>
      refine h.sent.same rfl ?_ hwritten
      rw [setChannel_apply]
      split
      · next hsame =>
        subst hsame
        exact (client_fromClient hclient).1
      · rfl
  | notify =>
      refine h.sent.same ?_ rfl hwritten
      unfold Manager.notifyWaiters
      cases s.manager.phase <;> rfl
  | accept hphase hqueued =>
      -- nothing can have been sent before the only channel is taken
      have hzero : s.manager.accepted = 0 := by
        have hone := h.single
        omega
      have hunread := h.ordered.unread 0 (by omega)
      simpa [Sent, unsent, h.fresh (.inl hzero)] using hunread
  | stop hphase | start hphase | resetPending hphase | channelPending n notified hphase
  | transportPending notified hphase | message notified message hphase hdata =>
      refine h.sent.same ?_ rfl hwritten
      rw [hphase]
      rfl
  | channelRead n notified data pipe hphase hread =>
      have hzero := h.current (by rw [hphase]; rfl)
      have hsent := h.sent
      simp only [Sent, hphase, unsent, List.append_nil] at hsent
      change ((s.manager.took pipe).channels 0).fromClient.seen = _
      rw [took_apply, hzero, if_pos rfl, ← hsent]
      simp only [Manager.channel, hzero] at hread
      rcases Pipe.read_cases hread with ⟨rfl, rfl, _, _⟩ | ⟨_, _, hmore⟩
      · simp
      · exact hmore
  | wrote n session rest hphase hclosed =>
      refine h.sent.same ?_ (by simp) hwritten
      rw [hphase]
      unfold Manager.writeAll
      split <;> rfl
  | restart | transportLost | eofMarker | writeFail => exact h.sent.leave hwhole rfl
  | sendFailed | sentEof | sentData => exact absurd rfl (hsend _)

theorem FidelityInv.eofNextMove {s : Proxy} {a : ManagerAction} {manager : Manager}
    (h : FidelityInv s) (hmove : ManagerMove s.manager a manager) : EofNext manager := by
  have hwhole := hmove
  intro hsending
  cases hmove with
  | channelRead n notified data pipe hphase hread =>
      have hzero := h.current (by rw [hphase]; rfl)
      obtain rfl : data = [] := by simpa using hsending
      change ((s.manager.took pipe).channels 0).fromClient.closed = true ∧
        ((s.manager.took pipe).channels 0).fromClient.seen =
          ((s.manager.took pipe).channels 0).fromClient.written
      rw [took_apply, hzero, if_pos rfl]
      rcases Pipe.read_cases hread with ⟨_, rfl, hclosed, hall⟩ | ⟨hdata, _, _⟩
      · exact ⟨hclosed, hall⟩
      · exact absurd rfl hdata
  | wrote n session rest hphase hclosed =>
      unfold Manager.writeAll at hsending
      split at hsending <;> cases hsending
  | client c a ch hopened hclient =>
      obtain ⟨hclosed, hall⟩ := h.eofNext hsending
      obtain ⟨hstill, hwritten⟩ := hwhole.closed 0 hclosed
      refine ⟨hstill, ?_⟩
      rw [hwritten, ← hall, setChannel_apply]
      split
      · next hsame =>
        subst hsame
        exact (client_fromClient hclient).1
      · rfl
  | notify =>
      have hbefore : s.manager.phase = .sending [] := by
        unfold Manager.notifyWaiters at hsending
        cases hphase : s.manager.phase <;> simp_all
      exact h.eofNext hbefore
  | call | closeProvider | discard => exact h.eofNext hsending
  | _ => cases hsending

theorem EofLast.move {m next : Manager} {a : ManagerAction} {upLog : List Message}
    (h : EofLast m upLog) (hmove : ManagerMove m a next) : EofLast next upLog := by
  intro before message after hlog hdata
  obtain ⟨hclosed, hall⟩ := h before message after hlog hdata
  obtain ⟨hstill, hwritten⟩ := hmove.closed 0 hclosed
  exact ⟨hstill, hall.trans hwritten.symm⟩

/-! ### The manager moves: downstream -/

theorem client_toClient {ch next : ManagementChannel} {a : ClientAction}
    (h : ch.client a = some next) : next.toClient.written = ch.toClient.written := by
  cases client_move h <;> rfl

theorem setChannel_toClient {m : Manager} {c : Nat} {ch : ManagementChannel}
    (h : ch.toClient.written = (m.channels c).toClient.written) (d : Nat) :
    ((m.setChannel c ch).channels d).toClient.written = (m.channels d).toClient.written := by
  rw [setChannel_apply]
  split
  · next hsame =>
    subst hsame
    exact h
  · rfl

theorem leave_toClient (m : Manager) (d : Nat) :
    (m.leave.channels d).toClient.written = (m.channels d).toClient.written := by
  have hdropped : m.channel.dropEnd.toClient.written =
      (m.channels m.current).toClient.written := rfl
  exact setChannel_toClient hdropped d

theorem Given.same {m next : Manager} {r : Runner} {down : List Message} (h : Given m r down)
    (hserving : next.phase.serving = m.phase.serving) (hhand : inHand next.phase = inHand m.phase)
    (hwritten : (next.channels 0).toClient.written = (m.channels 0).toClient.written) :
    Given next r down := by
  unfold Given at *
  rwa [hserving, hhand, hwritten]

theorem Given.isPrefix {m : Manager} {r : Runner} {down : List Message} (h : Given m r down) :
    (m.channels 0).toClient.written <+: received r := by
  unfold Given at h
  split at h
  · rw [← h]
    simp only [List.append_assoc]
    exact List.prefix_append _ _
  · exact h

theorem Given.leave {m next : Manager} {r : Runner} {down rest : List Message}
    (h : Given m r down) (hphase : next.phase = .waiting)
    (hwritten : (next.channels 0).toClient.written = (m.channels 0).toClient.written) :
    Given next r rest := by
  have hprefix := h.isPrefix
  rw [← hwritten] at hprefix
  simpa [Given, hphase, ManagerPhase.serving] using hprefix

theorem Taken.received_nil {r : Runner} {coming sent : Bytes} (h : Taken r coming sent)
    (hnone : r.attempts = 0) : received r = [] ∧ leaving r.phase = [] := by
  obtain ⟨hphase, hpast, _⟩ := h.untried hnone
  simp [received, Runner.connections, leaving, outgoing, RunnerPhase.connection, hphase, hpast]

theorem FidelityInv.givenMove {s : Proxy} {a : ManagerAction} {manager : Manager}
    (h : FidelityInv s) (hoffline : Offline a) (hmove : ManagerMove s.manager a manager) :
    Given manager s.runner s.down := by
  cases hmove with
  | call | closeProvider => exact h.given
  | client c a ch hopened hclient =>
      exact h.given.same rfl rfl (setChannel_toClient (client_toClient hclient) 0)
  | notify =>
      refine h.given.same ?_ ?_ rfl
      · unfold Manager.notifyWaiters
        cases s.manager.phase <;> rfl
      · unfold Manager.notifyWaiters
        cases s.manager.phase <;> rfl
  | accept hphase hqueued =>
      have hzero : s.manager.accepted = 0 := by
        have hone := h.single
        omega
      obtain ⟨_, hattempts, hdown⟩ := h.quiet (h.fresh (.inl hzero))
      obtain ⟨hreceived, hleaving⟩ := h.taken.received_nil hattempts
      have hprefix := h.given.isPrefix
      rw [hreceived, List.prefix_nil] at hprefix
      simp [Given, ManagerPhase.serving, inHand, hprefix, hdown, hleaving, hreceived]
  | stop hphase | start hphase | resetPending hphase | transportPending notified hphase
  | channelPending n notified hphase =>
      refine h.given.same ?_ ?_ rfl
      · rw [hphase]
        rfl
      · rw [hphase]
        rfl
  | channelRead n notified data pipe hphase hread =>
      have hsame :
          ({s.manager.channel with fromClient := pipe} : ManagementChannel).toClient.written =
            (s.manager.channels s.manager.current).toClient.written := rfl
      refine h.given.same ?_ ?_ (setChannel_toClient hsame 0)
      · rw [hphase]
        rfl
      · rw [hphase]
        rfl
  | restart | writeFail => exact h.given.leave rfl (leave_toClient _ 0)
  | wrote n session rest hphase hclosed =>
      have hzero := h.current (by rw [hphase]; rfl)
      have hgiven := h.given
      simp only [Given, hphase, ManagerPhase.serving, inHand, if_true] at hgiven
      have hwritten : ((s.manager.gave (s.manager.channel.toClient.put (rest.take n)) session
          (rest.take n)).channels 0).toClient.written =
            (s.manager.channels 0).toClient.written ++ rest.take n := by
        change ((s.manager.setChannel _ _).channels 0).toClient.written = _
        rw [setChannel_apply, hzero, if_pos rfl]
        simp [Manager.channel, hzero]
      have hphase' : (s.manager.writeAll session (rest.drop n)).phase.serving = true ∧
          inHand (s.manager.writeAll session (rest.drop n)).phase = rest.drop n := by
        unfold Manager.writeAll
        split
        · next hempty => simp [Manager.iterate, ManagerPhase.serving, inHand, hempty]
        · simp [ManagerPhase.serving, inHand]
      have hsame : ((s.manager.gave (s.manager.channel.toClient.put (rest.take n)) session
          (rest.take n)).writeAll session (rest.drop n)).phase =
            (s.manager.writeAll session (rest.drop n)).phase := by
        unfold Manager.writeAll
        split <;> rfl
      rw [Given, hsame, hphase'.1, if_pos rfl, hphase'.2, writeAll_channels, hwritten, ← hgiven]
      simp only [List.append_assoc]
      rw [← List.append_assoc (rest.take n), List.take_append_drop]
  | transportLost | eofMarker | message | discard => cases hoffline
  | sendFailed | sentEof | sentData => cases hoffline

/-! ### The manager moves -/

theorem FidelityInv.freshMove {s : Proxy} {a : ManagerAction} {manager : Manager}
    (h : FidelityInv s) (hmove : ManagerMove s.manager a manager)
    (hfresh : manager.accepted = 0 ∨ manager.phase = .clearing) :
    s.manager.accepted = 0 ∨ s.manager.phase = .clearing := by
  have hone := h.single
  cases hmove with
  | accept hphase hqueued =>
      left
      omega
  | call | closeProvider | client | discard => exact hfresh
  | notify =>
      refine hfresh.imp id ?_
      unfold Manager.notifyWaiters
      cases s.manager.phase <;> simp
  | wrote n session rest hphase hclosed =>
      unfold Manager.writeAll at hfresh
      split at hfresh
      · exact hfresh.imp id (fun hphase => by cases hphase)
      · exact hfresh.imp id (fun hphase => by cases hphase)
  | _ => exact hfresh.imp id (fun hphase => by cases hphase)

theorem FidelityInv.singleMove {s : Proxy} {a : ManagerAction} {manager : Manager}
    (h : FidelityInv s) (hcond : SingleSession s (.manager a))
    (hmove : ManagerMove s.manager a manager) : manager.opened ≤ 1 := by
  cases hmove with
  | call =>
      have hzero : s.manager.opened = 0 := hcond
      simp [hzero]
  | wrote n session rest hphase hclosed =>
      unfold Manager.writeAll
      split <;> exact h.single
  | _ => exact h.single

theorem FidelityInv.offline {s : Proxy} {a : ManagerAction} {manager : Manager}
    (h : FidelityInv s) (hcond : SingleSession s (.manager a)) (hoffline : Offline a)
    (hmove : ManagerMove s.manager a manager) : FidelityInv {s with manager} where
  ordered := h.ordered.move hmove
  single := h.singleMove hcond hmove
  quiet := h.quiet
  fresh := fun hfresh => h.fresh (h.freshMove hmove hfresh)
  sent := by
    refine h.sentMove ?_ hmove
    rintro ok rfl
    exact hoffline
  eofNext := h.eofNextMove hmove
  eofLast := h.eofLast.move hmove
  taken := h.taken
  given := h.givenMove hoffline hmove

/-- The loop takes a message: it writes the data next, or leaves. -/
theorem FidelityInv.takes {s : Proxy} {message : Message} {rest : List Message}
    {manager : Manager} (h : FidelityInv s)
    (hcond : SingleSession s (.manager (.pollTransport (some (some (.ok message))))))
    (hdown : s.down = message :: rest)
    (hmove : ManagerMove s.manager (.pollTransport (some (some (.ok message)))) manager) :
    FidelityInv {s with manager, down := rest} where
  ordered := h.ordered.move hmove
  single := h.singleMove hcond hmove
  quiet := by
    intro hlog
    have hnone := (h.quiet hlog).2.2
    rw [hdown] at hnone
    cases hnone
  fresh := fun hfresh => h.fresh (h.freshMove hmove hfresh)
  sent := h.sentMove (by simp) hmove
  eofNext := h.eofNextMove hmove
  eofLast := h.eofLast.move hmove
  taken := h.taken
  given := by
    cases hmove with
    | transportLost notified item hphase hitem => exact absurd rfl (hitem message)
    | eofMarker notified message hphase hdata =>
        refine h.given.leave rfl ((leave_toClient _ 0).trans ?_)
        apply setChannel_toClient
        rfl
    | message notified message hphase hdata =>
        have hgiven := h.given
        simp only [Given, hphase, hdown, ManagerPhase.serving, inHand, payload_cons, if_true,
          List.append_nil, List.append_assoc] at hgiven
        simpa [Given, ManagerPhase.serving, inHand] using hgiven

/-- A send completes: data stays in order, and an empty message is the end of
what the client has written. -/
theorem FidelityInv.sends {s : Proxy} {data : Bytes} {manager : Manager} (h : FidelityInv s)
    (hsending : s.manager.phase = .sending data)
    (hmove : ManagerMove s.manager (.sent true) manager) :
    FidelityInv ⟨manager, s.runner, s.up ++ [⟨s.manager.current, data⟩], s.down,
      s.upLog ++ [⟨s.manager.current, data⟩]⟩ := by
  have hcond : SingleSession s (.manager (.sent true)) := trivial
  have hsent := h.sent
  simp only [Sent, hsending, unsent] at hsent
  have hlast : EofLast s.manager (s.upLog ++ [⟨s.manager.current, data⟩]) := by
    intro before message after hlog hdata
    rcases snoc_eq_append_cons hlog with ⟨rfl, rfl, _⟩ | ⟨later, _, hold⟩
    · obtain rfl : data = [] := hdata
      obtain ⟨hclosed, hall⟩ := h.eofNext hsending
      refine ⟨hclosed, ?_⟩
      rw [← hall, hsent, List.append_nil]
    · exact h.eofLast before message later hold hdata
  constructor
  · exact h.ordered.move hmove
  · exact h.singleMove hcond hmove
  · intro hlog
    simp at hlog
  · intro hfresh
    have hbefore := h.freshMove hmove hfresh
    have hlt := h.ordered.current_lt (by rw [hsending]; rfl)
    rcases hbefore with hzero | hclearing
    · omega
    · rw [hsending] at hclearing
      cases hclearing
  · cases hmove with
    | sentEof hphase =>
        obtain rfl : data = [] := by simpa [hsending] using hphase
        have hprefix : payload s.upLog <+: (s.manager.leave.channels 0).fromClient.written :=
          h.sent.isPrefix.trans ((ManagerMove.sentEof hphase).written 0)
        simpa [Sent, Manager.leave, unsent] using hprefix
    | sentData other hphase hdata =>
        simpa [Sent, Manager.iterate, unsent] using hsent
  · exact h.eofNextMove hmove
  · exact hlast.move hmove
  · obtain ⟨huntried, hconnecting, hserving, hpast, honce⟩ := h.taken
    constructor
    · intro hnone
      obtain ⟨hphase, hempty, hcoming⟩ := huntried hnone
      exact ⟨hphase, hempty, by simp [hcoming]⟩
    · intro first hphase hfirst
      obtain ⟨hempty, hbytes⟩ := hconnecting first hphase hfirst
      exact ⟨hempty, by simp [← hbytes]⟩
    · intro conn op hphase
      obtain ⟨hempty, hbytes⟩ := hserving conn op hphase
      exact ⟨hempty, by simp [← hbytes]⟩
    · intro conn hconn
      simpa using (hpast conn hconn).trans (List.prefix_append _ _)
    · exact honce
  · cases hmove with
    | sentEof hphase => exact h.given.leave rfl (leave_toClient _ 0)
    | sentData other hphase hdata =>
        refine h.given.same ?_ ?_ rfl
        · rw [hsending]
          rfl
        · rw [hsending]
          rfl

/-! ### The runner moves -/

/-- The runner has read `data` more from the daemon, or nothing; it is in hand
or on the link. -/
theorem Given.runner {m : Manager} {r next : Runner} {down down' : List Message}
    (h : Given m r down) (data : Bytes) (hreceived : received next = received r ++ data)
    (hleaving : payload down' ++ leaving next.phase = payload down ++ leaving r.phase ++ data) :
    Given m next down' := by
  unfold Given at *
  split
  · next hserving =>
    simp only [hserving, if_true, List.append_assoc] at h hleaving
    simp only [List.append_assoc, hleaving]
    rw [hreceived, ← h]
    simp
  · next hserving =>
    simp only [hserving] at h
    rw [hreceived]
    exact h.trans (List.prefix_append _ _)

theorem Taken.serves {r : Runner} {coming sent : Bytes} {conn conn' : Connection}
    {op op' : Serving} (h : Taken r coming sent) (hphase : r.phase = .serving conn op)
    (hbytes : conn'.written ++ unwritten op' = conn.written ++ unwritten op) :
    Taken {r with phase := .serving conn' op'} coming sent := by
  have hserving := h.serving conn op hphase
  constructor
  · intro hnone
    have hwaiting := (h.untried hnone).1
    rw [hphase] at hwaiting
    cases hwaiting
  · intro first hconnecting
    cases hconnecting
  · intro other others hother
    cases hother
    rwa [hbytes]
  · exact h.past
  · exact h.once

/-- A session is over: its connection is the only one in the past. -/
theorem Taken.ends {r next : Runner} {coming coming' sent : Bytes} {conn : Connection}
    {op : Serving} (h : Taken r coming sent) (hphase : r.phase = .serving conn op)
    (hpast : next.past = conn :: r.past) (hattempts : next.attempts = r.attempts)
    (hidle : next.phase = .waiting ∨ next.phase = .signalling conn.channel) :
    Taken next coming' sent := by
  obtain ⟨hempty, hbytes⟩ := h.serving conn op hphase
  have hone : next.past = [conn] := by rw [hpast, hempty]
  constructor
  · intro hnone
    rw [hattempts] at hnone
    have hwaiting := (h.untried hnone).1
    rw [hphase] at hwaiting
    cases hwaiting
  · intro first hconnecting
    rcases hidle with hidle | hidle <;> rw [hidle] at hconnecting <;> cases hconnecting
  · intro other others hother
    rcases hidle with hidle | hidle <;> rw [hidle] at hother <;> cases hother
  · intro other hother
    rw [hone, List.mem_singleton] at hother
    subst hother
    rw [← hbytes, List.append_assoc]
    exact List.prefix_append _ _
  · simp [hone]

/-- The upstream part of a move of the runner that takes nothing from the link. -/
theorem FidelityInv.takenMove {s : Proxy} {a : RunnerAction} {runner : Runner}
    (h : FidelityInv s) (hcond : SingleSession s (.runner a))
    (htaken : ∀ item, a ≠ .receive item) (hmove : RunnerMove s.runner a runner) :
    Taken runner (payload s.up) (payload s.upLog) := by
  cases hmove with
  | ignoreEof message | first message | eof conn message | message conn message =>
      exact absurd rfl (htaken (some (.ok message)))
  | lost item | lostServing conn item => exact absurd rfl (htaken item)
  | connected first hphase =>
      obtain ⟨_, hattempts⟩ := hcond
      obtain ⟨hempty, hbytes⟩ := h.taken.connecting first hphase hattempts
      constructor
      · intro hnone
        rw [show s.runner.attempts = 0 from hnone] at hattempts
        cases hattempts
      · intro other hconnecting
        cases hconnecting
      · intro conn op hserving
        cases hserving
        exact ⟨hempty, by simpa using hbytes⟩
      · exact h.taken.past
      · exact h.taken.once
  | refused first hphase => cases hcond.1
  | wrote n conn rest hphase =>
      apply h.taken.serves hphase
      rw [unwritten_writeAll, List.append_assoc, List.take_append_drop]
      rfl
  | writeFail conn rest hphase => exact h.taken.ends hphase rfl rfl (.inl rfl)
  | daemonEof n conn hphase => exact h.taken.ends hphase rfl rfl (.inl rfl)
  | read n conn data pipe hphase hread hdata => exact h.taken.serves hphase rfl
  | readFail conn hphase => exact h.taken.ends hphase rfl rfl (.inr rfl)
  | sentData conn data hphase => exact h.taken.serves hphase rfl
  | sendFailed conn data hphase => exact h.taken.ends hphase rfl rfl (.inl rfl)
  | signalled channel ok hphase =>
      constructor
      · intro hnone
        have hwaiting := (h.taken.untried hnone).1
        rw [hphase] at hwaiting
        cases hwaiting
      · intro first hconnecting
        cases hconnecting
      · intro conn op hserving
        cases hserving
      · exact h.taken.past
      · exact h.taken.once
  | daemonWrite chunk conn op hphase => exact h.taken.serves hphase rfl
  | daemonClose conn op hphase => exact h.taken.serves hphase rfl

/-- The downstream part of a move of the runner that does not involve the link. -/
theorem FidelityInv.givenRunner {s : Proxy} {a : RunnerAction} {runner : Runner}
    (h : FidelityInv s) (hoffline : OfflineRunner a) (hmove : RunnerMove s.runner a runner) :
    Given s.manager runner s.down := by
  cases hmove with
  | connected first hphase =>
      refine h.given.runner [] ?_ ?_
      · simp [received, Runner.connections, RunnerPhase.connection, hphase]
      · unfold Serving.writeAll
        split <;> simp [leaving, outgoing, hphase]
  | refused first hphase =>
      refine h.given.runner [] ?_ ?_
      · simp [received, Runner.connections, RunnerPhase.connection, hphase]
      · simp [leaving, outgoing, hphase]
  | wrote n conn rest hphase =>
      refine h.given.runner [] ?_ ?_
      · simp [received, Runner.connections, RunnerPhase.connection, hphase]
      · unfold Serving.writeAll
        split <;> simp [leaving, outgoing, hphase]
  | writeFail conn rest hphase =>
      refine h.given.runner [] ?_ ?_
      · simp [received, Runner.connections, RunnerPhase.connection, hphase, Runner.abandon]
      · simp [leaving, outgoing, hphase, Runner.abandon]
  | daemonEof n conn hphase | readFail conn hphase =>
      refine h.given.runner [] ?_ ?_
      · simp [received, Runner.connections, RunnerPhase.connection, hphase, Runner.abandon]
      · simp [leaving, outgoing, hphase, Runner.abandon]
  | read n conn data pipe hphase hread hdata =>
      obtain ⟨hempty, _⟩ := h.taken.serving conn .selecting hphase
      refine h.given.runner data ?_ ?_
      · rcases Pipe.read_cases hread with ⟨hnil, _, _, _⟩ | ⟨_, _, hseen⟩
        · exact absurd hnil hdata
        · simp [received, Runner.connections, RunnerPhase.connection, hphase, hempty, hseen]
      · simp [leaving, outgoing, hphase]
  | daemonWrite chunk conn op hphase =>
      refine h.given.runner [] ?_ ?_
      · simp [received, Runner.connections, RunnerPhase.connection, hphase]
      · cases op <;> simp [leaving, outgoing, hphase]
  | daemonClose conn op hphase =>
      refine h.given.runner [] ?_ ?_
      · simp [received, Runner.connections, RunnerPhase.connection, hphase]
      · cases op <;> simp [leaving, outgoing, hphase]
  | ignoreEof | first | lost | eof | message | lostServing => cases hoffline
  | sentData | sendFailed | signalled => cases hoffline

theorem attempts_move {r next : Runner} {a : RunnerAction} (hmove : RunnerMove r a next)
    (htaken : ∀ item, a ≠ .receive item) : next.attempts = r.attempts := by
  cases hmove with
  | first message => exact absurd rfl (htaken (some (.ok message)))
  | _ => rfl

theorem FidelityInv.runnerOffline {s : Proxy} {a : RunnerAction} {runner : Runner}
    (h : FidelityInv s) (hcond : SingleSession s (.runner a)) (hoffline : OfflineRunner a)
    (hmove : RunnerMove s.runner a runner) : FidelityInv {s with runner} := by
  have htaken : ∀ item, a ≠ .receive item := by
    rintro item rfl
    exact hoffline
  refine ⟨h.ordered, h.single, ?_, h.fresh, h.sent, h.eofNext, h.eofLast,
    h.takenMove hcond htaken hmove, h.givenRunner hoffline hmove⟩
  intro hlog
  rw [attempts_move hmove htaken]
  exact h.quiet hlog

/-- The runner's message is on the link. -/
theorem FidelityInv.runnerSends {s : Proxy} {message : Message} {runner : Runner}
    (h : FidelityInv s) (hmessage : outgoing s.runner.phase = some message)
    (hmove : RunnerMove s.runner (.sent true) runner) :
    FidelityInv {s with runner, down := s.down ++ [message]} := by
  have hcond : SingleSession s (.runner (.sent true)) := trivial
  refine ⟨h.ordered, h.single, ?_, h.fresh, h.sent, h.eofNext, h.eofLast,
    h.takenMove hcond (by simp) hmove, ?_⟩
  · intro hlog
    have hwaiting := (h.taken.untried (h.quiet hlog).2.1).1
    simp [hwaiting, outgoing] at hmessage
  · cases hmove with
    | sentData conn data hphase =>
        refine h.given.runner [] ?_ ?_
        · simp [received, Runner.connections, RunnerPhase.connection, hphase]
        · simp only [hphase, outgoing, Option.some.injEq] at hmessage
          simp [leaving, outgoing, hphase, ← hmessage]
    | signalled channel ok hphase =>
        refine h.given.runner [] ?_ ?_
        · simp [received, Runner.connections, RunnerPhase.connection, hphase]
        · simp only [hphase, outgoing, Option.some.injEq] at hmessage
          simp [leaving, outgoing, hphase, ← hmessage]

/-- The runner takes a message from the link. -/
theorem FidelityInv.receives {s : Proxy} {message : Message} {rest : List Message}
    {runner : Runner} (h : FidelityInv s) (hup : s.up = message :: rest)
    (hmove : RunnerMove s.runner (.receive (some (.ok message))) runner) :
    FidelityInv {s with runner, up := rest} := by
  have hcoming : payload s.up = message.data ++ payload rest := by rw [hup, payload_cons]
  have htaken := h.taken
  rw [hcoming] at htaken
  suffices hgoal : Taken runner (payload rest) (payload s.upLog) ∧
      Given s.manager runner s.down by
    refine ⟨h.ordered, h.single, ?_, h.fresh, h.sent, h.eofNext, h.eofLast, hgoal.1, hgoal.2⟩
    intro hlog
    have hnone := (h.quiet hlog).1
    rw [hup] at hnone
    cases hnone
  cases hmove with
  | ignoreEof message hphase hdata =>
      refine ⟨?_, h.given⟩
      simpa [hdata] using htaken
  | first message hphase hdata =>
      refine ⟨?_, ?_⟩
      · constructor
        · intro hnone
          cases hnone
        · intro other hconnecting hattempts
          cases hconnecting
          have hnone : s.runner.attempts = 0 := by simpa using hattempts
          exact (htaken.untried hnone).2
        · intro conn op hserving
          cases hserving
        · exact htaken.past
        · exact htaken.once
      · refine h.given.runner [] ?_ ?_
        · simp [received, Runner.connections, RunnerPhase.connection, hphase]
        · simp [leaving, outgoing, hphase]
  | lost item hphase hitem => exact absurd rfl (hitem message)
  | eof conn message hphase hdata =>
      refine ⟨htaken.ends hphase rfl rfl (.inl rfl), ?_⟩
      refine h.given.runner [] ?_ ?_
      · simp [received, Runner.connections, RunnerPhase.connection, hphase, Runner.finish]
      · simp [leaving, outgoing, hphase, Runner.finish]
  | message conn message hphase hdata =>
      obtain ⟨hempty, hbytes⟩ := htaken.serving conn .selecting hphase
      refine ⟨?_, ?_⟩
      · constructor
        · intro hnone
          have hwaiting := (htaken.untried hnone).1
          rw [hphase] at hwaiting
          cases hwaiting
        · intro first hconnecting
          cases hconnecting
        · intro other op hserving
          cases hserving
          exact ⟨hempty, by simpa [unwritten] using hbytes⟩
        · exact htaken.past
        · exact htaken.once
      · refine h.given.runner [] ?_ ?_
        · simp [received, Runner.connections, RunnerPhase.connection, hphase]
        · simp [leaving, outgoing, hphase]
  | lostServing conn item hphase hitem => exact absurd rfl (hitem message)

theorem FidelityInv.step (s : Proxy) (a : ProxyAction) (next : Proxy) (h : FidelityInv s)
    (hcond : SingleSession s a) (hstep : s.step a = some next) : FidelityInv next := by
  cases step_move hstep with
  | managerOffline a manager hoffline hmove => exact h.offline hcond hoffline hmove
  | discard first rest hphase hdown =>
      have hnone := (h.quiet (h.fresh (.inr hphase))).2.2
      rw [hdown] at hnone
      cases hnone
  | managerTakes message rest manager hdown hmove => exact h.takes hcond hdown hmove
  | managerSends data manager hphase hmove => exact h.sends hphase hmove
  | runnerOffline a runner hoffline hmove => exact h.runnerOffline hcond hoffline hmove
  | runnerTakes message rest runner hup hmove => exact h.receives hup hmove
  | runnerSends message runner hmessage hmove => exact h.runnerSends hmessage hmove

/-! ### The result -/

theorem FidelityInv.connections_length {s : Proxy} (h : FidelityInv s) :
    s.runner.connections.length ≤ 1 := by
  cases hphase : s.runner.phase with
  | serving conn op =>
      obtain ⟨hempty, _⟩ := h.taken.serving conn op hphase
      simp [Runner.connections, RunnerPhase.connection, hphase, hempty]
  | _ =>
      simpa [Runner.connections, RunnerPhase.connection, hphase] using h.taken.once

theorem FidelityInv.fidelity {s : Proxy} (h : FidelityInv s) : Fidelity s where
  toDaemon := by
    intro conn hconn
    refine List.IsPrefix.trans ?_ h.sent.isPrefix
    rcases List.mem_append.mp hconn with hcurrent | hpast
    · cases hphase : s.runner.phase with
      | serving other op =>
          obtain rfl : conn = other := by
            simpa [hphase, RunnerPhase.connection] using hcurrent
          obtain ⟨_, hbytes⟩ := h.taken.serving conn op hphase
          rw [← hbytes, List.append_assoc]
          exact List.prefix_append _ _
      | _ => simp [hphase, RunnerPhase.connection] at hcurrent
    · exact h.taken.past conn hpast
  toClient := by
    refine h.given.isPrefix.trans ?_
    have hone := h.connections_length
    unfold received
    rcases hconns : s.runner.connections with _ | ⟨conn, _ | ⟨other, rest⟩⟩
    · simp
    · simpa using Pipe.seen_prefix conn.fromDaemon
    · simp [hconns] at hone
  eofLast := by
    intro before message after hlog hdata
    exact (h.eofLast before message after hlog hdata).2

/-- In every run with one management channel and one successful attempt to
connect, the two byte streams arrive unchanged and the end of the upstream one
is announced last. -/
theorem session_fidelity (actions : List ProxyAction) (s : Proxy)
    (hmeets : Meets Proxy.step SingleSession Proxy.new actions)
    (hrun : run Proxy.step Proxy.new actions = some s) : Fidelity s := by
  have hinv : FidelityInv s := run_preserves_of_meets FidelityInv.step actions .initial hmeets hrun
  exact hinv.fidelity

theorem whole_session_fidelity :
    ∃ s, run Proxy.step Proxy.new
        (clientWrites 0 1 ++ runnerConnects 0 1 ++ answered 0 ++ clientCloses 0) = some s ∧
      (s.runner.connections.map Connection.written,
        (s.manager.channels 0).toClient.written, s.upLog) = ([[1]], [9], [⟨0, [1]⟩, ⟨0, []⟩]) ∧
      Fidelity s := by
  have hstreams : (run Proxy.step Proxy.new
      (clientWrites 0 1 ++ runnerConnects 0 1 ++ answered 0 ++ clientCloses 0)).map
        (fun s => (s.runner.connections.map Connection.written,
          (s.manager.channels 0).toClient.written, s.upLog)) =
        some ([[1]], [9], [⟨0, [1]⟩, ⟨0, []⟩]) := by decide
  obtain ⟨s, hrun, hs⟩ := Option.map_eq_some_iff.mp hstreams
  exact ⟨s, hrun, hs, session_fidelity _ s (by decide) hrun⟩

end MullvadAppTests.DaemonProxy
