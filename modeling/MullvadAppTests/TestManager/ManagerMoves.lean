import MullvadAppTests.TestManager.NewRpcClient

/-!
What one step of the loop of `new_rpc_client`, of a client or of a reset can do,
said once: `ManagerMove` lists the transitions by what they change. Later proofs
go by cases on the move and do not look into the step function.
-/

namespace MullvadAppTests.TestManager

open Lib Lib.LengthDelimited TestRpc

inductive ManagerMove (m : Manager) : ManagerAction → Manager → Prop
  | call : ManagerMove m .call {m with opened := m.opened + 1}
  | closeProvider : ManagerMove m .closeProvider {m with providerClosed := true}
  | client (c : Nat) (a : ClientAction) (ch : ManagementChannel) (hopened : c < m.opened)
      (hclient : (m.channels c).client a = some ch) :
      ManagerMove m (.client c a) (m.setChannel c ch)
  | notify : ManagerMove m .notifyWaiters m.notifyWaiters
  | accept (hphase : m.phase = .waiting) (hqueued : m.accepted < m.opened) :
      ManagerMove m .nextChannel
        {m with phase := .clearing, current := m.accepted, accepted := m.accepted + 1}
  | stop (hphase : m.phase = .waiting) : ManagerMove m .nextChannel {m with phase := .stopped}
  | discard (hphase : m.phase = .clearing) : ManagerMove m (.clear true) m
  | start (hphase : m.phase = .clearing) : ManagerMove m (.clear false) m.iterate
  | restart (hphase : m.phase = .selecting .reset true) : ManagerMove m .pollReset m.leave
  | resetPending (hphase : m.phase = .selecting .reset false) :
      ManagerMove m .pollReset {m with phase := .selecting .transport false}
  | transportPending (notified : Bool) (hphase : m.phase = .selecting .transport notified) :
      ManagerMove m (.pollTransport none) {m with phase := .selecting .channel notified}
  | transportLost (notified : Bool) (item : Option (Except IoError Message))
      (hphase : m.phase = .selecting .transport notified)
      (hitem : ∀ message, item ≠ some (.ok message)) :
      ManagerMove m (.pollTransport (some item)) m.leave
  | eofMarker (notified : Bool) (message : Message)
      (hphase : m.phase = .selecting .transport notified) (hdata : message.data = []) :
      ManagerMove m (.pollTransport (some (some (.ok message))))
        (m.perform (.shutdown message.channel))
  | message (notified : Bool) (message : Message)
      (hphase : m.phase = .selecting .transport notified) (hdata : message.data ≠ []) :
      ManagerMove m (.pollTransport (some (some (.ok message))))
        {m with phase := .writing message.channel message.data}
  | channelPending (n : Nat) (notified : Bool)
      (hphase : m.phase = .selecting .channel notified) :
      ManagerMove m (.pollChannel n) {m with phase := .selecting .reset notified}
  | channelRead (n : Nat) (notified : Bool) (data : Bytes) (pipe : Pipe UInt8)
      (hphase : m.phase = .selecting .channel notified)
      (hread : m.channel.fromClient.read n = some (data, pipe)) :
      ManagerMove m (.pollChannel n) {m.took pipe with phase := .sending data}
  | writeFail (n session : Nat) (rest : Bytes) (hphase : m.phase = .writing session rest)
      (hclosed : m.channel.toClient.closed = true) :
      ManagerMove m (.write n) m.leave
  | wrote (n session : Nat) (rest : Bytes) (hphase : m.phase = .writing session rest)
      (hclosed : m.channel.toClient.closed = false) :
      ManagerMove m (.write n)
        ((m.gave (m.channel.toClient.put (rest.take n)) session (rest.take n)).writeAll
          session (rest.drop n))
  | sendFailed (data : Bytes) (hphase : m.phase = .sending data) :
      ManagerMove m (.sent false) m.leave
  | sentEof (hphase : m.phase = .sending []) : ManagerMove m (.sent true) m.leave
  | sentData (data : Bytes) (hphase : m.phase = .sending data) (hdata : data ≠ []) :
      ManagerMove m (.sent true) m.iterate

theorem nextChannel_move {m next : Manager} (h : newRpcClient m .nextChannel = some next) :
    ManagerMove m .nextChannel next := by
  simp only [newRpcClient] at h
  split at h
  · next hphase =>
    split at h
    · next hqueued =>
      cases h
      exact .accept hphase hqueued
    · split at h
      · cases h
        exact .stop hphase
      · cases h
  · cases h

theorem clear_move {m next : Manager} {ready : Bool}
    (h : newRpcClient m (.clear ready) = some next) : ManagerMove m (.clear ready) next := by
  simp only [newRpcClient] at h
  split at h
  · next hphase =>
    cases ready with
    | true =>
        cases h
        exact .discard hphase
    | false =>
        cases h
        exact .start hphase
  · cases h

theorem pollReset_move {m next : Manager} (h : newRpcClient m .pollReset = some next) :
    ManagerMove m .pollReset next := by
  simp only [newRpcClient] at h
  split at h
  · next notified hphase =>
    cases notified with
    | true =>
        cases h
        exact .restart hphase
    | false =>
        cases h
        exact .resetPending hphase
  · cases h

theorem pollTransport_move {m next : Manager} {item : Option (Option (Except IoError Message))}
    (h : newRpcClient m (.pollTransport item) = some next) :
    ManagerMove m (.pollTransport item) next := by
  simp only [newRpcClient] at h
  split at h
  · next notified hphase =>
    rcases item with _ | _ | error | message
    · cases h
      exact .transportPending notified hphase
    · cases h
      exact .transportLost notified none hphase (by simp)
    · cases h
      exact .transportLost notified (some (.error error)) hphase (by simp)
    · by_cases hdata : message.data = []
      · simp only [onSelected, if_pos hdata] at h
        cases h
        exact .eofMarker notified message hphase hdata
      · simp only [onSelected, if_neg hdata, Manager.perform, Manager.writeAll] at h
        cases h
        exact .message notified message hphase hdata
  · cases h

theorem pollChannel_move {m next : Manager} {n : Nat}
    (h : newRpcClient m (.pollChannel n) = some next) :
    ManagerMove m (.pollChannel n) next := by
  simp only [newRpcClient] at h
  split at h
  · next notified hphase =>
    split at h
    · cases h
    · split at h
      · next data pipe hread =>
        cases h
        exact .channelRead n notified data pipe hphase hread
      · split at h
        · cases h
          exact .channelPending n notified hphase
        · cases h
  · cases h

theorem write_move {m next : Manager} {n : Nat} (h : newRpcClient m (.write n) = some next) :
    ManagerMove m (.write n) next := by
  simp only [newRpcClient, Pipe.write] at h
  split at h
  · next session rest hphase =>
    split at h
    · cases h
    · cases hclosed : m.channel.toClient.closed with
      | true =>
          simp only [hclosed, if_true] at h
          cases h
          exact .writeFail n session rest hphase hclosed
      | false =>
          simp only [hclosed, Bool.false_eq_true, if_false] at h
          split at h
          · next hresult => split at hresult <;> cases hresult
          · next pipe hresult =>
            split at hresult
            · cases hresult
              cases h
              exact .wrote n session rest hphase hclosed
            · cases hresult
          · cases h
  · cases h

theorem sent_move {m next : Manager} {ok : Bool} (h : newRpcClient m (.sent ok) = some next) :
    ManagerMove m (.sent ok) next := by
  simp only [newRpcClient] at h
  split at h
  · next data hphase =>
    cases ok with
    | false =>
        cases h
        exact .sendFailed data hphase
    | true =>
        by_cases hdata : data = []
        · subst hdata
          cases h
          exact .sentEof hphase
        · simp only [Bool.true_eq_false, hdata, or_self, if_false] at h
          cases h
          exact .sentData data hphase hdata
  · cases h

theorem newRpcClient_move {m next : Manager} {a : ManagerAction}
    (h : newRpcClient m a = some next) : ManagerMove m a next := by
  cases a with
  | call =>
      simp only [newRpcClient] at h
      split at h
      · cases h
      · cases h
        exact .call
  | closeProvider =>
      cases h
      exact .closeProvider
  | client c a =>
      simp only [newRpcClient] at h
      split at h
      · next hopened =>
        obtain ⟨ch, hclient, hset⟩ := Option.map_eq_some_iff.mp h
        cases hset
        exact .client c a ch hopened hclient
      · cases h
  | notifyWaiters =>
      cases h
      exact .notify
  | nextChannel => exact nextChannel_move h
  | clear ready => exact clear_move h
  | pollReset => exact pollReset_move h
  | pollTransport item => exact pollTransport_move h
  | pollChannel n => exact pollChannel_move h
  | write n => exact write_move h
  | sent ok => exact sent_move h

/-! ### What the moves do to the channels -/

/-- What a client can do to its channel: nothing happens when it writes to a
channel that the loop has dropped. -/
inductive ClientMove (ch : ManagementChannel) : ManagementChannel → Prop
  | refused : ClientMove ch ch
  | wrote (chunk : Bytes) (hopen : ch.fromClient.closed = false) :
      ClientMove ch {ch with fromClient := ch.fromClient.put chunk}
  | read (n : Nat) : ClientMove ch {ch with toClient := ch.toClient.advance n}
  | shutdown : ClientMove ch {ch with fromClient := ch.fromClient.close}
  | dropped : ClientMove ch ch.dropEnd

theorem client_move {ch next : ManagementChannel} {a : ClientAction}
    (h : ch.client a = some next) : ClientMove ch next := by
  cases a with
  | write chunk =>
      simp only [ManagementChannel.client] at h
      split at h
      · next pipe hwrite =>
        obtain ⟨hopen, _, rfl⟩ := Pipe.write_ok hwrite
        cases h
        exact .wrote chunk hopen
      · cases h
        exact .refused
      · cases h
  | read n =>
      obtain ⟨⟨chunk, pipe⟩, hread, rfl⟩ := Option.map_eq_some_iff.mp h
      rcases Pipe.read_cases hread with ⟨_, rfl, _, _⟩ | ⟨_, rfl, _⟩
      · exact .refused
      · exact .read n
  | shutdown =>
      cases h
      exact .shutdown
  | drop =>
      cases h
      exact .dropped

@[simp] theorem fromClient_dropEnd (ch : ManagementChannel) :
    ch.dropEnd.fromClient = ch.fromClient.close := rfl

/-- The clients can only add to what they have written, and only the loop
reads it. -/
theorem client_fromClient {ch next : ManagementChannel} {a : ClientAction}
    (h : ch.client a = some next) :
    next.fromClient.seen = ch.fromClient.seen ∧
      ch.fromClient.written <+: next.fromClient.written := by
  cases client_move h <;> simp

theorem client_closed {ch next : ManagementChannel} {a : ClientAction}
    (h : ch.client a = some next) (hclosed : ch.fromClient.closed = true) :
    next.fromClient.closed = true ∧ next.fromClient.written = ch.fromClient.written := by
  cases client_move h with
  | wrote chunk hopen =>
      rw [hclosed] at hopen
      cases hopen
  | _ => simp [hclosed]

theorem setChannel_apply (m : Manager) (c d : Nat) (ch : ManagementChannel) :
    (m.setChannel c ch).channels d = if d = c then ch else m.channels d :=
  Function.update_apply m.channels c ch d

theorem took_apply (m : Manager) (pipe : Pipe UInt8) (c : Nat) :
    (m.took pipe).channels c =
      if c = m.current then {m.channel with fromClient := pipe} else m.channels c :=
  setChannel_apply m m.current c _

@[simp] theorem gave_fromClient (m : Manager) (pipe : Pipe UInt8) (session : Nat) (chunk : Bytes)
    (c : Nat) :
    ((m.gave pipe session chunk).channels c).fromClient = (m.channels c).fromClient := by
  change (Function.update m.channels m.current _ c).fromClient = _
  rw [Function.update_apply]
  split
  · next h =>
    subst h
    rfl
  · rfl

@[simp] theorem writeAll_channels (m : Manager) (session : Nat) (rest : Bytes) :
    (m.writeAll session rest).channels = m.channels := by
  unfold Manager.writeAll
  split <;> rfl

/-- Leaving a channel closes it and changes nothing else in what the client
has written. -/
theorem leave_fromClient (m : Manager) (c : Nat) :
    (m.leave.channels c).fromClient =
      if c = m.current then (m.channels c).fromClient.close else (m.channels c).fromClient := by
  change (Function.update m.channels m.current _ c).fromClient = _
  rw [Function.update_apply]
  split
  · next h =>
    subst h
    rfl
  · rfl

theorem shutdown_fromClient (m : Manager) (session c : Nat) :
    ((m.perform (.shutdown session)).channels c).fromClient =
      (m.leave.channels c).fromClient := by
  simp only [Manager.perform, leave_fromClient, setChannel_apply]
  by_cases h : c = m.current
  · subst h
    simp [Manager.setChannel, Manager.channel]
  · simp [Manager.setChannel, h]

/-- How a move changes what the loop has read from a channel: a read on the
channel that is being served, or not at all. -/
theorem ManagerMove.seen {m next : Manager} {a : ManagerAction} (h : ManagerMove m a next)
    (c : Nat) : (next.channels c).fromClient.seen = (m.channels c).fromClient.seen ∨
      (c = m.current ∧ m.phase.serving = true) := by
  cases h with
  | client d a ch hopened hclient =>
      left
      rw [setChannel_apply]
      split
      · next hsame =>
        subst hsame
        exact (client_fromClient hclient).1
      · rfl
  | channelRead n notified data pipe hphase hread =>
      by_cases hcurrent : c = m.current
      · exact .inr ⟨hcurrent, by rw [hphase]; rfl⟩
      · left
        change ((m.took pipe).channels c).fromClient.seen = _
        rw [took_apply, if_neg hcurrent]
  | eofMarker notified message hphase hdata =>
      left
      rw [shutdown_fromClient, leave_fromClient]
      split <;> simp
  | wrote n session rest hphase hclosed => left; simp
  | restart | transportLost | writeFail | sendFailed | sentEof =>
      left
      rw [leave_fromClient]
      split <;> simp
  | _ => exact .inl rfl

theorem ManagerMove.written {m next : Manager} {a : ManagerAction} (h : ManagerMove m a next)
    (c : Nat) : (m.channels c).fromClient.written <+: (next.channels c).fromClient.written := by
  cases h with
  | client d a ch hopened hclient =>
      rw [setChannel_apply]
      split
      · next hsame =>
        subst hsame
        exact (client_fromClient hclient).2
      · exact List.prefix_refl _
  | channelRead n notified data pipe hphase hread =>
      change _ <+: ((m.took pipe).channels c).fromClient.written
      rw [took_apply]
      split
      · next hcurrent =>
        subst hcurrent
        rcases Pipe.read_cases hread with ⟨_, rfl, _, _⟩ | ⟨_, rfl, _⟩
        · exact List.prefix_refl _
        · exact List.prefix_refl _
      · exact List.prefix_refl _
  | eofMarker notified message hphase hdata =>
      rw [shutdown_fromClient, leave_fromClient]
      split <;> simp
  | wrote n session rest hphase hclosed => simp
  | restart | transportLost | writeFail | sendFailed | sentEof =>
      rw [leave_fromClient]
      split <;> simp
  | _ => exact List.prefix_refl _

/-- Nothing is written to a channel that its client has closed. -/
theorem ManagerMove.closed {m next : Manager} {a : ManagerAction} (h : ManagerMove m a next)
    (c : Nat) (hclosed : (m.channels c).fromClient.closed = true) :
    (next.channels c).fromClient.closed = true ∧
      (next.channels c).fromClient.written = (m.channels c).fromClient.written := by
  cases h with
  | client d a ch hopened hclient =>
      rw [setChannel_apply]
      split
      · next hsame =>
        subst hsame
        exact client_closed hclient hclosed
      · exact ⟨hclosed, rfl⟩
  | channelRead n notified data pipe hphase hread =>
      change ((m.took pipe).channels c).fromClient.closed = true ∧
        ((m.took pipe).channels c).fromClient.written = _
      rw [took_apply]
      split
      · next hcurrent =>
        subst hcurrent
        rcases Pipe.read_cases hread with ⟨_, rfl, _, _⟩ | ⟨_, rfl, _⟩
        · exact ⟨hclosed, rfl⟩
        · exact ⟨hclosed, rfl⟩
      · exact ⟨hclosed, rfl⟩
  | eofMarker notified message hphase hdata =>
      rw [shutdown_fromClient, leave_fromClient]
      split <;> simp [hclosed]
  | wrote n session rest hphase hopen => simp [hclosed]
  | restart | transportLost | writeFail | sendFailed | sentEof =>
      rw [leave_fromClient]
      split <;> simp [hclosed]
  | _ => exact ⟨hclosed, rfl⟩

theorem ManagerMove.opened {m next : Manager} {a : ManagerAction} (h : ManagerMove m a next) :
    m.opened ≤ next.opened := by
  cases h with
  | call => exact Nat.le_succ _
  | wrote n session rest hphase hclosed =>
      unfold Manager.writeAll
      split <;> exact Nat.le_refl _
  | _ => exact Nat.le_refl _

/-- The channels are taken in order, and a channel is read only once it has
been taken. -/
structure Manager.Ordered (m : Manager) : Prop where
  accepted_le : m.accepted ≤ m.opened
  current_lt : m.phase.serving = true → m.current < m.accepted
  unread : ∀ c, m.accepted ≤ c → (m.channels c).fromClient.seen = []

theorem Manager.Ordered.initial : Manager.new.Ordered where
  accepted_le := Nat.le_refl 0
  current_lt := by simp [Manager.new, ManagerPhase.serving]
  unread := by simp [Manager.new, ManagementChannel.new]

theorem ManagerMove.accepted {m next : Manager} {a : ManagerAction} (h : ManagerMove m a next) :
    (next.accepted = m.accepted ∧ next.current = m.current ∧
        (next.phase.serving = true → m.phase.serving = true)) ∨
      (m.phase = .waiting ∧ m.accepted < m.opened ∧ next =
        {m with phase := .clearing, current := m.accepted, accepted := m.accepted + 1}) := by
  cases h with
  | accept hphase hqueued => exact .inr ⟨hphase, hqueued, rfl⟩
  | notify =>
      refine .inl ⟨rfl, rfl, ?_⟩
      unfold Manager.notifyWaiters
      cases m.phase <;> exact id
  | wrote n session rest hphase hclosed =>
      left
      unfold Manager.writeAll
      split <;> exact ⟨rfl, rfl, fun _ => by rw [hphase]; rfl⟩
  | call | closeProvider | client | discard => exact .inl ⟨rfl, rfl, id⟩
  | stop | restart | transportLost | eofMarker | writeFail | sendFailed | sentEof =>
      refine .inl ⟨rfl, rfl, ?_⟩
      intro hserving
      cases hserving
  | _ =>
      refine .inl ⟨rfl, rfl, ?_⟩
      intro _
      simp_all [ManagerPhase.serving]

theorem ManagerMove.accepted_le {m next : Manager} {a : ManagerAction}
    (h : ManagerMove m a next) : m.accepted ≤ next.accepted := by
  rcases h.accepted with ⟨hsame, _⟩ | ⟨_, _, rfl⟩
  · exact Nat.le_of_eq hsame.symm
  · exact Nat.le_succ _

theorem Manager.Ordered.move {m next : Manager} {a : ManagerAction} (h : m.Ordered)
    (hmove : ManagerMove m a next) : next.Ordered := by
  have hseen : ∀ c, m.accepted ≤ c → (next.channels c).fromClient.seen = [] := by
    intro c hc
    rcases hmove.seen c with hsame | ⟨rfl, hserving⟩
    · rw [hsame]
      exact h.unread c hc
    · have hlt := h.current_lt hserving
      omega
  have hopened := hmove.opened
  have haccepted := h.accepted_le
  rcases hmove.accepted with ⟨hsame, hcurrent, hserving⟩ | ⟨_, hqueued, rfl⟩
  · constructor
    · omega
    · intro hnext
      have hlt := h.current_lt (hserving hnext)
      omega
    · intro c hc
      exact hseen c (by omega)
  · constructor
    · exact hqueued
    · intro _
      exact Nat.lt_succ_self m.accepted
    · intro c hc
      exact hseen c (by simp at hc; omega)

end MullvadAppTests.TestManager
