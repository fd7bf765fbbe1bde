import MullvadAppTests.Lib.Transition
import MullvadAppTests.DaemonProxy.Proxy

/-!
Sessions in the upstream direction. The two loops agree on where a session ends
by EOF markers only. As long as the manager does not leave a channel silently
while a session of it is alive, and the runner does not take further data of a
session that it has ended itself for the beginning of a new one, every daemon
connection receives an initial part of the stream of one management channel.

Two clients may write the same bytes, so it is not enough to compare bytes: the
messages written to a connection are to be the first ones that were sent for its
channel. `Position` is how far a reader of the link has come: between two
sessions, or within the session of a channel with the messages it has received.
-/

namespace MullvadAppTests.DaemonProxy

open Lib Lib.LengthDelimited Lib.Transition TestRpc TestManager TestRunner

/-- What has been written to a daemon connection comes from messages that were
sent for one management channel, from the first one on and without a gap, and is
an initial part of what the client has written into this channel. -/
def UpstreamIntegrity (s : Proxy) : Prop :=
  ∀ conn ∈ s.runner.connections,
    conn.channel < s.manager.opened ∧
    conn.taken <+: sentOn conn.channel s.upLog ∧
    conn.written <+: payload conn.taken ∧
    payload (sentOn conn.channel s.upLog) <+:
      (s.manager.channels conn.channel).fromClient.written ∧
    conn.written <+: (s.manager.channels conn.channel).fromClient.written

instance (s : Proxy) : Decidable (UpstreamIntegrity s) := by
  unfold UpstreamIntegrity
  infer_instance

/-! ### The condition -/

/-- The loop leaves its channel without sending an EOF marker. -/
def quits (m : Manager) : ManagerAction → Bool
  | .pollReset => m.phase = .selecting .reset true
  | .pollTransport (some (some (.ok message))) => message.data = []
  | .write _ => m.channel.toClient.closed
  | _ => false

def sessionOf : RunnerPhase → Option Nat
  | .connecting first => some first.channel
  | .serving conn _ => some conn.channel
  | _ => none

/-- The runner is in a session of the channel, or will be. -/
def Proxy.sessionAlive (s : Proxy) (c : Nat) : Bool :=
  s.up.any (fun message => message.data ≠ [] ∧ message.channel = c) ∨
    sessionOf s.runner.phase = some c

/-- The manager leaves a channel silently only when no session of it is alive,
and the runner does not begin a session with data of a channel whose session it
has ended itself. -/
def KeepsSessions (s : Proxy) : ProxyAction → Prop
  | .manager a => quits s.manager a = true → s.sessionAlive s.manager.current = false
  | .runner (.receive (some (.ok message))) =>
      s.runner.phase = .waiting → message.data ≠ [] → s.runner.abandoned ≠ some message.channel
  | .runner _ => True

instance (s : Proxy) (a : ProxyAction) : Decidable (KeepsSessions s a) := by
  unfold KeepsSessions
  split <;> infer_instance

/-! ### Positions in the stream of messages -/

abbrev Position := Option (Nat × List Message)

def position (c : Nat) (sent : List Message) : Position :=
  if sent = [] then none else some (c, sent)

/-- One message moves its reader on. `Fits` says which messages a session of a
channel may have received. -/
inductive Advance (Fits : Nat → List Message → Prop) : Position → Message → Position → Prop
  | eof (p : Position) (message : Message) (hdata : message.data = []) :
      Advance Fits p message none
  | first (message : Message) (hdata : message.data ≠ [])
      (hfits : Fits message.channel [message]) :
      Advance Fits none message (some (message.channel, [message]))
  | more (received : List Message) (message : Message) (hdata : message.data ≠ [])
      (hfits : Fits message.channel (received ++ [message])) :
      Advance Fits (some (message.channel, received)) message
        (some (message.channel, received ++ [message]))

inductive Follows (Fits : Nat → List Message → Prop) : Position → List Message → Position → Prop
  | nil (p : Position) : Follows Fits p [] p
  | cons {p p' q : Position} {message : Message} {rest : List Message}
      (head : Advance Fits p message p') (tail : Follows Fits p' rest q) :
      Follows Fits p (message :: rest) q

variable {Fits Fits' : Nat → List Message → Prop}

theorem Advance.mono {p q : Position} {message : Message} (h : Advance Fits p message q)
    (hfits : ∀ c b, Fits c b → Fits' c b) : Advance Fits' p message q := by
  cases h with
  | eof p message hdata => exact .eof p message hdata
  | first message hdata hfirst => exact .first message hdata (hfits _ _ hfirst)
  | more received message hdata hmore => exact .more received message hdata (hfits _ _ hmore)

theorem Follows.mono {p q : Position} {messages : List Message} (h : Follows Fits p messages q)
    (hfits : ∀ c b, Fits c b → Fits' c b) : Follows Fits' p messages q := by
  induction h with
  | nil p => exact .nil p
  | cons head tail ih => exact .cons (head.mono hfits) ih

theorem Follows.snoc {p q r : Position} {messages : List Message} {message : Message}
    (h : Follows Fits p messages q) (hlast : Advance Fits q message r) :
    Follows Fits p (messages ++ [message]) r := by
  induction h with
  | nil p => exact .cons hlast (.nil r)
  | cons head tail ih => exact .cons head (ih hlast)

theorem advance_data {c : Nat} {sent : List Message} {data : Bytes} (hdata : data ≠ [])
    (hfits : Fits c (sent ++ [⟨c, data⟩])) :
    Advance Fits (position c sent) ⟨c, data⟩ (position c (sent ++ [⟨c, data⟩])) := by
  have hnext : position c (sent ++ [⟨c, data⟩]) = some (c, sent ++ [⟨c, data⟩]) := by
    simp [position]
  by_cases hsent : sent = []
  · subst hsent
    rw [hnext]
    exact .first ⟨c, data⟩ hdata hfits
  · have hpos : position c sent = some (c, sent) := by simp [position, hsent]
    rw [hpos, hnext]
    exact .more sent ⟨c, data⟩ hdata hfits

/-- A reader can be within a session at the end of the messages only if it was
there before them or one of them belongs to the session. -/
theorem Follows.last {p q : Position} {messages received : List Message} {c : Nat}
    (h : Follows Fits p messages q) (hq : q = some (c, received))
    (hnone : ∀ message ∈ messages, message.data ≠ [] → message.channel ≠ c) :
    messages = [] ∧ p = some (c, received) := by
  induction h with
  | nil p => exact ⟨rfl, hq⟩
  | @cons p p' q message rest head tail ih =>
      obtain ⟨_, hp⟩ := ih hq (fun m hm => hnone m (List.mem_cons_of_mem _ hm))
      have hchannel := hnone message List.mem_cons_self
      cases head with
      | eof p message hdata => cases hp
      | first message hdata hfits =>
          simp only [Option.some.injEq, Prod.mk.injEq] at hp
          exact absurd hp.1 (hchannel hdata)
      | more before message hdata hfits =>
          simp only [Option.some.injEq, Prod.mk.injEq] at hp
          exact absurd hp.1 (hchannel hdata)

/-! ### Where the two loops are -/

/-- A manager that serves a channel is within its session as soon as it has sent
data for it. -/
def ManagerAt (m : Manager) (upLog : List Message) (q : Position) : Prop :=
  match unsent m.phase with
  | none => q = none
  | some data =>
      m.channel.fromClient.seen = payload (sentOn m.current upLog) ++ data ∧
        q = position m.current (sentOn m.current upLog)

theorem ManagerAt.same {m next : Manager} {upLog : List Message} {q : Position}
    (h : ManagerAt m upLog q) (hunsent : unsent next.phase = unsent m.phase)
    (hcurrent : next.current = m.current)
    (hseen : (next.channels m.current).fromClient.seen =
      (m.channels m.current).fromClient.seen) : ManagerAt next upLog q := by
  unfold ManagerAt at *
  rw [hunsent]
  simpa only [Manager.channel, hcurrent, hseen] using h

/-- A runner without a session may still be within the session, as far as the
link is concerned, that it has ended itself. -/
def RunnerAt (Fits : Nat → List Message → Prop) (r : Runner) (p : Position) : Prop :=
  match r.phase with
  | .connecting first =>
      p = some (first.channel, [first]) ∧ Fits first.channel [first]
  | .serving conn op =>
      p = some (conn.channel, conn.taken) ∧ Fits conn.channel conn.taken ∧
        conn.written ++ unwritten op = payload conn.taken
  | _ => ∀ c received, p = some (c, received) → r.abandoned = some c

def Proxy.fits (s : Proxy) (c : Nat) (received : List Message) : Prop :=
  c < s.manager.opened ∧ received <+: sentOn c s.upLog

/-- A connection that was opened at the beginning of its channel's stream. -/
def Proxy.holds (s : Proxy) (conn : Connection) : Prop :=
  s.fits conn.channel conn.taken ∧ conn.written <+: payload conn.taken

structure UpstreamInv (s : Proxy) : Prop where
  ordered : s.manager.Ordered
  logged : ∀ message ∈ s.upLog, message.channel < s.manager.accepted
  sent : ∀ c, payload (sentOn c s.upLog) <+: (s.manager.channels c).fromClient.written
  past : ∀ conn ∈ s.runner.past, s.holds conn
  joined : ∃ p q, RunnerAt s.fits s.runner p ∧ Follows s.fits p s.up q ∧
    ManagerAt s.manager s.upLog q

theorem UpstreamInv.initial : UpstreamInv Proxy.new where
  ordered := .initial
  logged := by simp [Proxy.new]
  sent := fun c => List.nil_prefix
  past := by simp [Proxy.new, Runner.new]
  joined := by
    refine ⟨none, none, ?_, .nil none, rfl⟩
    intro c received h
    cases h

theorem RunnerAt.mono {r : Runner} {p : Position} (h : RunnerAt Fits r p)
    (hfits : ∀ c b, Fits c b → Fits' c b) : RunnerAt Fits' r p := by
  unfold RunnerAt at *
  cases hphase : r.phase with
  | connecting first =>
      simp only [hphase] at h ⊢
      exact ⟨h.1, hfits _ _ h.2⟩
  | serving conn op =>
      simp only [hphase] at h ⊢
      exact ⟨h.1, hfits _ _ h.2.1, h.2.2⟩
  | _ => simpa only [hphase] using h

/-- No data has been sent for a channel that has not been accepted. -/
theorem UpstreamInv.unsent_channel {s : Proxy} (h : UpstreamInv s) :
    sentOn s.manager.accepted s.upLog = [] := by
  simp only [sentOn, List.filter_eq_nil_iff, decide_eq_true_eq, not_and]
  intro message hmem hchannel
  exact absurd hchannel (Nat.ne_of_lt (h.logged message hmem))

/-! ### The manager moves -/

theorem fits_move {s : Proxy} {a : ManagerAction} {manager : Manager}
    (hmove : ManagerMove s.manager a manager) (up down sent : List Message) (c : Nat)
    (received : List Message) (h : s.fits c received) :
    Proxy.fits ⟨manager, s.runner, up, down, s.upLog ++ sent⟩ c received := by
  refine ⟨Nat.lt_of_lt_of_le h.1 hmove.opened, h.2.trans ?_⟩
  rw [sentOn_append]
  exact List.prefix_append _ _

/-- The manager moves to `manager` and appends `sent` to the link; it is enough
to say what has then been sent, and where the manager is. -/
theorem UpstreamInv.manager {s : Proxy} {a : ManagerAction} {manager : Manager}
    (h : UpstreamInv s) (hmove : ManagerMove s.manager a manager) (down sent : List Message)
    (hlogged : ∀ message ∈ sent, message.channel < manager.accepted)
    (hsent : ∀ c, payload (sentOn c (s.upLog ++ sent)) <+: (manager.channels c).fromClient.written)
    (hat : ∀ p q, RunnerAt s.fits s.runner p → Follows s.fits p s.up q →
      ManagerAt s.manager s.upLog q →
        let now : Proxy := ⟨manager, s.runner, s.up ++ sent, down, s.upLog ++ sent⟩
        ∃ p' q', RunnerAt s.fits s.runner p' ∧ Follows now.fits p' now.up q' ∧
          ManagerAt manager now.upLog q') :
    UpstreamInv ⟨manager, s.runner, s.up ++ sent, down, s.upLog ++ sent⟩ := by
  have hfits := fits_move hmove (s.up ++ sent) down sent
  obtain ⟨p, q, hrunner, hfollows, hmanager⟩ := h.joined
  obtain ⟨p', q', hrunner', hfollows', hmanager'⟩ := hat p q hrunner hfollows hmanager
  constructor
  · exact h.ordered.move hmove
  · intro message hmem
    rcases List.mem_append.mp hmem with hold | hnew
    · exact Nat.lt_of_lt_of_le (h.logged message hold) hmove.accepted_le
    · exact hlogged message hnew
  · exact hsent
  · intro conn hconn
    obtain ⟨hconn, hwritten⟩ := h.past conn hconn
    exact ⟨hfits _ _ hconn, hwritten⟩
  · exact ⟨p', q', hrunner'.mono hfits, hfollows', hmanager'⟩

/-- A move that sends nothing. -/
theorem UpstreamInv.managerSilent {s : Proxy} {a : ManagerAction} {manager : Manager}
    (h : UpstreamInv s) (hmove : ManagerMove s.manager a manager) (down : List Message)
    (hat : ∀ p q, RunnerAt s.fits s.runner p → Follows s.fits p s.up q →
      ManagerAt s.manager s.upLog q → ∃ p' q', RunnerAt s.fits s.runner p' ∧
        Follows s.fits p' s.up q' ∧ ManagerAt manager s.upLog q') :
    UpstreamInv {s with manager, down} := by
  have hsilent := h.manager hmove down [] (by simp) ?_ ?_
  · simpa using hsilent
  · intro c
    rw [List.append_nil]
    exact (h.sent c).trans (hmove.written c)
  · intro p q hrunner hfollows hmanager
    obtain ⟨p', q', hrunner', hfollows', hmanager'⟩ := hat p q hrunner hfollows hmanager
    refine ⟨p', q', hrunner', ?_, ?_⟩
    · rw [List.append_nil]
      exact hfollows'.mono (fits_move hmove s.up down [])
    · simpa only [List.append_nil] using hmanager'

/-- A move after which the manager is where it was. -/
theorem UpstreamInv.managerStays {s : Proxy} {a : ManagerAction} {manager : Manager}
    (h : UpstreamInv s) (hmove : ManagerMove s.manager a manager) (down : List Message)
    (hat : ∀ q, ManagerAt s.manager s.upLog q → ManagerAt manager s.upLog q) :
    UpstreamInv {s with manager, down} :=
  h.managerSilent hmove down fun p q hrunner hfollows hmanager =>
    ⟨p, q, hrunner, hfollows, hat q hmanager⟩

/-- The manager leaves its channel without a word. No session of the channel is
alive, so the runner is between two sessions too, or has ended this one. -/
theorem UpstreamInv.managerQuits {s : Proxy} {a : ManagerAction} {manager : Manager}
    (h : UpstreamInv s) (hmove : ManagerMove s.manager a manager) (down : List Message)
    (hunsent : unsent s.manager.phase = some []) (hphase : manager.phase = .waiting)
    (hdead : s.sessionAlive s.manager.current = false) :
    UpstreamInv {s with manager, down} := by
  have hleft : ManagerAt manager s.upLog none := by simp [ManagerAt, hphase, unsent]
  simp only [Proxy.sessionAlive, decide_eq_false_iff_not, not_or, List.any_eq_true, not_exists,
    not_and, decide_eq_true_eq] at hdead
  obtain ⟨hup, hsession⟩ := hdead
  apply h.managerSilent hmove down
  intro p q hrunner hfollows hmanager
  simp only [ManagerAt, hunsent] at hmanager
  obtain ⟨_, rfl⟩ := hmanager
  by_cases hsent : sentOn s.manager.current s.upLog = []
  · refine ⟨p, none, hrunner, ?_, hleft⟩
    simpa [position, hsent] using hfollows
  · simp only [position, if_neg hsent] at hfollows
    have hnone : ∀ message ∈ s.up, message.data ≠ [] → message.channel ≠ s.manager.current :=
      fun message hmem hdata hchannel => hup message hmem hdata hchannel
    obtain ⟨hempty, rfl⟩ := hfollows.last rfl hnone
    refine ⟨none, none, ?_, ?_, hleft⟩
    · unfold RunnerAt at hrunner ⊢
      cases hphase : s.runner.phase with
      | connecting first =>
          simp only [hphase, Option.some.injEq, Prod.mk.injEq] at hrunner
          simp [hphase, sessionOf, hrunner.1.1] at hsession
      | serving conn op =>
          simp only [hphase, Option.some.injEq, Prod.mk.injEq] at hrunner
          simp [hphase, sessionOf, hrunner.1.1] at hsession
      | _ => simp
    · rw [hempty]
      exact .nil none

theorem UpstreamInv.offline {s : Proxy} {a : ManagerAction} {manager : Manager}
    (h : UpstreamInv s) (hoffline : Offline a) (hcond : KeepsSessions s (.manager a))
    (hmove : ManagerMove s.manager a manager) : UpstreamInv {s with manager} := by
  have hwhole := hmove
  cases hmove with
  | call | closeProvider => exact h.managerStays hwhole s.down (fun q hq => hq)
  | client c a ch hopened hclient =>
      refine h.managerStays hwhole s.down (fun q hq => hq.same rfl rfl ?_)
      rw [setChannel_apply]
      split
      · next hsame =>
        subst hsame
        exact (client_fromClient hclient).1
      · rfl
  | notify =>
      refine h.managerStays hwhole s.down (fun q hq => hq.same ?_ rfl rfl)
      unfold Manager.notifyWaiters
      cases s.manager.phase <;> rfl
  | accept hphase hqueued =>
      refine h.managerStays hwhole s.down ?_
      intro q hq
      simp only [ManagerAt, hphase, unsent] at hq
      simp only [ManagerAt, unsent, h.unsent_channel]
      refine ⟨?_, ?_⟩
      · exact h.ordered.unread _ (Nat.le_refl _)
      · simpa [position] using hq
  | stop hphase | start hphase | resetPending hphase | channelPending n notified hphase
  | transportPending notified hphase =>
      refine h.managerStays hwhole s.down (fun q hq => hq.same ?_ rfl rfl)
      rw [hphase]
      rfl
  | restart hphase =>
      apply h.managerQuits hwhole s.down (by rw [hphase]; rfl) rfl
      exact hcond (by simp [quits, hphase])
  | channelRead n notified data pipe hphase hread =>
      refine h.managerStays hwhole s.down ?_
      intro q hq
      simp only [ManagerAt, hphase, unsent, List.append_nil] at hq
      obtain ⟨hseen, rfl⟩ := hq
      refine ⟨?_, rfl⟩
      change ((s.manager.took pipe).channels s.manager.current).fromClient.seen =
        payload (sentOn s.manager.current s.upLog) ++ data
      rw [took_apply, if_pos rfl, ← hseen]
      rcases Pipe.read_cases hread with ⟨rfl, rfl, _, _⟩ | ⟨_, _, hmore⟩
      · simp
      · exact hmore
  | writeFail n session rest hphase hclosed =>
      apply h.managerQuits hwhole s.down (by rw [hphase]; rfl) rfl
      exact hcond (by simp [quits, hclosed])
  | wrote n session rest hphase hclosed =>
      refine h.managerStays hwhole s.down (fun q hq => hq.same ?_ ?_ (by simp))
      · rw [hphase]
        unfold Manager.writeAll
        split <;> rfl
      · unfold Manager.writeAll
        split <;> rfl
  | transportLost | eofMarker | message => cases hoffline
  | discard => cases hoffline
  | sendFailed | sentEof | sentData => cases hoffline

theorem UpstreamInv.takes {s : Proxy} {message : Message} {manager : Manager}
    (h : UpstreamInv s) (down : List Message)
    (hcond : KeepsSessions s (.manager (.pollTransport (some (some (.ok message))))))
    (hmove : ManagerMove s.manager (.pollTransport (some (some (.ok message)))) manager) :
    UpstreamInv {s with manager, down} := by
  have hwhole := hmove
  cases hmove with
  | transportLost notified item hphase hitem => exact absurd rfl (hitem message)
  | eofMarker notified message hphase hdata =>
      apply h.managerQuits hwhole down (by rw [hphase]; rfl) rfl
      exact hcond (by simp [quits, hdata])
  | message notified message hphase hdata =>
      refine h.managerStays hwhole down (fun q hq => hq.same ?_ rfl rfl)
      rw [hphase]
      rfl

/-- A completed send: data continues the session, no data ends it. -/
theorem UpstreamInv.sends {s : Proxy} {data : Bytes} {manager : Manager}
    (h : UpstreamInv s) (hsending : s.manager.phase = .sending data)
    (hmove : ManagerMove s.manager (.sent true) manager) :
    UpstreamInv
      {s with manager, up := s.up ++ [⟨s.manager.current, data⟩]
              upLog := s.upLog ++ [⟨s.manager.current, data⟩]} := by
  have hlt : s.manager.current < s.manager.accepted :=
    h.ordered.current_lt (by rw [hsending]; rfl)
  obtain ⟨_, _, _, _, hmanager⟩ := h.joined
  simp only [ManagerAt, hsending, unsent] at hmanager
  obtain ⟨hseen, _⟩ := hmanager
  apply h.manager hmove s.down
  · simpa using Nat.lt_of_lt_of_le hlt hmove.accepted_le
  · intro c
    refine List.IsPrefix.trans ?_ (hmove.written c)
    by_cases hc : c = s.manager.current
    · subst hc
      by_cases hdata : data = []
      · rw [sentOn_append, hdata, sentOn_eof, List.append_nil]
        exact h.sent _
      · rw [sentOn_append, sentOn_data hdata, payload_append, payload_cons, payload_nil,
          List.append_nil, ← hseen]
        exact Pipe.seen_prefix _
    · rw [sentOn_append, sentOn_other hc, List.append_nil]
      exact h.sent c
  · intro p q hrunner hfollows hmanager now
    have hfollows' : Follows now.fits p s.up q :=
      hfollows.mono (fits_move hmove now.up s.down [⟨s.manager.current, data⟩])
    simp only [ManagerAt, hsending, unsent] at hmanager
    obtain ⟨_, rfl⟩ := hmanager
    cases hmove with
    | sentEof hphase =>
        obtain rfl : data = [] := by simpa [hsending] using hphase
        refine ⟨p, none, hrunner, hfollows'.snoc (.eof _ _ rfl), ?_⟩
        simp [ManagerAt, Manager.leave, unsent]
    | sentData other hphase hdata =>
        obtain rfl : data = other := by simpa [hsending] using hphase
        have hsent : sentOn s.manager.current now.upLog =
            sentOn s.manager.current s.upLog ++ [⟨s.manager.current, data⟩] := by
          rw [sentOn_append, sentOn_data hdata]
        have hfits : now.fits s.manager.current
            (sentOn s.manager.current s.upLog ++ [⟨s.manager.current, data⟩]) :=
          ⟨Nat.lt_of_lt_of_le hlt h.ordered.accepted_le, hsent ▸ List.prefix_refl _⟩
        refine ⟨p, _, hrunner, hfollows'.snoc (advance_data hdata hfits), ?_, ?_⟩
        · change s.manager.channel.fromClient.seen =
            payload (sentOn s.manager.current now.upLog) ++ []
          simp [hsent, hseen]
        · rw [← hsent]
          rfl

/-! ### The runner moves -/

/-- The runner moves without taking a message from the link. -/
theorem UpstreamInv.runnerStays {s : Proxy} {runner : Runner} (h : UpstreamInv s)
    (down : List Message)
    (hpast : ∀ p, RunnerAt s.fits s.runner p → ∀ conn ∈ runner.past,
      conn ∈ s.runner.past ∨ s.holds conn)
    (hat : ∀ p, RunnerAt s.fits s.runner p → RunnerAt s.fits runner p) :
    UpstreamInv {s with runner, down} := by
  obtain ⟨p, q, hrunner, hfollows, hmanager⟩ := h.joined
  constructor
  · exact h.ordered
  · exact h.logged
  · exact h.sent
  · intro conn hconn
    rcases hpast p hrunner conn hconn with hold | hnew
    · exact h.past conn hold
    · exact hnew
  · exact ⟨p, q, hat p hrunner, hfollows, hmanager⟩

theorem RunnerAt.holds {r : Runner} {p : Position} {s : Proxy} (h : RunnerAt s.fits r p)
    {conn : Connection} {op : Serving} (hphase : r.phase = .serving conn op) :
    s.holds conn := by
  simp only [RunnerAt, hphase] at h
  obtain ⟨_, hfits, hbytes⟩ := h
  refine ⟨hfits, ?_⟩
  rw [← hbytes]
  exact List.prefix_append _ _

/-- The runner ends its session for a reason of its own. -/
theorem UpstreamInv.abandons {s : Proxy} (h : UpstreamInv s) (down : List Message)
    {conn : Connection} {op : Serving} (hphase : s.runner.phase = .serving conn op)
    (phase : RunnerPhase) (hidle : phase = .waiting ∨ phase = .signalling conn.channel) :
    UpstreamInv {s with runner := s.runner.abandon conn phase, down} := by
  apply h.runnerStays down
  · intro p hrunner other hother
    rcases List.mem_cons.mp hother with rfl | hold
    · exact .inr (hrunner.holds hphase)
    · exact .inl hold
  · intro p hrunner
    simp only [RunnerAt, hphase] at hrunner
    obtain ⟨rfl, _⟩ := hrunner
    rcases hidle with rfl | rfl
    · intro c received hsome
      simp only [Option.some.injEq, Prod.mk.injEq] at hsome
      simp [Runner.abandon, hsome.1]
    · intro c received hsome
      simp only [Option.some.injEq, Prod.mk.injEq] at hsome
      simp [Runner.abandon, hsome.1]

/-- The runner goes on with a session, with the same messages taken from the link. -/
theorem UpstreamInv.serves {s : Proxy} (h : UpstreamInv s) (down : List Message)
    {conn : Connection} {op : Serving} (hphase : s.runner.phase = .serving conn op)
    (conn' : Connection) (op' : Serving) (hchannel : conn'.channel = conn.channel)
    (htaken : conn'.taken = conn.taken)
    (hbytes : conn'.written ++ unwritten op' = conn.written ++ unwritten op) :
    UpstreamInv {s with runner := {s.runner with phase := .serving conn' op'}, down} := by
  apply h.runnerStays down
  · intro p _ other hother
    exact .inl hother
  · intro p hrunner
    simp only [RunnerAt, hphase] at hrunner
    simpa only [RunnerAt, hchannel, htaken, hbytes] using hrunner

theorem UpstreamInv.runner {s : Proxy} {a : RunnerAction} {runner : Runner} (h : UpstreamInv s)
    (down : List Message) (hoffline : ∀ item, a ≠ .receive item)
    (hmove : RunnerMove s.runner a runner) : UpstreamInv {s with runner, down} := by
  cases hmove with
  | ignoreEof message | first message | eof conn message | message conn message =>
      exact absurd rfl (hoffline (some (.ok message)))
  | lost item | lostServing conn item => exact absurd rfl (hoffline item)
  | connected first hphase =>
      apply h.runnerStays down
      · intro p _ other hother
        exact .inl hother
      · intro p hrunner
        simp only [RunnerAt, hphase] at hrunner
        simpa [RunnerAt] using hrunner
  | refused first hphase =>
      apply h.runnerStays down
      · intro p _ other hother
        exact .inl hother
      · intro p hrunner
        simp only [RunnerAt, hphase] at hrunner
        obtain ⟨rfl, _⟩ := hrunner
        intro c received hsome
        simp only [Option.some.injEq, Prod.mk.injEq] at hsome
        simp [hsome.1]
  | wrote n conn rest hphase =>
      apply h.serves down hphase
      · rfl
      · rfl
      · rw [unwritten_writeAll, List.append_assoc, List.take_append_drop]
        rfl
  | writeFail conn rest hphase => exact h.abandons down hphase .waiting (.inl rfl)
  | daemonEof n conn hphase => exact h.abandons down hphase .waiting (.inl rfl)
  | read n conn data pipe hphase hread hdata => exact h.serves down hphase _ _ rfl rfl rfl
  | readFail conn hphase => exact h.abandons down hphase _ (.inr rfl)
  | sentData conn data hphase => exact h.serves down hphase _ _ rfl rfl rfl
  | sendFailed conn data hphase => exact h.abandons down hphase .waiting (.inl rfl)
  | signalled channel ok hphase =>
      apply h.runnerStays down
      · intro p _ other hother
        exact .inl hother
      · intro p hrunner
        simpa only [RunnerAt, hphase] using hrunner
  | daemonWrite chunk conn op hphase => exact h.serves down hphase _ _ rfl rfl rfl
  | daemonClose conn op hphase => exact h.serves down hphase _ _ rfl rfl rfl

/-- The runner takes a message and thereby moves on. -/
theorem UpstreamInv.receives {s : Proxy} {message : Message} {rest : List Message}
    {runner : Runner} (h : UpstreamInv s) (hup : s.up = message :: rest)
    (hcond : KeepsSessions s (.runner (.receive (some (.ok message)))))
    (hmove : RunnerMove s.runner (.receive (some (.ok message))) runner) :
    UpstreamInv {s with runner, up := rest} := by
  obtain ⟨p, q, hrunner, hfollows, hmanager⟩ := h.joined
  rw [hup] at hfollows
  obtain ⟨p', head, tail⟩ : ∃ p', Advance s.fits p message p' ∧ Follows s.fits p' rest q := by
    cases hfollows with
    | cons head tail => exact ⟨_, head, tail⟩
  -- what remains is where the runner is afterwards, and the connection it may have left
  suffices hgoal : RunnerAt s.fits runner p' ∧
      ∀ conn ∈ runner.past, s.holds conn from
    ⟨h.ordered, h.logged, h.sent, hgoal.2, p', q, hgoal.1, tail, hmanager⟩
  cases hmove with
  | ignoreEof message hphase hdata =>
      cases head with
      | eof p message _ => exact ⟨by simp [RunnerAt, hphase], h.past⟩
      | first message hfull _ => exact absurd hdata hfull
      | more received message hfull _ => exact absurd hdata hfull
  | first message hphase hdata =>
      cases head with
      | eof p message hempty => exact absurd hempty hdata
      | first message _ hfits => exact ⟨⟨rfl, hfits⟩, h.past⟩
      | more received message _ hfits =>
          simp only [RunnerAt, hphase] at hrunner
          exact absurd (hrunner _ _ rfl) (hcond hphase hdata)
  | lost item hphase hitem => exact absurd rfl (hitem message)
  | eof conn message hphase hdata =>
      have hholds := hrunner.holds hphase
      refine ⟨?_, ?_⟩
      · cases head with
        | eof p message _ => simp [RunnerAt, Runner.finish]
        | first message hfull _ => exact absurd hdata hfull
        | more received message hfull _ => exact absurd hdata hfull
      · intro other hother
        rcases List.mem_cons.mp hother with rfl | hold
        · exact hholds
        · exact h.past other hold
  | message conn message hphase hdata =>
      simp only [RunnerAt, hphase, unwritten, List.append_nil] at hrunner
      cases head with
      | eof p message hempty => exact absurd hempty hdata
      | first message _ _ => cases hrunner.1
      | more received message _ hfits =>
          simp only [Option.some.injEq, Prod.mk.injEq] at hrunner
          obtain ⟨⟨hchannel, rfl⟩, _, hwritten⟩ := hrunner
          refine ⟨?_, h.past⟩
          simpa [RunnerAt, unwritten, ← hchannel, hwritten] using hfits
  | lostServing conn item hphase hitem => exact absurd rfl (hitem message)

theorem UpstreamInv.step (s : Proxy) (a : ProxyAction) (next : Proxy) (h : UpstreamInv s)
    (hcond : KeepsSessions s a) (hstep : s.step a = some next) : UpstreamInv next := by
  cases step_move hstep with
  | managerOffline a manager hoffline hmove => exact h.offline hoffline hcond hmove
  | discard first rest hphase hdown =>
      exact h.managerStays (.discard hphase) rest (fun q hq => hq)
  | managerTakes message rest manager hdown hmove => exact h.takes rest hcond hmove
  | managerSends data manager hphase hmove => exact h.sends hphase hmove
  | runnerOffline a runner hoffline hmove =>
      apply h.runner s.down _ hmove
      rintro item rfl
      cases hoffline
  | runnerTakes message rest runner hup hmove => exact h.receives hup hcond hmove
  | runnerSends message runner hmessage hmove =>
      exact h.runner _ (fun item => by simp) hmove

theorem UpstreamInv.connections {s : Proxy} (h : UpstreamInv s) :
    ∀ conn ∈ s.runner.connections, s.holds conn := by
  obtain ⟨p, q, hrunner, _, _⟩ := h.joined
  intro conn hconn
  rcases List.mem_append.mp hconn with hcurrent | hpast
  · cases hphase : s.runner.phase with
    | serving other op =>
        obtain rfl : conn = other := by
          simpa [hphase, RunnerPhase.connection] using hcurrent
        exact hrunner.holds hphase
    | _ => simp [hphase, RunnerPhase.connection] at hcurrent
  · exact h.past conn hpast

/-- In every run in which the manager leaves no live session silently and the
runner begins no session in the middle, what reaches a daemon connection are the
first messages of one management channel, and so an initial part of its stream. -/
theorem upstream_integrity (actions : List ProxyAction) (s : Proxy)
    (hmeets : Meets Proxy.step KeepsSessions Proxy.new actions)
    (hrun : run Proxy.step Proxy.new actions = some s) : UpstreamIntegrity s := by
  have hinv : UpstreamInv s := run_preserves_of_meets UpstreamInv.step actions .initial hmeets hrun
  intro conn hconn
  obtain ⟨⟨hopened, htaken⟩, hwritten⟩ := hinv.connections conn hconn
  have hsent := hinv.sent conn.channel
  exact ⟨hopened, htaken, hwritten, hsent, (hwritten.trans (payload_mono htaken)).trans hsent⟩

theorem two_clients_keep_apart :
    ∃ s, run Proxy.step Proxy.new
        (clientWrites 0 1 ++ runnerConnects 0 1 ++ clientCloses 0 ++ clientWrites 1 2 ++
          runnerConnects 1 2) = some s ∧
      s.runner.connections.map Connection.written = [[2], [1]] ∧ UpstreamIntegrity s := by
  have hwritten : (run Proxy.step Proxy.new
      (clientWrites 0 1 ++ runnerConnects 0 1 ++ clientCloses 0 ++ clientWrites 1 2 ++
        runnerConnects 1 2)).map (fun s => s.runner.connections.map Connection.written) =
          some [[2], [1]] := by decide
  obtain ⟨s, hrun, hs⟩ := Option.map_eq_some_iff.mp hwritten
  exact ⟨s, hrun, hs, upstream_integrity _ s (by decide) hrun⟩

/-- The daemon answers and the client is dropped before the answer has arrived:
the write fails and the loop leaves without an EOF marker. -/
def clientDropped : List ProxyAction :=
  [.runner (.daemonWrite [9]), .runner (.read 1), .runner (.sent true),
    .manager (.client 0 .drop), .manager .pollReset,
    .manager (.pollTransport (some (some (.ok ⟨0, [9]⟩)))), .manager (.write 1)]

/-- The bytes of the next client then reach the connection of the first one,
which so holds an initial part of no client's stream. -/
theorem dropped_client_mixes_sessions :
    ∃ s, run Proxy.step Proxy.new
        (clientWrites 0 1 ++ runnerConnects 0 1 ++ clientDropped ++ clientWrites 1 2 ++
          [.runner (.receive (some (.ok ⟨1, [2]⟩))), .runner (.write 1)]) = some s ∧
      s.runner.connections.map Connection.written = [[1, 2]] ∧
      (∀ c < s.manager.opened, ¬ [1, 2] <+: (s.manager.channels c).fromClient.written) ∧
      ¬ UpstreamIntegrity s := by
  have hwritten : (run Proxy.step Proxy.new
      (clientWrites 0 1 ++ runnerConnects 0 1 ++ clientDropped ++ clientWrites 1 2 ++
        [.runner (.receive (some (.ok ⟨1, [2]⟩))), .runner (.write 1)])).map
          (fun s => (s.runner.connections.map Connection.written,
            decide (∀ c < s.manager.opened,
              ¬ [1, 2] <+: (s.manager.channels c).fromClient.written),
            decide (UpstreamIntegrity s))) =
        some ([[1, 2]], true, false) := by decide
  obtain ⟨s, hrun, hs⟩ := Option.map_eq_some_iff.mp hwritten
  simp only [Prod.mk.injEq, decide_eq_true_eq, decide_eq_false_iff_not] at hs
  exact ⟨s, hrun, hs.1, hs.2.1, hs.2.2⟩

end MullvadAppTests.DaemonProxy
