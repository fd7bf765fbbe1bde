import MullvadAppTests.Lib.Transition

/-!
`wait_for_tunnel_state` and `find_next_tunnel_state` of
`test-manager/src/tests/helpers.rs`, in parallel with the daemon. The daemon may
change its state at any time; from `events_listen` on it reports each change in the
event stream, mixed with other events. The helper asks for the current state once,
after it has subscribed, and then reads the stream. `timeout` polls the stream
first, so it only elapses when nothing is there to be read.
-/

namespace MullvadAppTests.TestManager.WaitForTunnelState

open Lib.Transition

/-- The messages of the management interface for the states of the daemon: the
client gets back the state for which the daemon has sent a message. -/
structure Conversion (σ μ : Type) where
  encode : σ → μ
  tryFrom : μ → Except String σ
  tryFrom_encode : ∀ state, tryFrom (encode state) = .ok state

inductive Error where
  | eventStream (status : String)
  | getTunnelState (error : String)
  | invalidTunnelState (error : String)
  | timedOut
  | nextEvent (status : String)
  | lostEventStream
  deriving DecidableEq, Repr

/-- The text of the `Error::DaemonError`. -/
def Error.text : Error → String
  | .eventStream status => "Failed to get event stream: " ++ status
  | .getTunnelState error => "Failed to get tunnel state: " ++ error
  | .invalidTunnelState error => "Invalid tunnel state: " ++ error
  | .timedOut => "Tunnel event listener timed out"
  | .nextEvent status => "Failed to get next event: " ++ status
  | .lostEventStream => "Lost daemon event stream"

inductive Event (μ : Type) where
  | tunnelState (newState : μ)
  | other
  deriving DecidableEq, Repr

/-- `types::DaemonEvent`. -/
structure DaemonEvent (μ : Type) where
  event : Option (Event μ)
  deriving DecidableEq, Repr

/-- What the stream gives after its last event. -/
inductive Closed where
  | ended
  | failed (status : String)
  deriving DecidableEq, Repr

/-- Where the helper stands: before `events_listen`, before `get_tunnel_state`, with
the reply to it, in `find_next_tunnel_state`, and after its end. -/
inductive Phase (σ μ : Type) where
  | start
  | subscribed
  | answered (state : μ)
  | waiting
  | returned (result : Except Error σ)
  | panicked

/-- The state request has been served, and the helper has not returned. -/
def Phase.queried {σ μ : Type} : Phase σ μ → Bool
  | .answered _ => true
  | .waiting => true
  | _ => false

def Phase.listening {σ μ : Type} : Phase σ μ → Bool
  | .subscribed => true
  | phase => phase.queried

/-- `events` have been sent and not read. Two histories: `seen`, the states of the
daemon since `events_listen` was served, and `offered`, those since
`get_tunnel_state` was served, as long as the stream is open and the helper has not
returned. -/
structure Wait (σ μ : Type) where
  daemon : σ
  events : List (DaemonEvent μ)
  closed : Option Closed
  phase : Phase σ μ
  seen : List σ
  offered : List σ

inductive Action (σ : Type) where
  | enter (state : σ)
  | otherEvent
  | close (closed : Closed)
  | eventsListen (reply : Except String Unit)
  | getTunnelState (reply : Except String Unit)
  | resume
  | elapse

variable {σ μ : Type}

def Wait.start (daemon : σ) : Wait σ μ := ⟨daemon, [], none, .start, [], []⟩

def report (conversion : Conversion σ μ) (state : σ) : DaemonEvent μ :=
  ⟨some (.tunnelState (conversion.encode state))⟩

/-- The daemon sends an event to a subscriber. -/
def Wait.send (s : Wait σ μ) (event : DaemonEvent μ) : Wait σ μ :=
  if s.phase.listening = true ∧ s.closed = none then {s with events := s.events ++ [event]} else s

/-- The daemon enters a state. -/
def Wait.enter (conversion : Conversion σ μ) (s : Wait σ μ) (state : σ) : Wait σ μ :=
  {s.send (report conversion state) with
    daemon := state
    seen := if s.phase.listening = true then s.seen ++ [state] else s.seen
    offered :=
      if s.phase.queried = true ∧ s.closed = none then s.offered ++ [state] else s.offered}

section

variable (conversion : Conversion σ μ) (accept : σ → Bool)

/-- A state that was queried or reported: the helper returns or goes on. -/
def check (message : μ) : Phase σ μ :=
  match conversion.tryFrom message with
  | .error e => .returned (.error (.invalidTunnelState e))
  | .ok state => if accept state then .returned (.ok state) else .waiting

/-- One round of the loop of `find_next_tunnel_state_inner`. -/
def handle (event : DaemonEvent μ) : Phase σ μ :=
  match event.event with
  | none => .panicked
  | some (.tunnelState newState) => check conversion accept newState
  | some .other => .waiting

def lost : Closed → Error
  | .failed status => .nextEvent status
  | .ended => .lostEventStream

def step (s : Wait σ μ) (a : Action σ) : Option (Wait σ μ) :=
  match a, s.phase with
  | .enter state, _ => some (s.enter conversion state)
  | .otherEvent, _ => some (s.send ⟨some .other⟩)
  | .close closed, phase =>
      if phase.listening = true ∧ s.closed = none then some {s with closed := some closed} else none
  | .eventsListen (.ok _), .start => some {s with phase := .subscribed, seen := [s.daemon]}
  | .eventsListen (.error status), .start =>
      some {s with phase := .returned (.error (.eventStream status))}
  | .getTunnelState (.ok _), .subscribed =>
      some {s with
        phase := .answered (conversion.encode s.daemon)
        offered := [s.daemon]}
  | .getTunnelState (.error status), .subscribed =>
      some {s with phase := .returned (.error (.getTunnelState status))}
  | .resume, .answered state => some {s with phase := check conversion accept state}
  | .resume, .waiting =>
      match s.events, s.closed with
      | event :: events, _ => some {s with events, phase := handle conversion accept event}
      | [], some closed => some {s with phase := .returned (.error (lost closed))}
      | [], none => none
  | .elapse, .waiting =>
      if s.events = [] ∧ s.closed = none then
        some {s with phase := .returned (.error .timedOut)}
      else none
  | _, _ => none

/-! ### What a step does -/

/-- Everything that can happen, with the guards under which it does. -/
inductive Steps (s : Wait σ μ) : Action σ → Wait σ μ → Prop where
  | enter (state : σ) : Steps s (.enter state) (s.enter conversion state)
  | otherEvent : Steps s .otherEvent (s.send ⟨some .other⟩)
  | close (closed : Closed) (hopen : s.phase.listening = true ∧ s.closed = none) :
      Steps s (.close closed) {s with closed := some closed}
  | subscribe (hphase : s.phase = .start) :
      Steps s (.eventsListen (.ok ())) {s with phase := .subscribed, seen := [s.daemon]}
  | query (hphase : s.phase = .subscribed) :
      Steps s (.getTunnelState (.ok ()))
        {s with phase := .answered (conversion.encode s.daemon), offered := [s.daemon]}
  | refuse (status : String) (hphase : s.phase = .start) :
      Steps s (.eventsListen (.error status))
        {s with phase := .returned (.error (.eventStream status))}
  | fail (status : String) (hphase : s.phase = .subscribed) :
      Steps s (.getTunnelState (.error status))
        {s with phase := .returned (.error (.getTunnelState status))}
  | answer (state : μ) (hphase : s.phase = .answered state) :
      Steps s .resume {s with phase := check conversion accept state}
  | next (event : DaemonEvent μ) (events : List (DaemonEvent μ)) (hphase : s.phase = .waiting)
      (hevents : s.events = event :: events) :
      Steps s .resume {s with events, phase := handle conversion accept event}
  | lose (closed : Closed) (hphase : s.phase = .waiting) (hevents : s.events = [])
      (hclosed : s.closed = some closed) :
      Steps s .resume {s with phase := .returned (.error (lost closed))}
  | elapse (hphase : s.phase = .waiting) (hevents : s.events = []) (hclosed : s.closed = none) :
      Steps s .elapse {s with phase := .returned (.error .timedOut)}

variable {conversion accept}

theorem steps_of_step {s next : Wait σ μ} {a : Action σ}
    (h : step conversion accept s a = some next) : Steps conversion accept s a next := by
  unfold step at h
  split at h
  · cases h
    exact .enter _
  · cases h
    exact .otherEvent
  · split at h
    · next hopen =>
      cases h
      exact .close _ hopen
    · cases h
  · next hphase =>
    cases h
    exact .subscribe hphase
  · next hphase =>
    cases h
    exact .refuse _ hphase
  · next hphase =>
    cases h
    exact .query hphase
  · next hphase =>
    cases h
    exact .fail _ hphase
  · next hphase =>
    cases h
    exact .answer _ hphase
  · next hphase =>
    split at h
    · next hevents =>
      cases h
      exact .next _ _ hphase hevents
    · next hevents hclosed =>
      cases h
      exact .lose _ hphase hevents hclosed
    · cases h
  · next hphase =>
    split at h
    · next hguard =>
      cases h
      exact .elapse hphase hguard.1 hguard.2
    · cases h
  · cases h

/-! ### The state that is returned -/

/-- All states that the helper has been shown, and may still return, satisfy `Q`. -/
structure Shown (conversion : Conversion σ μ) (accept : σ → Bool) (Q : σ → Prop)
    (s : Wait σ μ) : Prop where
  events : ∀ event ∈ s.events,
    event = ⟨some .other⟩ ∨ ∃ state, Q state ∧ event = report conversion state
  answered : ∀ message, s.phase = .answered message →
    ∃ state, Q state ∧ message = conversion.encode state
  returned : ∀ state, s.phase = .returned (.ok state) → accept state = true ∧ Q state
  not_panicked : s.phase ≠ .panicked

theorem Shown.mono {Q Q' : σ → Prop} {s : Wait σ μ} (h : Shown conversion accept Q s)
    (hmono : ∀ state, Q state → Q' state) : Shown conversion accept Q' s where
  events := by
    intro event hevent
    obtain hother | ⟨state, hstate, hreport⟩ := h.events event hevent
    · exact .inl hother
    · exact .inr ⟨state, hmono state hstate, hreport⟩
  answered := by
    intro message hphase
    obtain ⟨state, hstate, hmessage⟩ := h.answered message hphase
    exact ⟨state, hmono state hstate, hmessage⟩
  returned := by
    intro state hphase
    obtain ⟨haccept, hstate⟩ := h.returned state hphase
    exact ⟨haccept, hmono state hstate⟩
  not_panicked := h.not_panicked

theorem check_encode (state : σ) :
    check conversion accept (conversion.encode state) =
      if accept state then .returned (.ok state) else .waiting := by
  rw [check, conversion.tryFrom_encode]

/-- Only the events and the phase matter. -/
theorem Shown.of_phase {Q : σ → Prop} {s next : Wait σ μ} (h : Shown conversion accept Q s)
    (hevents : ∀ event ∈ next.events, event ∈ s.events ∨ event = ⟨some .other⟩ ∨
      ∃ state, Q state ∧ event = report conversion state)
    (hphase : next.phase = s.phase) : Shown conversion accept Q next where
  events := by
    intro event hevent
    obtain hold | hnew := hevents event hevent
    · exact h.events event hold
    · exact hnew
  answered := by rw [hphase]; exact h.answered
  returned := by rw [hphase]; exact h.returned
  not_panicked := by rw [hphase]; exact h.not_panicked

theorem mem_events_send {s : Wait σ μ} {event new : DaemonEvent μ}
    (h : event ∈ (s.send new).events) : event ∈ s.events ∨ event = new := by
  unfold Wait.send at h
  split at h
  · simpa using h
  · exact .inl h

/-- Sending leaves everything but the events alone. -/
theorem send_eq (s : Wait σ μ) (event : DaemonEvent μ) :
    ∃ events, s.send event = {s with events} := by
  unfold Wait.send
  split
  · exact ⟨_, rfl⟩
  · exact ⟨_, rfl⟩

@[simp] theorem send_phase (s : Wait σ μ) (event : DaemonEvent μ) :
    (s.send event).phase = s.phase := by
  obtain ⟨events, hsend⟩ := send_eq s event
  rw [hsend]

@[simp] theorem send_daemon (s : Wait σ μ) (event : DaemonEvent μ) :
    (s.send event).daemon = s.daemon := by
  obtain ⟨events, hsend⟩ := send_eq s event
  rw [hsend]

@[simp] theorem send_seen (s : Wait σ μ) (event : DaemonEvent μ) :
    (s.send event).seen = s.seen := by
  obtain ⟨events, hsend⟩ := send_eq s event
  rw [hsend]

@[simp] theorem send_offered (s : Wait σ μ) (event : DaemonEvent μ) :
    (s.send event).offered = s.offered := by
  obtain ⟨events, hsend⟩ := send_eq s event
  rw [hsend]

/-- Without a subscriber nothing is sent. -/
theorem send_of_start {s : Wait σ μ} (h : s.phase = .start) (event : DaemonEvent μ) :
    s.send event = s := by
  rw [Wait.send, h, if_neg]
  rintro ⟨hlistening, _⟩
  cases hlistening

/-- What the helper is shown in a step: a state that the daemon enters, or the
one it is in when it is asked. -/
def Shows (Q : σ → Prop) (s : Wait σ μ) : Action σ → Prop
  | .enter state => s.phase.listening = true → Q state
  | .getTunnelState _ => s.phase = .subscribed → Q s.daemon
  | _ => True

theorem Shown.check {Q : σ → Prop} {s next : Wait σ μ} (h : Shown conversion accept Q s)
    {state : σ} (hstate : Q state) (hevents : ∀ event ∈ next.events, event ∈ s.events)
    (hphase : next.phase = check conversion accept (conversion.encode state)) :
    Shown conversion accept Q next := by
  rw [check_encode] at hphase
  refine ⟨fun event hevent => h.events event (hevents event hevent), ?_, ?_, ?_⟩
  · intro message hmessage
    rw [hphase] at hmessage
    split at hmessage <;> cases hmessage
  · intro returned hreturned
    rw [hphase] at hreturned
    split at hreturned
    · next haccept =>
      cases hreturned
      exact ⟨haccept, hstate⟩
    · cases hreturned
  · rw [hphase]
    split <;> simp

theorem Shown.fail {Q : σ → Prop} {s : Wait σ μ} (h : Shown conversion accept Q s)
    (error : Error) : Shown conversion accept Q {s with phase := .returned (.error error)} :=
  ⟨h.events, by simp, by simp, by simp⟩

theorem Shown.step {Q : σ → Prop} {s next : Wait σ μ} {a : Action σ}
    (h : Shown conversion accept Q s) (hshows : Shows Q s a)
    (hstep : Steps conversion accept s a next) : Shown conversion accept Q next := by
  cases hstep with
  | enter state =>
      apply h.of_phase
      · intro event hevent
        by_cases hlistening : s.phase.listening = true
        · obtain hold | hnew := mem_events_send hevent
          · exact .inl hold
          · exact .inr (.inr ⟨state, hshows hlistening, hnew⟩)
        · left
          simpa [Wait.enter, Wait.send, hlistening] using hevent
      · exact send_phase s _
  | otherEvent =>
      apply h.of_phase
      · intro event hevent
        obtain hold | hnew := mem_events_send hevent
        · exact .inl hold
        · exact .inr (.inl hnew)
      · exact send_phase s _
  | close closed hopen => exact h.of_phase (fun event hevent => .inl hevent) rfl
  | subscribe hphase => exact ⟨h.events, by simp, by simp, by simp⟩
  | query hphase =>
      refine ⟨h.events, ?_, by simp, by simp⟩
      intro message hmessage
      cases hmessage
      exact ⟨s.daemon, hshows hphase, rfl⟩
  | refuse status hphase => exact h.fail _
  | fail status hphase => exact h.fail _
  | answer message hphase =>
      obtain ⟨state, hstate, rfl⟩ := h.answered message hphase
      exact h.check hstate (fun event hevent => hevent) rfl
  | next event events hphase hevents =>
      have hmem : event ∈ s.events := by simp [hevents]
      have hrest : ∀ later ∈ events, later ∈ s.events := by
        intro later hlater
        simp [hevents, hlater]
      obtain rfl | ⟨state, hstate, rfl⟩ := h.events event hmem
      · exact ⟨fun later hlater => h.events later (hrest later hlater), by simp [handle],
          by simp [handle], by simp [handle]⟩
      · exact h.check hstate hrest rfl
  | lose closed hphase hevents hclosed => exact h.fail _
  | elapse hphase hevents hclosed => exact h.fail _

/-- The daemon's state has been seen as soon as someone listens. -/
structure Seen (conversion : Conversion σ μ) (accept : σ → Bool) (s : Wait σ μ) : Prop where
  daemon : s.phase.listening = true → s.daemon ∈ s.seen
  start : s.phase = .start → s.events = []
  shown : Shown conversion accept (· ∈ s.seen) s

theorem seen_start (daemon : σ) : Seen conversion accept (Wait.start daemon) where
  daemon := by simp [Wait.start, Phase.listening, Phase.queried]
  start := fun _ => rfl
  shown := ⟨by simp [Wait.start], by simp [Wait.start], by simp [Wait.start], by simp [Wait.start]⟩

theorem Seen.fail {s : Wait σ μ} (h : Seen conversion accept s) (error : Error) :
    Seen conversion accept {s with phase := .returned (.error error)} where
  daemon := by simp [Phase.listening, Phase.queried]
  start := by simp
  shown := h.shown.fail error

theorem Seen.step {s next : Wait σ μ} {a : Action σ} (h : Seen conversion accept s)
    (hstep : Steps conversion accept s a next) : Seen conversion accept next := by
  have hshown : ∀ {Q : σ → Prop}, (∀ state ∈ s.seen, Q state) → Shows Q s a →
      Shown conversion accept Q next :=
    fun hmono hshows => (h.shown.mono hmono).step hshows hstep
  cases hstep with
  | enter state =>
      have hseen : ∀ old ∈ s.seen, old ∈ (s.enter conversion state).seen := by
        intro old hold
        simp only [Wait.enter]
        split <;> simp [hold]
      refine ⟨?_, ?_, hshown hseen ?_⟩
      · intro hlistening
        simp only [Wait.enter, send_phase] at hlistening ⊢
        simp [hlistening]
      · intro hphase
        simp only [Wait.enter, send_phase] at hphase ⊢
        rw [send_of_start hphase]
        exact h.start hphase
      · intro hlistening
        simp [Wait.enter, hlistening]
  | otherEvent =>
      refine ⟨?_, ?_, hshown (by simp) trivial⟩
      · rw [send_phase, send_seen, send_daemon]
        exact h.daemon
      · intro hphase
        rw [send_phase] at hphase
        rw [send_of_start hphase]
        exact h.start hphase
  | close closed hopen => exact ⟨h.daemon, h.start, hshown (fun _ hold => hold) trivial⟩
  | subscribe hphase =>
      refine ⟨fun _ => List.mem_singleton_self _, by simp, ?_, by simp, by simp, by simp⟩
      simp [h.start hphase]
  | query hphase =>
      have hdaemon : s.daemon ∈ s.seen := h.daemon (by rw [hphase]; rfl)
      exact ⟨fun _ => hdaemon, by simp, hshown (fun _ hold => hold) (fun _ => hdaemon)⟩
  | refuse status hphase => exact h.fail _
  | fail status hphase => exact h.fail _
  | answer message hphase =>
      have hdaemon : s.daemon ∈ s.seen := h.daemon (by rw [hphase]; rfl)
      refine ⟨fun _ => hdaemon, ?_, hshown (fun _ hold => hold) trivial⟩
      intro hstart
      obtain ⟨state, _, rfl⟩ := h.shown.answered message hphase
      simp only [check_encode] at hstart
      split at hstart <;> cases hstart
  | next event events hphase hevents =>
      have hdaemon : s.daemon ∈ s.seen := h.daemon (by rw [hphase]; rfl)
      refine ⟨fun _ => hdaemon, ?_, hshown (fun _ hold => hold) trivial⟩
      intro hstart
      obtain rfl | ⟨state, _, rfl⟩ := h.shown.events event (by simp [hevents])
      · cases hstart
      · simp only [handle, report, check_encode] at hstart
        split at hstart <;> cases hstart
  | lose closed hphase hevents hclosed => exact h.fail _
  | elapse hphase hevents hclosed => exact h.fail _

/-! ### No state is missed -/

/-- An accepted state that was offered is in the reply, or its report is still to
be read, or the helper has returned a state. -/
def Phase.Keeps (conversion : Conversion σ μ) (accept : σ → Bool) (offered : List σ)
    (events : List (DaemonEvent μ)) : Phase σ μ → Prop
  | .start => offered = []
  | .subscribed => offered = []
  | .answered message => ∃ current later, message = conversion.encode current ∧
      offered = current :: later ∧ ∀ state ∈ later, report conversion state ∈ events
  | .waiting => ∀ state ∈ offered, accept state = true → report conversion state ∈ events
  | .returned (.ok _) => True
  | .returned (.error _) => ∀ state ∈ offered, accept state = false
  | .panicked => True

def Kept (conversion : Conversion σ μ) (accept : σ → Bool) (s : Wait σ μ) : Prop :=
  s.phase.Keeps conversion accept s.offered s.events

theorem Phase.Keeps.mono {phase : Phase σ μ} {offered : List σ}
    {events more : List (DaemonEvent μ)} (h : phase.Keeps conversion accept offered events)
    (hmore : ∀ event ∈ events, event ∈ more) : phase.Keeps conversion accept offered more := by
  cases phase with
  | start => exact h
  | subscribed => exact h
  | answered message =>
      obtain ⟨current, later, hmessage, hoffered, hlater⟩ := h
      exact ⟨current, later, hmessage, hoffered, fun state hstate => hmore _ (hlater state hstate)⟩
  | waiting => exact fun state hstate haccept => hmore _ (h state hstate haccept)
  | returned result =>
      cases result with
      | ok state => trivial
      | error e => exact h
  | panicked => trivial

/-- A state that is entered after the query is offered and reported at once. -/
theorem Phase.Keeps.offer {phase : Phase σ μ} {offered : List σ} {events : List (DaemonEvent μ)}
    (h : phase.Keeps conversion accept offered events) (hqueried : phase.queried = true)
    (state : σ) :
    phase.Keeps conversion accept (offered ++ [state]) (events ++ [report conversion state]) := by
  have hmore : phase.Keeps conversion accept offered (events ++ [report conversion state]) :=
    h.mono (fun event hevent => List.mem_append_left _ hevent)
  cases phase with
  | answered message =>
      obtain ⟨current, later, hmessage, hoffered, hlater⟩ := hmore
      refine ⟨current, later ++ [state], hmessage, by simp [hoffered], ?_⟩
      intro other hother
      obtain hold | hnew := List.mem_append.mp hother
      · exact hlater other hold
      · simp [List.mem_singleton.mp hnew]
  | waiting =>
      intro other hother haccept
      obtain hold | hnew := List.mem_append.mp hother
      · exact hmore other hold haccept
      · simp [List.mem_singleton.mp hnew]
  | start => cases hqueried
  | subscribed => cases hqueried
  | returned result => cases hqueried
  | panicked => trivial

theorem report_inj {first second : σ} (h : report conversion first = report conversion second) :
    first = second := by
  have hencode : conversion.encode first = conversion.encode second := by
    simpa [report] using h
  have htryFrom := congrArg conversion.tryFrom hencode
  simpa [conversion.tryFrom_encode] using htryFrom

theorem mem_send_events (s : Wait σ μ) (new : DaemonEvent μ) :
    ∀ event ∈ s.events, event ∈ (s.send new).events := by
  intro event hevent
  unfold Wait.send
  split <;> simp [hevent]

theorem Phase.listening_of_queried {phase : Phase σ μ} (h : phase.queried = true) :
    phase.listening = true := by
  unfold Phase.listening
  split
  · rfl
  · exact h

theorem Kept.enter {s : Wait σ μ} (h : Kept conversion accept s) (state : σ) :
    Kept conversion accept (s.enter conversion state) := by
  have hphase : (s.enter conversion state).phase = s.phase := send_phase s _
  unfold Kept
  rw [hphase]
  by_cases hopen : s.phase.queried = true ∧ s.closed = none
  · have hlistening := Phase.listening_of_queried hopen.1
    have hoffered : (s.enter conversion state).offered = s.offered ++ [state] := by
      simp [Wait.enter, hopen]
    have hevents : (s.enter conversion state).events =
        s.events ++ [report conversion state] := by
      simp [Wait.enter, Wait.send, hlistening, hopen.2]
    rw [hoffered, hevents]
    exact Phase.Keeps.offer h hopen.1 state
  · have hoffered : (s.enter conversion state).offered = s.offered := by
      simp [Wait.enter, hopen]
    rw [hoffered]
    exact Phase.Keeps.mono h (mem_send_events s _)

/-- The helper looks at a state and lets it go only if it is not accepted. -/
theorem keeps_check {offered : List σ} {events : List (DaemonEvent μ)} {state : σ}
    (h : ∀ other ∈ offered, accept other = true →
      other = state ∨ report conversion other ∈ events) :
    (check conversion accept (conversion.encode state)).Keeps conversion accept offered
      events := by
  rw [check_encode]
  split
  · trivial
  · next hnot =>
    intro other hother haccept
    obtain rfl | hreport := h other hother haccept
    · exact absurd haccept hnot
    · exact hreport

theorem keeps_fail {offered : List σ} {events : List (DaemonEvent μ)} (error : Error)
    (h : offered = []) :
    (Phase.returned (.error error)).Keeps conversion accept offered events := by
  simp [Phase.Keeps, h]

/-- When nothing is left to be read, no accepted state was offered. -/
theorem keeps_giveUp {offered : List σ} {events : List (DaemonEvent μ)} (error : Error)
    (h : Phase.waiting.Keeps conversion accept offered []) :
    (Phase.returned (.error error)).Keeps conversion accept offered events := by
  intro state hstate
  by_contra haccept
  exact absurd (h state hstate (by simpa using haccept)) (by simp)

theorem Kept.step {s next : Wait σ μ} {a : Action σ} (h : Kept conversion accept s)
    (hseen : Seen conversion accept s) (hstep : Steps conversion accept s a next) :
    Kept conversion accept next := by
  unfold Kept at h
  cases hstep with
  | enter state => exact Kept.enter h state
  | otherEvent =>
      unfold Kept
      rw [send_phase, send_offered]
      exact h.mono (mem_send_events s _)
  | close closed hopen => exact h
  | subscribe hphase => rwa [hphase] at h
  | query hphase => exact ⟨s.daemon, [], rfl, rfl, by simp⟩
  | refuse status hphase =>
      rw [hphase] at h
      exact keeps_fail _ h
  | fail status hphase =>
      rw [hphase] at h
      exact keeps_fail _ h
  | answer message hphase =>
      rw [hphase] at h
      obtain ⟨current, later, rfl, hoffered, hlater⟩ := h
      apply keeps_check
      intro other hother _
      rw [hoffered, List.mem_cons] at hother
      exact hother.imp id (hlater other)
  | next event events hphase hevents =>
      rw [hphase, hevents] at h
      obtain rfl | ⟨state, _, rfl⟩ := hseen.shown.events event (by simp [hevents])
      · intro other hother haccept
        obtain hreport | hrest := List.mem_cons.mp (h other hother haccept)
        · simp [report] at hreport
        · exact hrest
      · apply keeps_check
        intro other hother haccept
        obtain hreport | hrest := List.mem_cons.mp (h other hother haccept)
        · exact .inl (report_inj hreport)
        · exact .inr hrest
  | lose closed hphase hevents hclosed =>
      rw [hphase, hevents] at h
      exact keeps_giveUp _ h
  | elapse hphase hevents hclosed =>
      rw [hphase, hevents] at h
      exact keeps_giveUp _ h

end

/-! ### Tunnel states -/

/-- `mullvad_types::states::TunnelState`; the locations are left out. -/
inductive TunnelState where
  | disconnected
  | connecting (endpoint : String)
  | connected (endpoint : String)
  | disconnecting (actionAfterDisconnect : String)
  | error (errorState : String)
  deriving DecidableEq, Repr

def TunnelState.isConnected : TunnelState → Bool
  | .connected _ => true
  | _ => false

def TunnelState.isError : TunnelState → Bool
  | .error _ => true
  | _ => false

/-- The state of a message is a `oneof`, which may be unset. -/
def oneofConversion : Conversion TunnelState (Option TunnelState) where
  encode := some
  tryFrom
    | some state => .ok state
    | none => .error "no state"
  tryFrom_encode := fun _ => rfl

end MullvadAppTests.TestManager.WaitForTunnelState
