import MullvadAppTests.TestManager.WaitForTunnelState

/-!
`connect_and_wait` of `test-manager/src/tests/helpers.rs`. The daemon replies to
`connect_tunnel` when it has passed the request on to its tunnel state machine,
which acts on it at some time before or after the reply. The helper then waits for
`Connected` or `Error`, and cannot tell a state that the request has led to from
one that the daemon was in before.
-/

namespace MullvadAppTests.TestManager.ConnectAndWait

open Lib.Transition WaitForTunnelState

/-- The states that end the wait. -/
def acceptState : TunnelState → Bool
  | .connected _ => true
  | .error _ => true
  | _ => false

inductive ConnectError where
  | beginConnecting (error : String)
  | wait (error : WaitForTunnelState.Error)
  | enteredErrorState
  deriving DecidableEq, Repr

/-- The text of the `Error::DaemonError`. -/
def ConnectError.text : ConnectError → String
  | .beginConnecting error => "failed to begin connecting: " ++ error
  | .wait error => error.text
  | .enteredErrorState => "daemon entered error state"

/-- `acted` says whether the state machine has acted on the request, and `entered`
is the history of the states that the daemon has entered since. -/
structure Connect (μ : Type) where
  wait : Wait TunnelState μ
  reply : Option (Except String Unit)
  acted : Bool
  entered : List TunnelState

/-- Besides the request, the steps of the wait and of the daemon. -/
inductive Action where
  | act
  | connectTunnel (reply : Except String Unit)
  | wait (a : WaitForTunnelState.Action TunnelState)

variable {μ : Type}

def Connect.start (daemon : TunnelState) : Connect μ := ⟨.start daemon, none, false, []⟩

/-- The steps that `wait_for_tunnel_state` takes or asks for. -/
def ofHelper : WaitForTunnelState.Action TunnelState → Bool
  | .enter _ => false
  | .otherEvent => false
  | .close _ => false
  | _ => true

/-- The states that the daemon enters in a step. -/
def enters : Action → List TunnelState
  | .wait (.enter state) => [state]
  | _ => []

def asks : Action → Bool
  | .wait (.getTunnelState _) => true
  | _ => false

def step (conversion : Conversion TunnelState μ) (s : Connect μ) (a : Action) :
    Option (Connect μ) :=
  match a with
  | .act => if s.acted = true then none else some {s with acted := true}
  | .connectTunnel reply =>
      match s.reply with
      | none => some {s with reply := some reply}
      | some _ => none
  | .wait waitAction =>
      if ofHelper waitAction = true → s.reply = some (.ok ()) then
        (WaitForTunnelState.step conversion acceptState s.wait waitAction).map fun wait =>
          {s with wait, entered := if s.acted then s.entered ++ enters a else s.entered}
      else none

/-- What the helper returns, once it does. -/
def Connect.result (s : Connect μ) : Option (Except ConnectError Unit) :=
  match s.reply, s.wait.phase with
  | none, _ => none
  | some (.error error), _ => some (.error (.beginConnecting error))
  | some (.ok _), .returned (.error error) => some (.error (.wait error))
  | some (.ok _), .returned (.ok newState) =>
      if newState.isError then some (.error .enteredErrorState) else some (.ok ())
  | some (.ok _), _ => none

/-- The result is about a state that the daemon has entered after it has acted on
the request. -/
structure Reports (s : Connect μ) : Prop where
  connected : s.result = some (.ok ()) → ∃ state ∈ s.entered, state.isConnected = true
  error : s.result = some (.error .enteredErrorState) →
    ∃ state ∈ s.entered, state.isError = true

/-- From the subscription on the helper is not shown a `Connected` or `Error` from
before the daemon has acted: the daemon is not in one when it is asked, and does
not enter one. -/
def Fresh (s : Connect μ) (a : Action) : Prop :=
  (asks a = true → acceptState s.wait.daemon = true → s.entered ≠ []) ∧
    ∀ state ∈ enters a,
      s.wait.phase.listening = true → acceptState state = true → s.acted = true

instance (s : Connect μ) (a : Action) : Decidable (Fresh s a) :=
  inferInstanceAs (Decidable ((_ → _ → _) ∧ ∀ state ∈ enters a, _))

/-! ### Steps -/

/-- What the helper has been shown is fresh; and so is the daemon's state, once
the daemon has entered a state after it has acted. -/
structure Inv (conversion : Conversion TunnelState μ) (s : Connect μ) : Prop where
  current : s.entered ≠ [] → s.wait.daemon ∈ s.entered
  acted : s.acted = false → s.entered = []
  shown : Shown conversion acceptState
    (fun state => acceptState state = true → state ∈ s.entered) s.wait

theorem daemon_of_steps {conversion : Conversion TunnelState μ} {s next : Wait TunnelState μ}
    {a : WaitForTunnelState.Action TunnelState} (h : Steps conversion acceptState s a next) :
    (enters (.wait a) = [] ∧ next.daemon = s.daemon) ∨ enters (.wait a) = [next.daemon] := by
  cases h with
  | enter state => exact .inr rfl
  | otherEvent => exact .inl ⟨rfl, send_daemon s _⟩
  | close closed hopen => exact .inl ⟨rfl, rfl⟩
  | subscribe hphase => exact .inl ⟨rfl, rfl⟩
  | query hphase => exact .inl ⟨rfl, rfl⟩
  | refuse status hphase => exact .inl ⟨rfl, rfl⟩
  | fail status hphase => exact .inl ⟨rfl, rfl⟩
  | answer message hphase => exact .inl ⟨rfl, rfl⟩
  | next event events hphase hevents => exact .inl ⟨rfl, rfl⟩
  | lose closed hphase hevents hclosed => exact .inl ⟨rfl, rfl⟩
  | elapse hphase hevents hclosed => exact .inl ⟨rfl, rfl⟩

/-- A step of the wait shows the helper only fresh states. -/
theorem shows_of_fresh {conversion : Conversion TunnelState μ} {s : Connect μ}
    {a : WaitForTunnelState.Action TunnelState} (h : Inv conversion s)
    (hfresh : Fresh s (.wait a)) :
    Shows (fun state => acceptState state = true →
      state ∈ if s.acted then s.entered ++ enters (.wait a) else s.entered) s.wait a := by
  cases a with
  | enter state =>
      intro hlistening haccept
      have hacted : s.acted = true :=
        hfresh.2 state (List.mem_singleton_self state) hlistening haccept
      simp [hacted, enters]
  | getTunnelState reply =>
      intro _ haccept
      have hcurrent : s.wait.daemon ∈ s.entered := h.current (hfresh.1 rfl haccept)
      split <;> simp [hcurrent]
  | otherEvent => trivial
  | close closed => trivial
  | eventsListen reply => trivial
  | resume => trivial
  | elapse => trivial

theorem inv_wait {conversion : Conversion TunnelState μ} {s : Connect μ}
    {a : WaitForTunnelState.Action TunnelState} {wait : Wait TunnelState μ}
    (h : Inv conversion s) (hfresh : Fresh s (.wait a))
    (hstep : Steps conversion acceptState s.wait a wait) :
    Inv conversion {s with
      wait, entered := if s.acted then s.entered ++ enters (.wait a) else s.entered} := by
  have hmono : ∀ state : TunnelState, (acceptState state = true → state ∈ s.entered) →
      acceptState state = true →
        state ∈ if s.acted then s.entered ++ enters (.wait a) else s.entered := by
    intro state hold haccept
    split <;> simp [hold haccept]
  constructor
  · cases hacted : s.acted with
    | false => simp [h.acted hacted]
    | true =>
        intro hentered
        obtain ⟨hnone, hdaemon⟩ | hone := daemon_of_steps hstep
        · simp only [hnone, hdaemon, if_true, List.append_nil] at hentered ⊢
          exact h.current hentered
        · simp [hone]
  · intro hacted
    have hnot : s.acted = false := hacted
    simp [hnot, h.acted hnot]
  · exact (h.shown.mono hmono).step (shows_of_fresh h hfresh) hstep

theorem inv_step {conversion : Conversion TunnelState μ} (s : Connect μ) (a : Action)
    (next : Connect μ) (h : Inv conversion s) (hfresh : Fresh s a)
    (hstep : step conversion s a = some next) : Inv conversion next := by
  cases a with
  | act =>
      simp only [step] at hstep
      split at hstep
      · cases hstep
      · cases hstep
        exact ⟨h.current, by simp, h.shown⟩
  | connectTunnel reply =>
      simp only [step] at hstep
      split at hstep
      · cases hstep
        exact ⟨h.current, h.acted, h.shown⟩
      · cases hstep
  | wait a =>
      simp only [step] at hstep
      split at hstep
      · obtain ⟨wait, hwait, rfl⟩ := Option.map_eq_some_iff.mp hstep
        exact inv_wait h hfresh (steps_of_step hwait)
      · cases hstep

/-- A result that is about a state is about one that the wait has returned. -/
theorem phase_of_result {s : Connect μ} {r : Except ConnectError Unit}
    (hresult : s.result = some r) (hstate : r = .ok () ∨ r = .error .enteredErrorState) :
    ∃ newState, s.wait.phase = .returned (.ok newState) ∧
      r = if newState.isError then .error .enteredErrorState else .ok () := by
  unfold Connect.result at hresult
  split at hresult
  · cases hresult
  · cases hresult
    simp at hstate
  · cases hresult
    simp at hstate
  · next _ newState _ hphase =>
    refine ⟨newState, hphase, ?_⟩
    split at hresult <;> simp_all
  · cases hresult

theorem Inv.reports {conversion : Conversion TunnelState μ} {s : Connect μ}
    (h : Inv conversion s) : Reports s := by
  have hreturned : ∀ newState, s.wait.phase = .returned (.ok newState) →
      acceptState newState = true ∧ newState ∈ s.entered := by
    intro newState hphase
    obtain ⟨haccept, hentered⟩ := h.shown.returned newState hphase
    exact ⟨haccept, hentered haccept⟩
  constructor
  · intro hresult
    obtain ⟨newState, hphase, hr⟩ := phase_of_result hresult (.inl rfl)
    obtain ⟨haccept, hentered⟩ := hreturned newState hphase
    refine ⟨newState, hentered, ?_⟩
    cases newState with
    | connected endpoint => rfl
    | error errorState => simp [TunnelState.isError] at hr
    | disconnected => cases haccept
    | connecting endpoint => cases haccept
    | disconnecting action => cases haccept
  · intro hresult
    obtain ⟨newState, hphase, hr⟩ := phase_of_result hresult (.inr rfl)
    refine ⟨newState, (hreturned newState hphase).2, ?_⟩
    by_contra hnot
    simp [hnot] at hr

/-- In every run in which the helper is shown only fresh states, its result is
about the connection that it has asked for. -/
theorem connect_reports (conversion : Conversion TunnelState μ) (daemon : TunnelState)
    (actions : List Action) (s : Connect μ)
    (hfresh : Meets (step conversion) Fresh (.start daemon) actions)
    (hrun : run (step conversion) (.start daemon) actions = some s) : Reports s := by
  have hinit : Inv conversion (.start daemon) :=
    ⟨by simp [Connect.start], fun _ => rfl, (seen_start daemon).shown.mono (by
      simp [Wait.start])⟩
  exact (run_preserves_of_meets inv_step actions hinit hfresh hrun).reports

/-- A daemon that is disconnected and acts at once. -/
def connects : List Action :=
  [.act, .connectTunnel (.ok ()), .wait (.enter (.connecting "se-got-wg-001")),
    .wait (.eventsListen (.ok ())), .wait (.getTunnelState (.ok ())), .wait .resume,
    .wait (.enter (.connected "se-got-wg-001")), .wait .resume]

theorem connects_reports :
    ∃ s, run (step oneofConversion) (.start .disconnected) connects = some s ∧
      s.result = some (.ok ()) ∧ ∃ state ∈ s.entered, state.isConnected = true := by
  refine ⟨_, rfl, by decide, ?_⟩
  have hreports := connect_reports oneofConversion .disconnected connects _ (by decide) rfl
  exact hreports.connected (by decide)

/-- The daemon is connected already, and replies before its state machine acts. -/
def staleConnection : List Action :=
  [.connectTunnel (.ok ()), .wait (.eventsListen (.ok ())), .wait (.getTunnelState (.ok ())),
    .wait .resume]

theorem staleConnection_accepted :
    ∃ s, run (step oneofConversion) (.start (.connected "se-got-wg-001")) staleConnection =
        some s ∧
      s.result = some (.ok ()) ∧ s.acted = false ∧ ¬Reports s := by
  refine ⟨_, rfl, by decide, rfl, ?_⟩
  intro hreports
  obtain ⟨state, hentered, _⟩ := hreports.connected (by decide)
  cases hentered

end MullvadAppTests.TestManager.ConnectAndWait
