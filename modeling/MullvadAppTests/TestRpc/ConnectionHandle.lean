import MullvadAppTests.Lib.Transition
import MullvadAppTests.TestRpc.EndpointMoves

/-!
`ConnectionHandle` of `test-rpc/src/transport.rs` next to the client's
`forward_messages` loop. The loop puts a token into an unbounded channel for
every handshake it decodes; `wait_for_server` takes one, and
`reset_connected_state` empties the channel, clears the connected flag and
notifies. Both methods hold the lock of the receiver, so at most one of them
runs; the loop runs beside them and may end at any moment, which drops the
sender.

Tokens are numbered by the handshake they stand for. The numbers and the log
are histories that no method reads.
-/

namespace MullvadAppTests.TestRpc

open Lib.LengthDelimited Lib.Transition

/-- Who holds the lock of `handshake_fwd_rx`, and how far it has come. -/
inductive Holder where
  | free
  | waiting
  | draining
  | storing
  | notifying
  deriving DecidableEq, Repr

inductive HandleEvent where
  | decoded (handshake : Nat)
  | resetDone
  | serverResponded (token : Option Nat)
  deriving DecidableEq, Repr

/-- The client's loop, the channel of handshake tokens and the lock. -/
structure ClientTransport (C R : Type) where
  loop : Endpoint C R
  tokens : List Nat
  holder : Holder
  decoded : Nat
  log : List HandleEvent

def ClientTransport.new (C R : Type) : ClientTransport C R where
  loop := .new C R false
  tokens := []
  holder := .free
  decoded := 0
  log := []

inductive HandleAction (C : Type) where
  | loop (a : EndAction C)
  | lockWait
  | waitNext
  | waitTimeout
  | lockReset
  | resetTryNext
  | resetStore
  | resetNotify

/-- A decoded handshake is on its way into the channel. -/
def Phase.forwarding {S : Type} : Phase S → Bool
  | .performing .forwardHandshake => true
  | _ => false

def Endpoint.clearConnected {T S : Type} (e : Endpoint T S) : Endpoint T S :=
  {e with serial.codec.hasConnected := false}

variable {C R : Type} (jsonC : Json C) (jsonR : Json R)

/-- The loop moves. A handshake is decoded when the loop starts to forward one,
and its token is in the channel when the loop is done with that. -/
def ClientTransport.afterLoop (s : ClientTransport C R) (loop : Endpoint C R) :
    ClientTransport C R :=
  if !s.loop.phase.forwarding && loop.phase.forwarding then
    {s with loop, decoded := s.decoded + 1, log := s.log ++ [.decoded s.decoded]}
  else if s.loop.phase.forwarding && !loop.phase.forwarding then
    {s with loop, tokens := s.tokens ++ [s.decoded - 1]}
  else {s with loop}

/-- The lock holder's steps. `next()` is ready with `none` when the channel is
empty and the loop has returned; the result is not looked at. -/
def ClientTransport.step (s : ClientTransport C R) :
    HandleAction C → Option (ClientTransport C R)
  | .loop a => (s.loop.step jsonC jsonR true a).map fun result => s.afterLoop result.1
  | .lockWait => if s.holder = .free then some {s with holder := .waiting} else none
  | .waitNext =>
      if s.holder = .waiting then
        match s.tokens, s.loop.phase with
        | token :: rest, _ =>
            some {s with holder := .free, tokens := rest
                         log := s.log ++ [.serverResponded (some token)]}
        | [], .returned _ =>
            some {s with holder := .free, log := s.log ++ [.serverResponded none]}
        | [], _ => none
      else none
  | .waitTimeout => if s.holder = .waiting then some {s with holder := .free} else none
  | .lockReset => if s.holder = .free then some {s with holder := .draining} else none
  | .resetTryNext =>
      if s.holder = .draining then
        match s.tokens with
        | _ :: rest => some {s with tokens := rest}
        | [] => some {s with holder := .storing}
      else none
  | .resetStore =>
      if s.holder = .storing then
        some {s with holder := .notifying, loop := s.loop.clearConnected}
      else none
  | .resetNotify =>
      if s.holder = .notifying then
        some {s with holder := .free, log := s.log ++ [.resetDone]}
      else none

/-- Every time `wait_for_server` returned `Ok(())`, a handshake had been decoded
after the last completed reset that no earlier call had consumed. -/
def Justified (log : List HandleEvent) : Prop :=
  ∀ before token after, log = before ++ .serverResponded token :: after →
    ∃ n old new, before = old ++ .decoded n :: new ∧ .resetDone ∉ new ∧
      .serverResponded (some n) ∉ before

/-- The loop decodes a handshake in this step. -/
def ClientTransport.decodesHandshake (s : ClientTransport C R) (a : EndAction C) : Bool :=
  match s.loop.step jsonC jsonR true a with
  | some (loop, _) => !s.loop.phase.forwarding && loop.phase.forwarding
  | none => false

/-- `wait_for_server` does not run into the end of the channel, and a reset does
not meet a handshake: none is on its way when the channel is found empty, and
none is decoded from then until the reset is complete. -/
def Undisturbed (s : ClientTransport C R) : HandleAction C → Prop
  | .waitNext => s.tokens ≠ []
  | .resetTryNext => s.tokens = [] → s.loop.phase.forwarding = false
  | .loop a =>
      s.holder = .storing ∨ s.holder = .notifying → s.decodesHandshake jsonC jsonR a = false
  | _ => True

instance (s : ClientTransport C R) (a : HandleAction C) :
    Decidable (Undisturbed jsonC jsonR s a) := by
  cases a <;> unfold Undisturbed <;> infer_instance

/-! ### The log -/

/-- The handshake was decoded and no reset has been completed since. -/
def FreshIn (n : Nat) (log : List HandleEvent) : Prop :=
  ∃ old new, log = old ++ .decoded n :: new ∧ .resetDone ∉ new

theorem FreshIn.snoc {n : Nat} {log : List HandleEvent} (h : FreshIn n log) (e : HandleEvent)
    (he : e ≠ .resetDone) : FreshIn n (log ++ [e]) := by
  obtain ⟨old, new, rfl, hnew⟩ := h
  refine ⟨old, new ++ [e], by simp, ?_⟩
  intro hmem
  rcases List.mem_append.mp hmem with hmem | hmem
  · exact hnew hmem
  · exact he (List.mem_singleton.mp hmem).symm

theorem Justified.snoc {log : List HandleEvent} (h : Justified log) (e : HandleEvent)
    (he : ∀ token, e = .serverResponded token →
      ∃ n, FreshIn n log ∧ .serverResponded (some n) ∉ log) :
    Justified (log ++ [e]) := by
  intro before token after heq
  rcases snoc_eq_append_cons heq with ⟨rfl, hlast, _⟩ | ⟨later, _, hlog⟩
  · obtain ⟨n, ⟨old, new, hlog, hnew⟩, hunused⟩ := he token hlast
    exact ⟨n, old, new, hlog, hnew, hunused⟩
  · exact h before token later hlog

/-! ### The invariant -/

/-- The handshakes whose tokens are in the channel or on their way into it. -/
def ClientTransport.inFlight (s : ClientTransport C R) : List Nat :=
  s.tokens ++ if s.loop.phase.forwarding then [s.decoded - 1] else []

structure HandleInv (s : ClientTransport C R) : Prop where
  fresh : ∀ n ∈ s.inFlight, FreshIn n s.log
  unconsumed : ∀ n ∈ s.inFlight, .serverResponded (some n) ∉ s.log
  nodup : s.inFlight.Nodup
  below : ∀ n ∈ s.inFlight, n < s.decoded
  consumedBelow : ∀ n, .serverResponded (some n) ∈ s.log → n < s.decoded
  quiet : s.holder = .storing ∨ s.holder = .notifying → s.inFlight = []
  justified : Justified s.log

theorem HandleInv.initial : HandleInv (ClientTransport.new C R) where
  fresh := by simp [ClientTransport.inFlight, ClientTransport.new, Endpoint.new, Phase.forwarding]
  unconsumed := by simp [ClientTransport.new]
  nodup := by simp [ClientTransport.inFlight, ClientTransport.new, Endpoint.new, Phase.forwarding]
  below := by simp [ClientTransport.inFlight, ClientTransport.new, Endpoint.new, Phase.forwarding]
  consumedBelow := by simp [ClientTransport.new]
  quiet := by simp [ClientTransport.new]
  justified := by
    intro before token after heq
    simp [ClientTransport.new] at heq

/-- A step that neither touches the tokens nor the log. -/
theorem HandleInv.same {s next : ClientTransport C R} (h : HandleInv s)
    (hflight : next.inFlight = s.inFlight) (hlog : next.log = s.log)
    (hdecoded : next.decoded = s.decoded)
    (hquiet : next.holder = .storing ∨ next.holder = .notifying → s.inFlight = []) :
    HandleInv next where
  fresh := by rw [hflight, hlog]; exact h.fresh
  unconsumed := by rw [hflight, hlog]; exact h.unconsumed
  nodup := by rw [hflight]; exact h.nodup
  below := by rw [hflight, hdecoded]; exact h.below
  consumedBelow := by rw [hlog, hdecoded]; exact h.consumedBelow
  quiet := by rw [hflight]; exact hquiet
  justified := by rw [hlog]; exact h.justified

/-- The loop decodes a handshake: its number is new. -/
theorem HandleInv.decode {s : ClientTransport C R} (h : HandleInv s) (loop : Endpoint C R)
    (hbefore : s.loop.phase.forwarding = false) (hafter : loop.phase.forwarding = true)
    (hholder : ¬ (s.holder = .storing ∨ s.holder = .notifying)) :
    HandleInv {s with loop, decoded := s.decoded + 1, log := s.log ++ [.decoded s.decoded]} := by
  have hold : s.inFlight = s.tokens := by simp [ClientTransport.inFlight, hbefore]
  have hflight : ClientTransport.inFlight {s with loop, decoded := s.decoded + 1
                                                  log := s.log ++ [.decoded s.decoded]} =
      s.tokens ++ [s.decoded] := by
    simp [ClientTransport.inFlight, hafter]
  have hnew : s.decoded ∉ s.tokens := by
    intro hmem
    have hlt := h.below s.decoded (by rwa [hold])
    omega
  constructor
  · rw [hflight]
    intro n hn
    rcases List.mem_append.mp hn with hn | hn
    · exact (h.fresh n (by rwa [hold])).snoc _ (by simp)
    · rw [List.mem_singleton.mp hn]
      exact ⟨s.log, [], rfl, by simp⟩
  · rw [hflight]
    intro n hn hmem
    have hmem : .serverResponded (some n) ∈ s.log := by simpa using hmem
    rcases List.mem_append.mp hn with hn | hn
    · exact h.unconsumed n (by rwa [hold]) hmem
    · rw [List.mem_singleton.mp hn] at hmem
      have hlt := h.consumedBelow _ hmem
      omega
  · rw [hflight]
    have htokens : s.tokens.Nodup := hold ▸ h.nodup
    exact List.Nodup.append htokens (List.nodup_singleton _) (by simpa using hnew)
  · rw [hflight]
    intro n hn
    rcases List.mem_append.mp hn with hn | hn
    · have hlt := h.below n (by rwa [hold])
      simp only
      omega
    · rw [List.mem_singleton.mp hn]
      simp
  · intro n hmem
    have hlt := h.consumedBelow n (by simpa using hmem)
    simp only
    omega
  · intro hq
    exact absurd hq hholder
  · exact h.justified.snoc _ (by simp)

/-- `wait_for_server` takes the first token. -/
theorem HandleInv.respond {s : ClientTransport C R} (h : HandleInv s) (token : Nat)
    (rest : List Nat) (htokens : s.tokens = token :: rest) :
    HandleInv {s with holder := .free, tokens := rest
                      log := s.log ++ [.serverResponded (some token)]} := by
  have hflight : s.inFlight = token :: ClientTransport.inFlight
      {s with holder := .free, tokens := rest
              log := s.log ++ [.serverResponded (some token)]} := by
    simp [ClientTransport.inFlight, htokens]
  have hnodup := h.nodup
  rw [hflight, List.nodup_cons] at hnodup
  constructor
  · intro n hn
    exact (h.fresh n (by rw [hflight]; exact List.mem_cons_of_mem _ hn)).snoc _ (by simp)
  · intro n hn hmem
    rcases List.mem_append.mp hmem with hmem | hmem
    · exact h.unconsumed n (by rw [hflight]; exact List.mem_cons_of_mem _ hn) hmem
    · have heq : n = token := by simpa using hmem
      exact hnodup.1 (heq ▸ hn)
  · exact hnodup.2
  · intro n hn
    exact h.below n (by rw [hflight]; exact List.mem_cons_of_mem _ hn)
  · intro n hmem
    rcases List.mem_append.mp hmem with hmem | hmem
    · exact h.consumedBelow n hmem
    · have heq : n = token := by simpa using hmem
      rw [heq]
      exact h.below token (by simp [hflight])
  · rintro (hq | hq) <;> cases hq
  · apply h.justified.snoc
    intro _ _
    exact ⟨token, h.fresh token (by simp [hflight]), h.unconsumed token (by simp [hflight])⟩

/-- The reset throws a token away. -/
theorem HandleInv.discard {s : ClientTransport C R} (h : HandleInv s) (token : Nat)
    (rest : List Nat) (htokens : s.tokens = token :: rest) :
    HandleInv {s with tokens := rest} := by
  have hflight : s.inFlight = token :: ClientTransport.inFlight {s with tokens := rest} := by
    simp [ClientTransport.inFlight, htokens]
  have hnodup := h.nodup
  rw [hflight, List.nodup_cons] at hnodup
  have hold : ∀ n ∈ ClientTransport.inFlight {s with tokens := rest}, n ∈ s.inFlight := by
    intro n hn
    rw [hflight]
    exact List.mem_cons_of_mem _ hn
  constructor
  · exact fun n hn => h.fresh n (hold n hn)
  · exact fun n hn => h.unconsumed n (hold n hn)
  · exact hnodup.2
  · exact fun n hn => h.below n (hold n hn)
  · exact h.consumedBelow
  · intro hq
    have hnil := h.quiet hq
    rw [hflight] at hnil
    cases hnil
  · exact h.justified

/-- The reset is complete: nothing that was decoded before it is in flight. -/
theorem HandleInv.complete {s : ClientTransport C R} (h : HandleInv s)
    (hholder : s.holder = .notifying) :
    HandleInv {s with holder := .free, log := s.log ++ [.resetDone]} := by
  have hnil := h.quiet (Or.inr hholder)
  have hflight : ClientTransport.inFlight {s with holder := .free
                                                  log := s.log ++ [.resetDone]} = [] := hnil
  constructor
  · rw [hflight]
    simp
  · rw [hflight]
    simp
  · rw [hflight]
    exact List.nodup_nil
  · rw [hflight]
    simp
  · intro n hmem
    exact h.consumedBelow n (by simpa using hmem)
  · rintro (hq | hq) <;> cases hq
  · exact h.justified.snoc _ (by simp)

variable {jsonC jsonR}

theorem HandleInv.loopStep {s : ClientTransport C R} {a : EndAction C} {loop : Endpoint C R}
    {bytes : Bytes} (h : HandleInv s) (hcond : Undisturbed jsonC jsonR s (.loop a))
    (hstep : s.loop.step jsonC jsonR true a = some (loop, bytes)) :
    HandleInv (s.afterLoop loop) := by
  simp only [Undisturbed, ClientTransport.decodesHandshake, hstep] at hcond
  unfold ClientTransport.afterLoop
  cases hbefore : s.loop.phase.forwarding <;> cases hafter : loop.phase.forwarding
  · exact h.same (by simp [ClientTransport.inFlight, hbefore, hafter]) rfl rfl h.quiet
  · apply h.decode loop hbefore hafter
    intro hq
    simpa [hbefore, hafter] using hcond hq
  · exact h.same (by simp [ClientTransport.inFlight, hbefore, hafter]) rfl rfl h.quiet
  · exact h.same (by simp [ClientTransport.inFlight, hbefore, hafter]) rfl rfl h.quiet

theorem HandleInv.step (s : ClientTransport C R) (a : HandleAction C)
    (next : ClientTransport C R) (h : HandleInv s) (hcond : Undisturbed jsonC jsonR s a)
    (hstep : s.step jsonC jsonR a = some next) : HandleInv next := by
  cases a with
  | loop a =>
      obtain ⟨⟨loop, bytes⟩, hloop, rfl⟩ := Option.map_eq_some_iff.mp hstep
      exact h.loopStep hcond hloop
  | lockWait =>
      simp only [ClientTransport.step] at hstep
      split at hstep
      · cases hstep
        exact h.same rfl rfl rfl (by simp)
      · cases hstep
  | waitNext =>
      simp only [ClientTransport.step] at hstep
      split at hstep
      · split at hstep
        · next token rest htokens =>
          cases hstep
          exact h.respond token rest htokens
        · next htokens _ => exact absurd htokens hcond
        · cases hstep
      · cases hstep
  | waitTimeout =>
      simp only [ClientTransport.step] at hstep
      split at hstep
      · cases hstep
        exact h.same rfl rfl rfl (by simp)
      · cases hstep
  | lockReset =>
      simp only [ClientTransport.step] at hstep
      split at hstep
      · cases hstep
        exact h.same rfl rfl rfl (by simp)
      · cases hstep
  | resetTryNext =>
      simp only [ClientTransport.step] at hstep
      split at hstep
      · split at hstep
        · next token rest htokens =>
          cases hstep
          exact h.discard token rest htokens
        · next htokens =>
          cases hstep
          refine h.same rfl rfl rfl ?_
          intro _
          simp [ClientTransport.inFlight, htokens, hcond htokens]
      · cases hstep
  | resetStore =>
      simp only [ClientTransport.step] at hstep
      split at hstep
      · next hholder =>
        cases hstep
        exact h.same rfl rfl rfl (fun _ => h.quiet (Or.inl hholder))
      · cases hstep
  | resetNotify =>
      simp only [ClientTransport.step] at hstep
      split at hstep
      · next hholder =>
        cases hstep
        exact h.complete hholder
      · cases hstep

/-- In every run in which no wait meets the end of the channel and no reset
meets a handshake, every successful `wait_for_server` is justified. -/
theorem wait_for_server_justified (actions : List (HandleAction C)) (s : ClientTransport C R)
    (hmeets : Meets (ClientTransport.step jsonC jsonR) (Undisturbed jsonC jsonR)
      (ClientTransport.new C R) actions)
    (hrun : run (ClientTransport.step jsonC jsonR) (ClientTransport.new C R) actions = some s) :
    Justified s.log := by
  have hinv : HandleInv s :=
    run_preserves_of_meets HandleInv.step actions HandleInv.initial hmeets hrun
  exact hinv.justified

/-- The server's handshake arrives, then `wait_for_server` is called. -/
def handshakeThenWait : List (HandleAction Bool) :=
  [.loop (.poll [.ok [0, 0, 0, 9, 0, 0x4D, 0x55, 0x4C, 0x4C, 0x56, 0x34, 0x44, 0x3B]] none),
    .loop (.complete true), .lockWait, .waitNext]

theorem handshakeThenWait_justified :
    ∃ s, run (ClientTransport.step boolJson boolJson) (ClientTransport.new Bool Bool)
        handshakeThenWait = some s ∧
      s.log = [.decoded 0, .serverResponded (some 0)] ∧ Justified s.log := by
  have hlog : (run (ClientTransport.step boolJson boolJson) (ClientTransport.new Bool Bool)
      handshakeThenWait).map ClientTransport.log =
        some [.decoded 0, .serverResponded (some 0)] := by decide
  obtain ⟨s, hrun, hs⟩ := Option.map_eq_some_iff.mp hlog
  exact ⟨s, hrun, hs, wait_for_server_justified handshakeThenWait s (by decide) hrun⟩

/-- The serial line is closed before anything arrives, the loop returns, and
`wait_for_server` is called. -/
def closedThenWait : List (HandleAction Bool) :=
  [.loop (.poll [.ok []] none), .loop (.complete true), .lockWait, .waitNext]

/-- `wait_for_server` reports a server although no byte was ever received. -/
theorem closedThenWait_not_justified :
    ∃ s, run (ClientTransport.step boolJson boolJson) (ClientTransport.new Bool Bool)
        closedThenWait = some s ∧
      s.log = [.serverResponded none] ∧ ¬ Justified s.log := by
  have hlog : (run (ClientTransport.step boolJson boolJson) (ClientTransport.new Bool Bool)
      closedThenWait).map ClientTransport.log = some [.serverResponded none] := by decide
  obtain ⟨s, hrun, hs⟩ := Option.map_eq_some_iff.mp hlog
  refine ⟨s, hrun, hs, ?_⟩
  intro hjustified
  obtain ⟨n, old, new, hempty, _, _⟩ := hjustified [] none [] (by simpa using hs)
  simp at hempty

end MullvadAppTests.TestRpc
