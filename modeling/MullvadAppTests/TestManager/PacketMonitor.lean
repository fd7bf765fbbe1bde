import MullvadAppTests.Lib.Transition
import MullvadAppTests.TestManager.NetworkMonitor

/-!
The loop of `start_packet_monitor_for_interface` in
`test-manager/src/network_monitor.rs`. Each iteration polls, in this order, the
capture stream, the stop signal and the timeout, and takes the first of them that
is ready. Packets arrive, the stop is sent and the timer runs out between two
polls, in any order.

`consumed`, `calls` and `atStop` are histories that the loop does not read.
-/

namespace MullvadAppTests.TestManager

open Lib Lib.Transition

def usizeMax : Nat := 2 ^ 64 - 1

/-- What the capture stream yields: a packet, a frame that was decoded to `None`,
or an error. -/
inductive Captured where
  | packet (packet : ParsedPacket)
  | ignored
  | error
  deriving DecidableEq

/-- Why the loop has ended. -/
inductive Ending where
  | satisfied
  | stopped
  | timedOut
  | lost
  deriving DecidableEq, Repr

/-- `conditionState` is the state of the closure `should_continue_fn`. `receiving`
says that `is_receiving_tx` was used, for which the caller waits before it gets
the monitor. `atStop` is everything captured when the stop was sent. -/
structure PacketMonitor (State : Type) where
  available : List Captured
  ended : Bool
  timedOut : Bool
  receiving : Bool
  conditionState : State
  packets : List ParsedPacket
  discardedPackets : Nat
  ending : Option Ending
  consumed : List Captured
  calls : List (ParsedPacket × Bool)
  atStop : Option (List Captured)
  deriving DecidableEq

inductive MonitorAction where
  | capture (item : Captured)
  | endStream
  | stop
  | timeout
  | poll

structure MonitorResult where
  packets : List ParsedPacket
  discardedPackets : Nat
  deriving DecidableEq

section

variable {State : Type} (filterFn : ParsedPacket → Bool)
  (shouldContinueFn : State → ParsedPacket → Bool × State)

def PacketMonitor.start (conditionState : State) : PacketMonitor State :=
  ⟨[], false, false, false, conditionState, [], 0, none, [], [], none⟩

/-- The arm for a packet. -/
def PacketMonitor.receive (m : PacketMonitor State) (packet : ParsedPacket) :
    PacketMonitor State :=
  if filterFn packet = false then
    {m with discardedPackets := min (m.discardedPackets + 1) usizeMax}
  else
    let (shouldContinue, conditionState) := shouldContinueFn m.conditionState packet
    {m with
      conditionState
      packets := m.packets ++ [packet]
      calls := m.calls ++ [(packet, shouldContinue)]
      ending := if shouldContinue then none else some .satisfied}

/-- One poll of the nested select. -/
def PacketMonitor.poll (m : PacketMonitor State) : PacketMonitor State :=
  let m := {m with receiving := true}
  match m.available with
  | item :: rest =>
      let m := {m with available := rest, consumed := m.consumed ++ [item]}
      match item with
      | .packet packet => m.receive filterFn shouldContinueFn packet
      | .ignored => m
      | .error => {m with ending := some .lost}
  | [] =>
      if m.ended then {m with ending := some .lost}
      else if m.atStop.isSome then {m with ending := some .stopped}
      else if m.timedOut then {m with ending := some .timedOut}
      else m

/-- The stop is sent at most once, and only by the holder of the monitor. -/
def PacketMonitor.step (m : PacketMonitor State) : MonitorAction → Option (PacketMonitor State)
  | .capture item => if m.ended then none else some {m with available := m.available ++ [item]}
  | .endStream => some {m with ended := true}
  | .stop =>
      if m.receiving = true ∧ m.atStop = none then
        some {m with atStop := some (m.consumed ++ m.available)}
      else none
  | .timeout => some {m with timedOut := true}
  | .poll =>
      if m.ending = none then some (m.poll filterFn shouldContinueFn) else none

/-- What the task returns once the loop has ended. -/
def PacketMonitor.result (m : PacketMonitor State) : Option (Except Unit MonitorResult) :=
  m.ending.map fun ending =>
    match ending with
    | .lost => .error ()
    | .satisfied | .stopped | .timedOut => .ok ⟨m.packets, m.discardedPackets⟩

end

/-! ### Accounting -/

/-- The parsed packets among the captured items. -/
def parsed (items : List Captured) : List ParsedPacket :=
  items.filterMap fun item =>
    match item with
    | .packet packet => some packet
    | .ignored => none
    | .error => none

@[simp] theorem parsed_append (first second : List Captured) :
    parsed (first ++ second) = parsed first ++ parsed second := by
  simp [parsed]

/-- The answers of the closure to packets that are given to it one by one. -/
def answers {State : Type} (shouldContinueFn : State → ParsedPacket → Bool × State)
    (conditionState : State) : List ParsedPacket → List Bool
  | [] => []
  | packet :: rest =>
      (shouldContinueFn conditionState packet).1 ::
        answers shouldContinueFn (shouldContinueFn conditionState packet).2 rest

/-- The state of the closure after it was given the packets. -/
def stateAfter {State : Type} (shouldContinueFn : State → ParsedPacket → Bool × State)
    (conditionState : State) (packets : List ParsedPacket) : State :=
  packets.foldl (fun state packet => (shouldContinueFn state packet).2) conditionState

theorem answers_snoc {State : Type} (shouldContinueFn : State → ParsedPacket → Bool × State)
    (conditionState : State) (packets : List ParsedPacket) (packet : ParsedPacket) :
    answers shouldContinueFn conditionState (packets ++ [packet]) =
      answers shouldContinueFn conditionState packets ++
        [(shouldContinueFn (stateAfter shouldContinueFn conditionState packets) packet).1] := by
  induction packets generalizing conditionState with
  | nil => rfl
  | cons first rest ih => simp only [List.cons_append, answers, ih, stateAfter, List.foldl_cons]

section

variable {State : Type} {filterFn : ParsedPacket → Bool}
  {shouldContinueFn : State → ParsedPacket → Bool × State}

/-- What one step can do to a monitor. -/
inductive MonitorMove (filterFn : ParsedPacket → Bool)
    (shouldContinueFn : State → ParsedPacket → Bool × State) (m : PacketMonitor State) :
    MonitorAction → PacketMonitor State → Prop
  | capture (item : Captured) :
      MonitorMove filterFn shouldContinueFn m (.capture item)
        {m with available := m.available ++ [item]}
  | endStream : MonitorMove filterFn shouldContinueFn m .endStream {m with ended := true}
  | stop (hfirst : m.atStop = none) :
      MonitorMove filterFn shouldContinueFn m .stop
        {m with atStop := some (m.consumed ++ m.available)}
  | timeout : MonitorMove filterFn shouldContinueFn m .timeout {m with timedOut := true}
  | discard (packet : ParsedPacket) (rest : List Captured) (hgoing : m.ending = none)
      (havailable : m.available = .packet packet :: rest) (hfilter : filterFn packet = false) :
      MonitorMove filterFn shouldContinueFn m .poll
        {m with
          receiving := true, available := rest, consumed := m.consumed ++ [.packet packet]
          discardedPackets := min (m.discardedPackets + 1) usizeMax}
  | accept (packet : ParsedPacket) (rest : List Captured) (hgoing : m.ending = none)
      (havailable : m.available = .packet packet :: rest) (hfilter : filterFn packet = true) :
      MonitorMove filterFn shouldContinueFn m .poll
        {m with
          receiving := true, available := rest, consumed := m.consumed ++ [.packet packet]
          conditionState := (shouldContinueFn m.conditionState packet).2
          packets := m.packets ++ [packet]
          calls := m.calls ++ [(packet, (shouldContinueFn m.conditionState packet).1)]
          ending :=
            if (shouldContinueFn m.conditionState packet).1 then none else some .satisfied}
  | ignore (rest : List Captured) (hgoing : m.ending = none)
      (havailable : m.available = .ignored :: rest) :
      MonitorMove filterFn shouldContinueFn m .poll
        {m with receiving := true, available := rest, consumed := m.consumed ++ [.ignored]}
  | fail (rest : List Captured) (hgoing : m.ending = none)
      (havailable : m.available = .error :: rest) :
      MonitorMove filterFn shouldContinueFn m .poll
        {m with
          receiving := true, available := rest, consumed := m.consumed ++ [.error]
          ending := some .lost}
  | idle (ending : Option Ending) (hgoing : m.ending = none) (havailable : m.available = [])
      (hstopped : ending = some .stopped → m.atStop.isSome = true)
      (htimedOut : ending = some .timedOut → m.timedOut = true)
      (hsatisfied : ending ≠ some .satisfied) :
      MonitorMove filterFn shouldContinueFn m .poll {m with receiving := true, ending}

theorem poll_move {m : PacketMonitor State} (hgoing : m.ending = none) :
    MonitorMove filterFn shouldContinueFn m .poll (m.poll filterFn shouldContinueFn) := by
  cases havailable : m.available with
  | nil =>
      have hidle : ∃ ending, m.poll filterFn shouldContinueFn = {m with receiving := true, ending} ∧
          (ending = some .stopped → m.atStop.isSome = true) ∧
          (ending = some .timedOut → m.timedOut = true) ∧ ending ≠ some .satisfied := by
        simp only [PacketMonitor.poll, havailable]
        split
        · exact ⟨some .lost, rfl, by simp⟩
        · split
          · next hstop => exact ⟨some .stopped, rfl, fun _ => hstop, by simp⟩
          · split
            · next htimedOut => exact ⟨some .timedOut, rfl, by simp, fun _ => htimedOut, by simp⟩
            · exact ⟨none, by rw [← hgoing], by simp⟩
      obtain ⟨ending, hpoll, hstopped, htimedOut, hsatisfied⟩ := hidle
      rw [hpoll]
      exact .idle ending hgoing havailable hstopped htimedOut hsatisfied
  | cons item rest =>
      cases item with
      | packet packet =>
          cases hfilter : filterFn packet with
          | false =>
              simpa [PacketMonitor.poll, havailable, PacketMonitor.receive, hfilter] using
                MonitorMove.discard packet rest hgoing havailable hfilter
          | true =>
              simpa [PacketMonitor.poll, havailable, PacketMonitor.receive, hfilter] using
                MonitorMove.accept packet rest hgoing havailable hfilter
      | ignored =>
          simpa [PacketMonitor.poll, havailable] using
            MonitorMove.ignore rest hgoing havailable
      | error =>
          simpa [PacketMonitor.poll, havailable] using MonitorMove.fail rest hgoing havailable

theorem monitor_move {m next : PacketMonitor State} {a : MonitorAction}
    (h : m.step filterFn shouldContinueFn a = some next) :
    MonitorMove filterFn shouldContinueFn m a next := by
  cases a with
  | capture item =>
      simp only [PacketMonitor.step] at h
      split at h
      · cases h
      · cases h
        exact .capture item
  | endStream =>
      cases h
      exact .endStream
  | stop =>
      simp only [PacketMonitor.step] at h
      split at h
      · next hready =>
        cases h
        exact .stop hready.2
      · cases h
  | timeout =>
      cases h
      exact .timeout
  | poll =>
      simp only [PacketMonitor.step] at h
      split at h
      · next hgoing =>
        cases h
        exact poll_move hgoing
      · cases h

/-- The accounts of a monitor, in terms of what it has consumed. -/
structure MonitorInv (filterFn : ParsedPacket → Bool)
    (shouldContinueFn : State → ParsedPacket → Bool × State) (conditionState : State)
    (m : PacketMonitor State) : Prop where
  packets : m.packets = (parsed m.consumed).filter filterFn
  discarded : m.discardedPackets =
    min ((parsed m.consumed).countP fun packet => !filterFn packet) usizeMax
  called : m.calls.map Prod.fst = m.packets
  answered : m.calls.map Prod.snd = answers shouldContinueFn conditionState m.packets
  state : m.conditionState = stateAfter shouldContinueFn conditionState m.packets
  going : m.ending = none → ∀ call ∈ m.calls, call.2 = true
  before : ∀ call ∈ m.calls.dropLast, call.2 = true
  atStop : ∀ captured, m.atStop = some captured → captured <+: m.consumed ++ m.available
  stopped : m.ending = some .stopped →
    ∃ captured, m.atStop = some captured ∧ captured <+: m.consumed

theorem MonitorInv.initial (conditionState : State) :
    MonitorInv filterFn shouldContinueFn conditionState (PacketMonitor.start conditionState) := by
  constructor <;> simp [PacketMonitor.start, parsed, answers, stateAfter]

/-- What was captured before the stop stays at the front when an item moves from
the available to the consumed ones. -/
theorem MonitorInv.atStop_consume {conditionState : State} {m : PacketMonitor State}
    (h : MonitorInv filterFn shouldContinueFn conditionState m) {item : Captured}
    {rest : List Captured} (havailable : m.available = item :: rest) :
    ∀ captured, m.atStop = some captured → captured <+: m.consumed ++ [item] ++ rest := by
  intro captured hcaptured
  have hbefore := h.atStop captured hcaptured
  rwa [havailable, List.append_cons] at hbefore

/-- An item is consumed that the accounts do not count. -/
theorem MonitorInv.skip {conditionState : State} {m : PacketMonitor State}
    (h : MonitorInv filterFn shouldContinueFn conditionState m) {item : Captured}
    {rest : List Captured} (havailable : m.available = item :: rest)
    (hitem : parsed [item] = []) (ending : Option Ending) (hgoing : m.ending = none)
    (hending : ending ≠ some .stopped) :
    MonitorInv filterFn shouldContinueFn conditionState
      {m with
        receiving := true, available := rest, consumed := m.consumed ++ [item]
        ending := ending} where
  packets := by simpa [hitem] using h.packets
  discarded := by simpa [hitem] using h.discarded
  called := h.called
  answered := h.answered
  state := h.state
  going := fun _ => h.going hgoing
  before := h.before
  atStop := h.atStop_consume havailable
  stopped := fun hstopped => absurd hstopped hending

/-- A packet that the filter rejects is counted. -/
theorem MonitorInv.discard {conditionState : State} {m : PacketMonitor State}
    (h : MonitorInv filterFn shouldContinueFn conditionState m) {packet : ParsedPacket}
    {rest : List Captured} (hgoing : m.ending = none)
    (havailable : m.available = .packet packet :: rest) (hfilter : filterFn packet = false) :
    MonitorInv filterFn shouldContinueFn conditionState
      {m with
        receiving := true, available := rest, consumed := m.consumed ++ [.packet packet]
        discardedPackets := min (m.discardedPackets + 1) usizeMax} where
  packets := by simpa [parsed, hfilter] using h.packets
  discarded := by
    have hcount : (parsed (m.consumed ++ [.packet packet])).countP (fun p => !filterFn p) =
        (parsed m.consumed).countP (fun p => !filterFn p) + 1 := by
      simp [parsed, hfilter]
    change min (m.discardedPackets + 1) usizeMax = _
    rw [hcount, h.discarded]
    omega
  called := h.called
  answered := h.answered
  state := h.state
  going := h.going
  before := h.before
  atStop := h.atStop_consume havailable
  stopped := by
    intro hstopped
    rw [hgoing] at hstopped
    cases hstopped

/-- A packet that the filter accepts is recorded, and the closure is asked once. -/
theorem MonitorInv.accept {conditionState : State} {m : PacketMonitor State}
    (h : MonitorInv filterFn shouldContinueFn conditionState m) {packet : ParsedPacket}
    {rest : List Captured} (hgoing : m.ending = none)
    (havailable : m.available = .packet packet :: rest) (hfilter : filterFn packet = true) :
    MonitorInv filterFn shouldContinueFn conditionState
      {m with
        receiving := true, available := rest, consumed := m.consumed ++ [.packet packet]
        conditionState := (shouldContinueFn m.conditionState packet).2
        packets := m.packets ++ [packet]
        calls := m.calls ++ [(packet, (shouldContinueFn m.conditionState packet).1)]
        ending :=
          if (shouldContinueFn m.conditionState packet).1 then none else some .satisfied} where
  packets := by simpa [parsed, hfilter] using h.packets
  discarded := by simpa [parsed, hfilter] using h.discarded
  called := by simp [h.called]
  answered := by simp [h.answered, answers_snoc, h.state]
  state := by simp [h.state, stateAfter]
  going := by
    intro hnone call hcall
    rcases List.mem_append.mp hcall with hold | hnew
    · exact h.going hgoing call hold
    · rw [List.mem_singleton.mp hnew]
      by_contra hfalse
      simp [hfalse] at hnone
  before := by simpa using h.going hgoing
  atStop := h.atStop_consume havailable
  stopped := by
    intro hstopped
    split at hstopped <;> cases hstopped

theorem MonitorInv.step (conditionState : State) (m : PacketMonitor State) (a : MonitorAction)
    (next : PacketMonitor State) (h : MonitorInv filterFn shouldContinueFn conditionState m)
    (hstep : m.step filterFn shouldContinueFn a = some next) :
    MonitorInv filterFn shouldContinueFn conditionState next := by
  cases monitor_move hstep with
  | capture item =>
      refine {h with atStop := ?_}
      intro captured hcaptured
      rw [← List.append_assoc]
      exact (h.atStop captured hcaptured).trans (List.prefix_append _ _)
  | endStream | timeout => exact {h with}
  | stop hfirst =>
      refine {h with atStop := ?_, stopped := ?_}
      · intro captured hcaptured
        cases hcaptured
        exact List.prefix_rfl
      · intro hending
        obtain ⟨captured, hcaptured, _⟩ := h.stopped hending
        rw [hfirst] at hcaptured
        cases hcaptured
  | discard packet rest hgoing havailable hfilter => exact h.discard hgoing havailable hfilter
  | accept packet rest hgoing havailable hfilter => exact h.accept hgoing havailable hfilter
  | ignore rest hgoing havailable =>
      exact h.skip havailable rfl m.ending hgoing (by simp [hgoing])
  | fail rest hgoing havailable =>
      exact h.skip havailable rfl _ hgoing (by simp)
  | idle ending hgoing havailable hstopped _ _ =>
      refine {h with going := fun _ => h.going hgoing, stopped := ?_}
      intro hending
      obtain ⟨captured, hcaptured⟩ := Option.isSome_iff_exists.mp (hstopped hending)
      have hbefore := h.atStop captured hcaptured
      rw [havailable, List.append_nil] at hbefore
      exact ⟨captured, hcaptured, hbefore⟩

/-- The items that arrive in the course of a run. -/
def captures (actions : List MonitorAction) : List Captured :=
  actions.filterMap fun a =>
    match a with
    | .capture item => some item
    | _ => none

theorem captures_append (first second : List MonitorAction) :
    captures (first ++ second) = captures first ++ captures second := by
  rw [captures, List.filterMap_append]
  rfl

theorem step_captures {m next : PacketMonitor State} {a : MonitorAction}
    (h : m.step filterFn shouldContinueFn a = some next) :
    next.consumed ++ next.available = m.consumed ++ m.available ++ captures [a] := by
  cases monitor_move h with
  | capture item => simp [captures]
  | endStream | stop | timeout => simp [captures]
  | discard packet rest _ havailable | accept packet rest _ havailable =>
      simp [captures, havailable]
  | ignore rest _ havailable | fail rest _ havailable => simp [captures, havailable]
  | idle => simp [captures]

/-- Every captured item is consumed or still available, in the order of its
arrival. -/
theorem run_captures (actions : List MonitorAction) {m last : PacketMonitor State}
    (h : run (PacketMonitor.step filterFn shouldContinueFn) m actions = some last) :
    last.consumed ++ last.available = m.consumed ++ m.available ++ captures actions := by
  induction actions generalizing m with
  | nil =>
      cases h
      simp [captures]
  | cons a rest ih =>
      obtain ⟨next, hstep, htail⟩ := Option.bind_eq_some_iff.mp h
      rw [ih htail, step_captures hstep, List.append_assoc, ← captures_append,
        List.singleton_append]

end

/-- In every run of a monitor that returns `Ok`: what it returns is accounted for
by the items that it has consumed, which are the first that arrived. The number of
discarded packets is exact up to the largest `usize`. After a stop, everything that
was there when the stop was sent has been consumed. -/
theorem monitor_accounts {State : Type} (filterFn : ParsedPacket → Bool)
    (shouldContinueFn : State → ParsedPacket → Bool × State) (conditionState : State)
    (actions : List MonitorAction) (m : PacketMonitor State) (result : MonitorResult)
    (hrun : run (PacketMonitor.step filterFn shouldContinueFn) (.start conditionState) actions =
      some m)
    (hresult : m.result = some (.ok result)) :
    m.consumed <+: captures actions ∧
      result.packets = (parsed m.consumed).filter filterFn ∧
      result.discardedPackets =
        min ((parsed m.consumed).countP fun packet => !filterFn packet) usizeMax ∧
      m.calls.map Prod.fst = result.packets ∧
      m.calls.map Prod.snd = answers shouldContinueFn conditionState result.packets ∧
      (∀ call ∈ m.calls.dropLast, call.2 = true) ∧
      (m.ending = some .stopped →
        ∃ captured, m.atStop = some captured ∧ captured <+: m.consumed) := by
  have hinv : MonitorInv filterFn shouldContinueFn conditionState m :=
    run_preserves (MonitorInv.step conditionState) actions (.initial conditionState) hrun
  obtain rfl : result = ⟨m.packets, m.discardedPackets⟩ := by
    obtain ⟨ending, _, hok⟩ := Option.map_eq_some_iff.mp hresult
    cases ending <;> simp_all
  refine ⟨⟨m.available, ?_⟩, hinv.packets, hinv.discarded, hinv.called, hinv.answered,
    hinv.before, hinv.stopped⟩
  simpa [PacketMonitor.start] using run_captures actions hrun

/-- A packet to the given port. -/
def packetTo (port : Nat) : ParsedPacket :=
  ⟨⟨.v4 fun _ => 1, 40000⟩, ⟨.v4 fun _ => 2, port⟩, Ip.udp⟩

/-- Two packets are there when the stop is sent, one of them of no interest. -/
def stopWithTwoPending : List MonitorAction :=
  [.poll, .capture (.packet (packetTo 53)), .capture .ignored, .capture (.packet (packetTo 80)),
    .stop, .timeout, .poll, .poll, .poll, .poll]

theorem stopWithTwoPending_accounts :
    ∃ m : PacketMonitor Unit,
      run (PacketMonitor.step (fun packet => packet.destination.port = 53) fun _ _ => (true, ()))
        (.start ()) stopWithTwoPending = some m ∧
      m.ending = some .stopped ∧ m.result = some (.ok ⟨[packetTo 53], 1⟩) ∧
      ∃ captured, m.atStop = some captured ∧ captured <+: m.consumed := by
  have hrun : (run (PacketMonitor.step (fun packet => packet.destination.port = 53)
      fun _ _ => (true, ())) (.start ()) stopWithTwoPending).map
        (fun m : PacketMonitor Unit => (m.ending, m.packets, m.discardedPackets)) =
      some (some .stopped, [packetTo 53], 1) := by decide
  obtain ⟨m, hm, hfields⟩ := Option.map_eq_some_iff.mp hrun
  obtain ⟨hending, hpackets, hdiscarded⟩ : m.ending = some .stopped ∧
      m.packets = [packetTo 53] ∧ m.discardedPackets = 1 := by simpa using hfields
  have hresult : m.result = some (.ok ⟨[packetTo 53], 1⟩) := by
    simp [PacketMonitor.result, hending, hpackets, hdiscarded]
  have haccounts := monitor_accounts _ _ () stopWithTwoPending m _ hm hresult
  exact ⟨m, hm, hending, hresult, haccounts.2.2.2.2.2.2 hending⟩

/-- A monitor whose filter accepts nothing. -/
def rejectAll : PacketMonitor Unit → MonitorAction → Option (PacketMonitor Unit) :=
  PacketMonitor.step (fun _ => false) fun _ _ => (true, ())

/-- The monitor after it has discarded `n` packets. -/
def discardedMany (n : Nat) : PacketMonitor Unit :=
  {PacketMonitor.start () with
    receiving := true, discardedPackets := min n usizeMax
    consumed := List.replicate n (.packet (packetTo 80))}

theorem run_discards (n k : Nat) :
    run rejectAll (discardedMany k)
        (List.replicate n [.capture (.packet (packetTo 80)), .poll]).flatten =
      some (discardedMany (k + n)) := by
  induction n generalizing k with
  | zero => rfl
  | succ n ih =>
      have hone : run rejectAll (discardedMany k) [.capture (.packet (packetTo 80)), .poll] =
          some (discardedMany (k + 1)) := by
        have hcount : min (min k usizeMax + 1) usizeMax = min (k + 1) usizeMax := by omega
        simp [run, rejectAll, PacketMonitor.step, discardedMany, PacketMonitor.start,
          PacketMonitor.poll, PacketMonitor.receive, hcount, List.replicate_succ']
      rw [List.replicate_succ, List.flatten_cons, run_append, hone, Option.bind_some, ih]
      congr 2
      omega

/-- The actions in which `n` packets are discarded before the monitor is stopped. -/
def discardThenStop (n : Nat) : List MonitorAction :=
  .poll :: ((List.replicate n [MonitorAction.capture (.packet (packetTo 80)), .poll]).flatten ++
    [MonitorAction.stop, .poll])

theorem run_discardThenStop (n : Nat) :
    ∃ m, run rejectAll (.start ()) (discardThenStop n) = some m ∧
      m.result = some (.ok ⟨[], min n usizeMax⟩) ∧
      (parsed m.consumed).countP (fun packet => !(fun _ => false) packet) = n := by
  have hstart : rejectAll (.start ()) .poll = some (discardedMany 0) := rfl
  have hparsed : ∀ n, parsed (List.replicate n (.packet (packetTo 80))) =
      List.replicate n (packetTo 80) := by
    intro n
    simp [parsed]
  rw [discardThenStop, run, hstart, Option.bind_some, run_append, run_discards, Option.bind_some,
    Nat.zero_add]
  refine ⟨{discardedMany n with
    atStop := some (List.replicate n (.packet (packetTo 80)) ++ []), ending := some .stopped},
    rfl, rfl, ?_⟩
  simp [discardedMany, hparsed]

/-- When one more packet is discarded than a `usize` can count, the number that is
returned is one too small. -/
theorem discarded_saturates :
    ∃ actions m result, run rejectAll (.start ()) actions = some m ∧
      m.result = some (.ok result) ∧
      result.discardedPackets ≠
        (parsed m.consumed).countP fun packet => !(fun _ => false) packet := by
  obtain ⟨m, hrun, hresult, hcount⟩ := run_discardThenStop (usizeMax + 1)
  refine ⟨discardThenStop (usizeMax + 1), m, _, hrun, hresult, ?_⟩
  rw [hcount]
  change min (usizeMax + 1) usizeMax ≠ usizeMax + 1
  omega

end MullvadAppTests.TestManager
