import MullvadAppTests.TestRpc.ForwardMessages

/-!
What one step of an end can do, said once: `Move` lists the transitions of the
loop and of the application by what they change. The invariants of an end are
kept by every move. They relate the histories of the four channels: what was
taken from a local channel is what was emitted on the line, and what was
received from the line is what was delivered to the local channels, up to the
one item that the loop is working on.
-/

namespace MullvadAppTests.TestRpc

open Lib.LengthDelimited Lib.Incremental

section Moves

variable {T S : Type} (out : Json T) (into : Json S) (handshakeFwd : Bool)

inductive Move (e : Endpoint T S) : Endpoint T S → Bytes → Prop
  | offerRunner (message : T) :
      Move e {e with runnerQueue := e.runnerQueue ++ [message]
                     runnerSent := e.runnerSent ++ [message]} []
  | closeRunner : Move e {e with runnerClosed := true} []
  | offerDaemon (payload : Bytes) (hopen : e.daemonClosed = false) :
      Move e {e with daemonQueue := e.daemonQueue ++ [payload]
                     daemonOffered := e.daemonOffered ++ [payload]} []
  | closeDaemon : Move e {e with daemonClosed := true} []
  | wait (serial : SerialStream) (hphase : e.phase = .selecting) : Move e {e with serial} []
  | frame (serial : SerialStream) (f : Frame) (hphase : e.phase = .selecting) :
      Move e {e with serial, received := e.received ++ [f]
                     phase := .performing (onSelected out into handshakeFwd
                       (.serial (some (.ok f))))} []
  | halt (serial : SerialStream) (result : Except ForwardError Unit)
      (hphase : e.phase = .selecting) :
      Move e {e with serial, phase := .performing (.stop result)} []
  | shake (serial : SerialStream) (hphase : e.phase = .selecting) (hsome : 0 < e.handshakes) :
      Move e {e with serial, handshakes := e.handshakes - 1
                     phase := .performing (.sendSerial .handshake)} []
  | runner (serial : SerialStream) (message : T) (rest : List T)
      (hphase : e.phase = .selecting) (hnone : e.handshakes = 0)
      (hqueue : e.runnerQueue = message :: rest) :
      Move e {e with serial, runnerQueue := rest
                     phase := .performing (onSelected out into handshakeFwd
                       (.runner (some (.ok message))))} []
  | daemon (serial : SerialStream) (payload : Bytes) (rest : List Bytes)
      (hphase : e.phase = .selecting) (hnone : e.handshakes = 0)
      (hqueue : e.daemonQueue = payload :: rest) :
      Move e {e with serial, daemonQueue := rest
                     phase := .performing (.sendSerial (.daemonRpc payload))} []
  | daemonEnd (serial : SerialStream) (hphase : e.phase = .selecting) (hnone : e.handshakes = 0)
      (hqueue : e.daemonQueue = []) (hclosed : e.daemonClosed = true) :
      Move e {e with serial, phase := .performing .closeDaemon} []
  | deliverRunner (message : S) (hphase : e.phase = .performing (.sendRunner message)) :
      Move e {e with phase := .selecting, runnerDelivered := e.runnerDelivered ++ [message]} []
  | deliverDaemon (data : Bytes) (hphase : e.phase = .performing (.sendDaemon data)) :
      Move e {e with phase := .selecting, daemonDelivered := e.daemonDelivered ++ [data]} []
  | forwardShake (hphase : e.phase = .performing .forwardHandshake) :
      Move e {e with phase := .selecting} []
  | queueShake (hphase : e.phase = .performing .queueHandshake) :
      Move e {e with phase := .selecting, handshakes := e.handshakes + 1} []
  | emit (f : Frame) (hphase : e.phase = .performing (.sendSerial f)) (hfits : f.Fits) :
      Move e {e with phase := .selecting, emitted := e.emitted ++ [f]} f.wire
  | emitLast (hphase : e.phase = .performing .closeDaemon) :
      Move e {e with phase := .returned (.ok ()), emitted := e.emitted ++ [.daemonRpc []]}
        (Frame.daemonRpc []).wire
  | returns (op : Op S) (result : Except ForwardError Unit)
      (hphase : e.phase = .performing op) :
      Move e {e with phase := .returned result} []

variable {out into handshakeFwd}

theorem pollRunner_message {e : Endpoint T S} {fault : Option Fault} {message : T}
    (h : e.pollRunner fault = some (some (.ok message))) :
    ∃ rest, e.runnerQueue = message :: rest := by
  unfold Endpoint.pollRunner at h
  split at h
  · cases h
  · split at h
    · next first rest hqueue =>
      cases h
      exact ⟨rest, hqueue⟩
    · split at h
      · cases h
      · cases h

theorem pollDaemon_payload {e : Endpoint T S} {fault : Option Fault} {payload : Bytes}
    (h : e.pollDaemon fault = some (some (.ok payload))) :
    ∃ rest, e.daemonQueue = payload :: rest := by
  unfold Endpoint.pollDaemon at h
  split at h
  · cases h
  · split at h
    · next first rest hqueue =>
      cases h
      exact ⟨rest, hqueue⟩
    · split at h
      · cases h
      · cases h

theorem pollDaemon_end {e : Endpoint T S} {fault : Option Fault}
    (h : e.pollDaemon fault = some none) : e.daemonQueue = [] ∧ e.daemonClosed = true := by
  unfold Endpoint.pollDaemon at h
  split at h
  · cases h
  · split at h
    · cases h
    · next hqueue =>
      split at h
      · next hclosed => exact ⟨hqueue, hclosed⟩
      · cases h

theorem pollLocal_move (e : Endpoint T S) (serial : SerialStream) (fault : Option Fault)
    (selected : Selected T) (hphase : e.phase = .selecting)
    (h : e.pollLocal fault = some selected) :
    Move out into handshakeFwd e
      {({e with serial} : Endpoint T S).take selected with
        phase := .performing (onSelected out into handshakeFwd selected)} [] := by
  unfold Endpoint.pollLocal at h
  by_cases hsome : 0 < e.handshakes
  · rw [if_pos hsome] at h
    cases h
    exact Move.shake serial hphase hsome
  have hnone : e.handshakes = 0 := by omega
  rw [if_neg hsome] at h
  cases hrunner : e.pollRunner fault with
  | some item =>
      rw [hrunner] at h
      cases h
      rcases item with _ | err | message
      · exact Move.halt serial (.ok ()) hphase
      · exact Move.halt serial _ hphase
      · obtain ⟨rest, hqueue⟩ := pollRunner_message hrunner
        have hmove : Move out into handshakeFwd e _ [] :=
          Move.runner serial message rest hphase hnone hqueue
        simpa [Endpoint.take, hqueue] using hmove
  | none =>
      rw [hrunner] at h
      obtain ⟨item, hdaemon, rfl⟩ := Option.map_eq_some_iff.mp h
      rcases item with _ | err | payload
      · obtain ⟨hqueue, hclosed⟩ := pollDaemon_end hdaemon
        exact Move.daemonEnd serial hphase hnone hqueue hclosed
      · exact Move.halt serial _ hphase
      · obtain ⟨rest, hqueue⟩ := pollDaemon_payload hdaemon
        have hmove : Move out into handshakeFwd e _ [] :=
          Move.daemon serial payload rest hphase hnone hqueue
        simpa [Endpoint.take, hqueue, onSelected] using hmove

theorem poll_move (e next : Endpoint T S) (reads : List (Except IoError Bytes))
    (fault : Option Fault) (hphase : e.phase = .selecting)
    (h : e.poll out into handshakeFwd reads fault = some next) :
    Move out into handshakeFwd e next [] := by
  unfold Endpoint.poll at h
  rcases hpoll : e.serial.pollNext reads with _ | ⟨poll, serial⟩
  · rw [hpoll] at h
    cases h
  rw [hpoll] at h
  cases poll with
  | ready item =>
      simp only [Option.some.injEq] at h
      subst h
      rcases item with _ | err | f
      · exact Move.halt serial (.ok ()) hphase
      · exact Move.halt serial _ hphase
      · exact Move.frame serial f hphase
  | pending =>
      simp only at h
      cases hlocal : e.pollLocal fault with
      | none =>
          rw [hlocal, Option.some.injEq] at h
          subst h
          exact Move.wait serial hphase
      | some selected =>
          rw [hlocal, Option.some.injEq] at h
          subst h
          exact pollLocal_move e serial fault selected hphase hlocal

theorem finish_move (e : Endpoint T S) (op : Op S) (ok : Bool)
    (hphase : e.phase = .performing op) :
    Move out into handshakeFwd e (e.finish op ok).1 (e.finish op ok).2 := by
  cases op with
  | sendRunner message =>
      cases ok with
      | false => exact Move.returns _ _ hphase
      | true => exact Move.deliverRunner message hphase
  | sendDaemon data =>
      cases ok with
      | false => exact Move.returns _ _ hphase
      | true => exact Move.deliverDaemon data hphase
  | forwardHandshake => exact Move.forwardShake hphase
  | queueHandshake => exact Move.queueShake hphase
  | sendSerial f =>
      by_cases hfits : f.Fits
      · simp only [Endpoint.finish, encode_of_fits f hfits]
        cases ok with
        | false => exact Move.returns _ _ hphase
        | true => exact Move.emit f hphase hfits
      · simp only [Endpoint.finish, encode_of_not_fits f hfits]
        exact Move.returns _ _ hphase
  | closeDaemon =>
      simp only [Endpoint.finish, encode_of_fits (.daemonRpc []) (by decide)]
      cases ok with
      | false => exact Move.returns _ _ hphase
      | true => exact Move.emitLast hphase
  | stop result => exact Move.returns _ _ hphase

theorem step_move (e next : Endpoint T S) (bytes : Bytes) (a : EndAction T)
    (h : e.step out into handshakeFwd a = some (next, bytes)) :
    Move out into handshakeFwd e next bytes := by
  cases a with
  | offerRunner message =>
      simp only [Endpoint.step] at h
      split at h
      · cases h
      · cases h
        exact Move.offerRunner message
  | closeRunner =>
      cases h
      exact Move.closeRunner
  | offerDaemon payload =>
      simp only [Endpoint.step] at h
      split at h
      · cases h
      · next hopen =>
        cases h
        exact Move.offerDaemon payload (by simpa using hopen)
  | closeDaemon =>
      cases h
      exact Move.closeDaemon
  | poll reads fault =>
      simp only [Endpoint.step] at h
      split at h
      · next hphase =>
        obtain ⟨after, hpoll, heq⟩ := Option.map_eq_some_iff.mp h
        cases heq
        exact poll_move e next reads fault hphase hpoll
      · cases h
  | complete ok =>
      simp only [Endpoint.step] at h
      split at h
      · next op hphase =>
        have hpair := Option.some.inj h
        have hmove : Move out into handshakeFwd e (e.finish op ok).1 (e.finish op ok).2 :=
          finish_move e op ok hphase
        rwa [hpair] at hmove
      · cases h

/-! ### Invariants of an end -/

def Frame.runner? : Frame → Option Bytes
  | .testRunner data => some data
  | .handshake | .daemonRpc _ => none

def Frame.daemon? : Frame → Option Bytes
  | .daemonRpc data => some data
  | .handshake | .testRunner _ => none

def runnerPayloads (frames : List Frame) : List Bytes := frames.filterMap Frame.runner?

def daemonPayloads (frames : List Frame) : List Bytes := frames.filterMap Frame.daemon?

/-- The frame the loop is about to put on the line. -/
@[simp] def Op.emitting : Op S → List Frame
  | .sendSerial f => [f]
  | .sendRunner _ | .sendDaemon _ | .forwardHandshake | .queueHandshake
  | .closeDaemon | .stop _ => []

/-- The message the loop is about to hand to the tarpc channel. -/
@[simp] def Op.deliveringRunner : Op S → List S
  | .sendRunner message => [message]
  | .sendDaemon _ | .sendSerial _ | .forwardHandshake | .queueHandshake
  | .closeDaemon | .stop _ => []

/-- The payload the loop is about to hand to the daemon channel. -/
@[simp] def Op.deliveringDaemon : Op S → List Bytes
  | .sendDaemon data => [data]
  | .sendRunner _ | .sendSerial _ | .forwardHandshake | .queueHandshake
  | .closeDaemon | .stop _ => []

/-- Handshake tokens the loop is about to queue. -/
@[simp] def Op.queueing : Op S → Nat
  | .queueHandshake => 1
  | .sendRunner _ | .sendDaemon _ | .sendSerial _ | .forwardHandshake
  | .closeDaemon | .stop _ => 0

/-- The loop goes on after the operation. Closing the daemon channel counts,
since it still sends a frame. -/
@[simp] def Op.Live : Op S → Prop
  | .stop _ => False
  | .sendRunner _ | .sendDaemon _ | .sendSerial _ | .forwardHandshake
  | .queueHandshake | .closeDaemon => True

/-- Something about the operation that is being performed, if there is one. -/
@[simp] def Phase.during {α : Type*} (f : Op S → α) (idle : α) : Phase S → α
  | .performing op => f op
  | .selecting | .returned _ => idle

@[simp] def Phase.Live : Phase S → Prop
  | .selecting => True
  | .performing op => op.Live
  | .returned _ => False

/-- What has gone to the line from the tarpc channel, in order: the messages
sent, serialised, up to those still queued. -/
def RunnerOut (out : Json T) (e : Endpoint T S) : Prop :=
  ∃ rest, e.runnerSent.map out.toVec =
      (runnerPayloads (e.emitted ++ e.phase.during Op.emitting [])).map .ok ++ rest ∧
    (e.phase.Live → rest = e.runnerQueue.map out.toVec)

/-- What has gone to the line from the daemon channel: the payloads offered, up
to those still queued, and one empty payload at the end if the channel was
closed. -/
def DaemonOut (e : Endpoint T S) : Prop :=
  ((∃ rest, e.daemonOffered =
        daemonPayloads (e.emitted ++ e.phase.during Op.emitting []) ++ rest ∧
      (e.phase.Live → rest = e.daemonQueue)) ∨
    (e.daemonClosed = true ∧ daemonPayloads e.emitted = e.daemonOffered ++ [[]] ∧
      ¬ e.phase.Live ∧ e.phase.during Op.emitting [] = [])) ∧
  (e.phase = .performing .closeDaemon → e.daemonClosed = true ∧ e.daemonQueue = [])

def RunnerIn (into : Json S) (e : Endpoint T S) : Prop :=
  ∃ rest, (runnerPayloads e.received).map into.fromSlice =
      (e.runnerDelivered ++ e.phase.during Op.deliveringRunner []).map .ok ++ rest ∧
    (e.phase.Live → rest = [])

def DaemonIn (e : Endpoint T S) : Prop :=
  ∃ rest, daemonPayloads e.received =
      e.daemonDelivered ++ e.phase.during Op.deliveringDaemon [] ++ rest ∧
    (e.phase.Live → rest = [])

/-- Handshakes sent, being sent and queued: the one from the start, and on the
server one for every handshake received. -/
def Handshakes (handshakeFwd : Bool) (e : Endpoint T S) : Prop :=
  (e.emitted ++ e.phase.during Op.emitting []).count .handshake +
      e.phase.during Op.queueing 0 + e.handshakes ≤
    1 + if handshakeFwd then 0 else e.received.count .handshake

/-- The first frame is a handshake: until it is sent, the queued handshake wins
every select against the local channels. -/
def FirstHandshake (e : Endpoint T S) : Prop :=
  e.emitted.head? = some .handshake ∨
  (e.emitted = [] ∧
    (¬ e.phase.Live ∨ e.phase.during Op.emitting [] = [.handshake] ∨
      (0 < e.handshakes ∧ e.phase.during Op.emitting [] = [] ∧
        e.phase ≠ .performing .closeDaemon)))

@[simp] theorem runnerPayloads_append (fs gs : List Frame) :
    runnerPayloads (fs ++ gs) = runnerPayloads fs ++ runnerPayloads gs :=
  List.filterMap_append

@[simp] theorem runnerPayloads_cons (f : Frame) (fs : List Frame) :
    runnerPayloads (f :: fs) = f.runner?.toList ++ runnerPayloads fs := by
  cases f <;> rfl

@[simp] theorem runnerPayloads_nil : runnerPayloads [] = [] := rfl

@[simp] theorem daemonPayloads_append (fs gs : List Frame) :
    daemonPayloads (fs ++ gs) = daemonPayloads fs ++ daemonPayloads gs :=
  List.filterMap_append

@[simp] theorem daemonPayloads_cons (f : Frame) (fs : List Frame) :
    daemonPayloads (f :: fs) = f.daemon?.toList ++ daemonPayloads fs := by
  cases f <;> rfl

@[simp] theorem daemonPayloads_nil : daemonPayloads [] = [] := rfl

/-- A frame from the line never goes back to the line. -/
@[simp] theorem emitting_serial (item : Option (Except IoError Frame)) :
    (onSelected out into handshakeFwd (.serial item)).emitting = [] := by
  rcases item with _ | e | (_ | data | data)
  · rfl
  · rfl
  · cases handshakeFwd <;> rfl
  · simp only [onSelected]
    cases into.fromSlice data <;> rfl
  · rfl

theorem serial_ne_closeDaemon (item : Option (Except IoError Frame)) :
    onSelected out into handshakeFwd (.serial item) ≠ .closeDaemon := by
  rcases item with _ | e | (_ | data | data)
  · simp [onSelected]
  · simp [onSelected]
  · cases handshakeFwd <;> simp [onSelected]
  · simp only [onSelected]
    cases into.fromSlice data <;> simp
  · simp [onSelected]

theorem runnerOut_move {e next : Endpoint T S} {bytes : Bytes}
    (hmove : Move out into handshakeFwd e next bytes) (h : RunnerOut out e) :
    RunnerOut out next := by
  obtain ⟨rest, hsent, hlive⟩ := h
  cases hmove
  case offerRunner message =>
    refine ⟨rest ++ [out.toVec message], by simp [hsent], ?_⟩
    intro hl
    simp [hlive hl]
  case runner serial message queue hphase hnone hqueue =>
    have hrest := hlive (by simp [hphase])
    rw [hqueue, List.map_cons] at hrest
    cases hvec : out.toVec message with
    | error err =>
        refine ⟨rest, ?_, ?_⟩
        · simpa [onSelected, hvec, hphase] using hsent
        · intro hl
          simp [onSelected, hvec] at hl
    | ok serialized =>
        refine ⟨queue.map out.toVec, ?_, fun _ => rfl⟩
        rw [hvec] at hrest
        simp [onSelected, hvec, hphase, hsent, hrest, Frame.runner?]
  case frame serial f hphase =>
    refine ⟨rest, ?_, fun _ => hlive (by simp [hphase])⟩
    simpa only [hphase, Phase.during, emitting_serial] using hsent
  case returns op result hphase =>
    -- a frame that is not sent any more counts as not taken
    refine ⟨(runnerPayloads (e.phase.during Op.emitting [])).map .ok ++ rest, ?_, fun hl => hl.elim⟩
    simpa using hsent
  all_goals
    refine ⟨rest, ?_, ?_⟩ <;> simp_all [Frame.runner?]

theorem daemonOut_move {e next : Endpoint T S} {bytes : Bytes}
    (hmove : Move out into handshakeFwd e next bytes) (h : DaemonOut e) : DaemonOut next := by
  obtain ⟨hflow, hclosing⟩ := h
  refine ⟨?_, ?_⟩
  · rcases hflow with ⟨rest, hoffered, hlive⟩ | ⟨hclosed, hlast, hdead, hidle⟩
    · cases hmove
      case offerDaemon payload hopen =>
        refine Or.inl ⟨rest ++ [payload], by simp [hoffered], ?_⟩
        intro hl
        simp [hlive hl]
      case emitLast hphase =>
        obtain ⟨hclosed, hqueue⟩ := hclosing hphase
        have hrest : rest = [] := by simp [hlive (by simp [hphase]), hqueue]
        refine Or.inr ⟨hclosed, ?_, by simp, by simp⟩
        simp [hoffered, hrest, hphase, Frame.daemon?]
      case frame serial f hphase =>
        refine Or.inl ⟨rest, ?_, fun _ => hlive (by simp [hphase])⟩
        simpa only [hphase, Phase.during, emitting_serial] using hoffered
      case returns op result hphase =>
        refine Or.inl ⟨daemonPayloads (e.phase.during Op.emitting []) ++ rest, ?_,
          fun hl => hl.elim⟩
        simpa using hoffered
      case daemon serial payload queue hphase hnone hqueue =>
        have hrest := hlive (by simp [hphase])
        refine Or.inl ⟨queue, ?_, fun _ => rfl⟩
        simp [hoffered, hrest, hqueue, hphase, Frame.daemon?]
      case runner serial message queue hphase hnone hqueue =>
        refine Or.inl ⟨rest, ?_, fun _ => hlive (by simp [hphase])⟩
        cases hvec : out.toVec message with
        | error err => simpa [onSelected, hvec, hphase] using hoffered
        | ok serialized => simpa [onSelected, hvec, hphase, Frame.daemon?] using hoffered
      all_goals
        refine Or.inl ⟨rest, ?_, ?_⟩ <;> simp_all [Frame.daemon?]
    · right
      cases hmove <;> simp_all
  · cases hmove
    case runner serial message queue hphase hnone hqueue =>
      intro hlast
      cases hvec : out.toVec message <;> simp [onSelected, hvec] at hlast
    all_goals simp_all [serial_ne_closeDaemon]

theorem runnerIn_move {e next : Endpoint T S} {bytes : Bytes}
    (hmove : Move out into handshakeFwd e next bytes) (h : RunnerIn into e) :
    RunnerIn into next := by
  obtain ⟨rest, hgot, hlive⟩ := h
  cases hmove
  case frame serial f hphase =>
    have hrest := hlive (by simp [hphase])
    rcases f with _ | data | data
    · refine ⟨[], ?_, fun _ => rfl⟩
      cases handshakeFwd <;> simp_all [onSelected, Frame.runner?]
    · cases hslice : into.fromSlice data with
      | error err =>
          refine ⟨[.error err], ?_, fun hl => absurd hl (by simp [onSelected, hslice])⟩
          simp_all [onSelected, Frame.runner?]
      | ok message =>
          refine ⟨[], ?_, fun _ => rfl⟩
          simp_all [onSelected, Frame.runner?]
    · refine ⟨[], ?_, fun _ => rfl⟩
      simp_all [onSelected, Frame.runner?]
  case runner serial message queue hphase hnone hqueue =>
    refine ⟨rest, ?_, fun _ => hlive (by simp [hphase])⟩
    cases hvec : out.toVec message <;> simp_all [onSelected]
  case returns op result hphase =>
    refine ⟨(e.phase.during Op.deliveringRunner []).map .ok ++ rest, ?_, fun hl => hl.elim⟩
    simpa using hgot
  all_goals
    refine ⟨rest, ?_, ?_⟩ <;> simp_all

theorem daemonIn_move {e next : Endpoint T S} {bytes : Bytes}
    (hmove : Move out into handshakeFwd e next bytes) (h : DaemonIn e) : DaemonIn next := by
  obtain ⟨rest, hgot, hlive⟩ := h
  cases hmove
  case frame serial f hphase =>
    have hrest := hlive (by simp [hphase])
    refine ⟨[], ?_, fun _ => rfl⟩
    rcases f with _ | data | data
    · cases handshakeFwd <;> simp_all [onSelected, Frame.daemon?]
    · cases hslice : into.fromSlice data <;> simp_all [onSelected, Frame.daemon?]
    · simp_all [onSelected, Frame.daemon?]
  case runner serial message queue hphase hnone hqueue =>
    refine ⟨rest, ?_, fun _ => hlive (by simp [hphase])⟩
    cases hvec : out.toVec message <;> simp_all [onSelected]
  case returns op result hphase =>
    refine ⟨e.phase.during Op.deliveringDaemon [] ++ rest, ?_, fun hl => hl.elim⟩
    simpa using hgot
  all_goals
    refine ⟨rest, ?_, ?_⟩ <;> simp_all

theorem handshakes_move {e next : Endpoint T S} {bytes : Bytes}
    (hmove : Move out into handshakeFwd e next bytes) (h : Handshakes handshakeFwd e) :
    Handshakes handshakeFwd next := by
  unfold Handshakes at h ⊢
  cases hmove
  case frame serial f hphase =>
    simp only [hphase, Phase.during, emitting_serial] at h ⊢
    rcases f with _ | data | data
    · cases handshakeFwd <;> simp_all [onSelected]
      omega
    · cases hslice : into.fromSlice data <;> simp_all [onSelected]
    · simp_all [onSelected]
  case runner serial message queue hphase hnone hqueue =>
    cases hvec : out.toVec message <;> simp_all [onSelected]
  case shake serial hphase hsome =>
    simp_all
    omega
  case queueShake hphase =>
    simp_all
    omega
  case returns op result hphase =>
    simp only [Phase.during, List.append_nil, List.count_append] at h ⊢
    omega
  all_goals simp_all

theorem firstHandshake_move {e next : Endpoint T S} {bytes : Bytes}
    (hmove : Move out into handshakeFwd e next bytes) (h : FirstHandshake e) :
    FirstHandshake next := by
  rcases h with hhead | ⟨hnil, hcases⟩
  · left
    cases hmove <;> simp_all [List.head?_append]
  · cases hmove
    case frame serial f hphase =>
      simp only [hphase, Phase.Live, Phase.during] at hcases
      refine Or.inr ⟨hnil, Or.inr (Or.inr ⟨?_, emitting_serial _, ?_⟩)⟩
      · simpa using hcases
      · simpa using serial_ne_closeDaemon _
    case halt serial result hphase => exact Or.inr ⟨hnil, Or.inl (by simp)⟩
    case returns op result hphase => exact Or.inr ⟨hnil, Or.inl (by simp)⟩
    case emit f hphase hfits => exact Or.inl (by simp_all)
    all_goals
      right
      simp_all

variable (out into handshakeFwd) in
/-- All that is known of one end without looking at the other. -/
structure EndInv (e : Endpoint T S) : Prop where
  runnerOut : RunnerOut out e
  daemonOut : DaemonOut e
  runnerIn : RunnerIn into e
  daemonIn : DaemonIn e
  handshakes : Handshakes handshakeFwd e
  first : FirstHandshake e

theorem EndInv.initial (hasConnected : Bool) :
    EndInv out into handshakeFwd (Endpoint.new T S hasConnected) where
  runnerOut := ⟨[], rfl, fun _ => rfl⟩
  daemonOut := ⟨Or.inl ⟨[], rfl, fun _ => rfl⟩, by simp [Endpoint.new]⟩
  runnerIn := ⟨[], rfl, fun _ => rfl⟩
  daemonIn := ⟨[], rfl, fun _ => rfl⟩
  handshakes := by simp [Handshakes, Endpoint.new]
  first := by simp [FirstHandshake, Endpoint.new]

theorem EndInv.move {e next : Endpoint T S} {bytes : Bytes}
    (h : EndInv out into handshakeFwd e) (hmove : Move out into handshakeFwd e next bytes) :
    EndInv out into handshakeFwd next where
  runnerOut := runnerOut_move hmove h.runnerOut
  daemonOut := daemonOut_move hmove h.daemonOut
  runnerIn := runnerIn_move hmove h.runnerIn
  daemonIn := daemonIn_move hmove h.daemonIn
  handshakes := handshakes_move hmove h.handshakes
  first := firstHandshake_move hmove h.first

/-- The bytes a step puts on the line are the encodings of the frames it adds
to the history. -/
theorem Move.emits {e next : Endpoint T S} {bytes : Bytes}
    (hmove : Move out into handshakeFwd e next bytes) :
    (bytes = [] ∧ next.emitted = e.emitted) ∨
    (∃ f, f.Fits ∧ bytes = f.wire ∧ next.emitted = e.emitted ++ [f]) := by
  cases hmove with
  | emit f hphase hfits => exact Or.inr ⟨f, hfits, rfl, rfl⟩
  | emitLast hphase => exact Or.inr ⟨.daemonRpc [], by decide, rfl, rfl⟩
  | _ => exact Or.inl ⟨rfl, rfl⟩

end Moves

end MullvadAppTests.TestRpc
