import MullvadAppTests.Lib.Transition
import MullvadAppTests.TestManager.ManagerMoves
import MullvadAppTests.TestRpc.CodecStream
import MullvadAppTests.TestRpc.ForwardMessages

/-!
The duplex stream between the client's `forward_messages` and the loop of
`new_rpc_client`: two pipes of `DAEMON_CHANNEL_BUF_SIZE` bytes. A framed send
puts a header of four bytes and the message into its pipe, as far as there is
room, and is complete when nothing is left. A loop that is suspended in a send
does not read, so two sends that do not fit wait for each other.

The forwarder may read from its pipe whenever it selects; what it has decoded is
offered to the select as the next item of the daemon channel. The tags of
messages are not used here.
-/

namespace MullvadAppTests.TestManager

open Lib Lib.LengthDelimited Lib.Transition TestRpc

/-- Both loops and the stream between them. `forwarderOut` and `managerOut` are
the bytes of a send in progress that are not in the pipe yet. -/
structure DaemonChannel (C R : Type) where
  forwarder : Endpoint C R
  forwarderIn : FramedRead
  forwarderOut : Bytes
  manager : Manager
  managerIn : FramedRead
  managerOut : Bytes
  toManager : Pipe UInt8
  toForwarder : Pipe UInt8

def DaemonChannel.new (C R : Type) : DaemonChannel C R where
  forwarder := .new C R false
  forwarderIn := .new
  forwarderOut := []
  manager := .new
  managerIn := .new
  managerOut := []
  toManager := .new
  toForwarder := .new

inductive ChannelAction (C : Type) where
  | forwarder (a : EndAction C)
  | forwarderReads (n : Nat)
  | forwarderPuts (n : Nat)
  | manager (a : ManagerAction)
  | managerReads (n : Nat)
  | managerPuts (n : Nat)

/-- The message that the loop is sending on the stream. -/
def sendingDaemon {S : Type} : Phase S → Option Bytes
  | .performing (.sendDaemon data) => some data
  | _ => none

def sendingUp : ManagerPhase → Option Bytes
  | .sending data => some data
  | _ => none

/-- What is left to put into the pipe when a loop goes from sending `before` to
sending `after`. -/
def leftOver (before after : Option Bytes) (out : Bytes) : Bytes :=
  match before, after with
  | _, none => []
  | none, some data => framed data
  | some _, some _ => out

/-- A send succeeds when everything is in the pipe. It fails when the other end
is gone or the message is too long. -/
def sendMay (pipe : Pipe UInt8) (out data : Bytes) (ok : Bool) : Bool :=
  if ok then out = [] ∧ data.length ≤ maxFrameLength
  else pipe.closed ∨ maxFrameLength < data.length

variable {C R : Type} (jsonC : Json C) (jsonR : Json R)

namespace DaemonChannel

/-- `framed_transport.next()` polled with what has been read. -/
def managerNext (s : DaemonChannel C R) :
    Option (Option (Except IoError Message)) × FramedRead :=
  let (item, managerIn) := s.managerIn.next (s.toManager.closed ∧ s.toManager.pending = [])
  (item.map fun item => item.map fun data => data.map (Message.mk 0), managerIn)

/-- The daemon channel of the forwarder is fed by the stream alone. -/
def forwarderMay (s : DaemonChannel C R) (a : EndAction C) : Bool :=
  match a, s.forwarder.phase with
  | .offerDaemon _, _ | .closeDaemon, _ => false
  | .complete ok, .performing (.sendDaemon data) => sendMay s.toManager s.forwarderOut data ok
  | _, _ => true

def managerMay (s : DaemonChannel C R) (a : ManagerAction) : Bool :=
  match a, s.manager.phase with
  | .clear ready, _ => ready = s.managerNext.1.isSome
  | .pollTransport item, _ => item = s.managerNext.1
  | .sent ok, .sending data => sendMay s.toForwarder s.managerOut data ok
  | _, _ => true

/-- An end of the stream that is dropped closes both pipes. -/
def dropIf (gone : Bool) (s : DaemonChannel C R) : DaemonChannel C R :=
  if gone then {s with toManager := s.toManager.close, toForwarder := s.toForwarder.close} else s

def afterForwarder (s : DaemonChannel C R) (forwarder : Endpoint C R) : DaemonChannel C R :=
  let out := leftOver (sendingDaemon s.forwarder.phase) (sendingDaemon forwarder.phase)
    s.forwarderOut
  dropIf (match forwarder.phase with | .returned _ => true | _ => false)
    {s with forwarder, forwarderOut := out}

def afterManager (s : DaemonChannel C R) (a : ManagerAction) (manager : Manager) :
    DaemonChannel C R :=
  let out := leftOver (sendingUp s.manager.phase) (sendingUp manager.phase) s.managerOut
  let managerIn :=
    match a with
    | .clear _ | .pollTransport _ => s.managerNext.2
    | _ => s.managerIn
  dropIf (manager.phase = .stopped) {s with manager, managerOut := out, managerIn}

/-- The forwarder reads `n` bytes, or none, and offers the next item to its
select. An error of the stream reaches the select as the fault of a poll. -/
def forwarderReads (s : DaemonChannel C R) (n : Nat) : Option (DaemonChannel C R) :=
  match s.forwarder.phase with
  | .selecting =>
      (if n = 0 then some ([], s.toForwarder) else s.toForwarder.read n).bind
        fun (chunk, toForwarder) =>
          let ended := toForwarder.closed ∧ toForwarder.pending = []
          let (item, forwarderIn) :=
            ({s.forwarderIn with buffer := s.forwarderIn.buffer ++ chunk}).next ended
          match item with
          | none => some {s with toForwarder, forwarderIn}
          | some none =>
              (s.forwarder.step jsonC jsonR true .closeDaemon).map fun result =>
                {s with toForwarder, forwarderIn, forwarder := result.1}
          | some (some (.ok data)) =>
              (s.forwarder.step jsonC jsonR true (.offerDaemon data)).map fun result =>
                {s with toForwarder, forwarderIn, forwarder := result.1}
          | some (some (.error _)) => none
  | _ => none

/-- The manager reads when it polls the transport. -/
def managerReads (s : DaemonChannel C R) (n : Nat) : Option (DaemonChannel C R) :=
  match s.manager.phase with
  | .clearing | .selecting .transport _ =>
      (s.toManager.read n).map fun (chunk, toManager) =>
        let managerIn := {s.managerIn with buffer := s.managerIn.buffer ++ chunk}
        {s with toManager, managerIn}
  | _ => none

/-- One write of a send in progress. -/
def put (pipe : Pipe UInt8) (out : Bytes) (n : Nat) : Option (Pipe UInt8 × Bytes) :=
  if n = 0 ∨ out.length < n then none
  else
    match pipe.write daemonChannelBufSize (out.take n) with
    | some (.ok pipe) => some (pipe, out.drop n)
    | _ => none

def step (s : DaemonChannel C R) : ChannelAction C → Option (DaemonChannel C R)
  | .forwarder a =>
      if s.forwarderMay a then
        (s.forwarder.step jsonC jsonR true a).map fun result => s.afterForwarder result.1
      else none
  | .forwarderReads n => s.forwarderReads jsonC jsonR n
  | .forwarderPuts n =>
      (put s.toManager s.forwarderOut n).map fun (toManager, forwarderOut) =>
        {s with toManager, forwarderOut}
  | .manager a =>
      if s.managerMay a then (newRpcClient s.manager a).map (s.afterManager a) else none
  | .managerReads n => s.managerReads n
  | .managerPuts n =>
      (put s.toForwarder s.managerOut n).map fun (toForwarder, managerOut) =>
        {s with toForwarder, managerOut}

/-! ### Deadlock -/

/-- Both loops are suspended in a send on a full pipe. -/
def Deadlocked (s : DaemonChannel C R) : Prop :=
  (sendingDaemon s.forwarder.phase).isSome ∧ s.forwarderOut ≠ [] ∧
    s.toManager.room daemonChannelBufSize = 0 ∧
    (sendingUp s.manager.phase).isSome ∧ s.managerOut ≠ [] ∧
    s.toForwarder.room daemonChannelBufSize = 0

/-- There is room for the rest of the forwarder's message. -/
def ForwarderFits (s : DaemonChannel C R) : Prop :=
  s.forwarderOut.length ≤ s.toManager.room daemonChannelBufSize

def ManagerFits (s : DaemonChannel C R) : Prop :=
  s.managerOut.length ≤ s.toForwarder.room daemonChannelBufSize

/-- The message that the forwarder begins to send in this step. -/
def forwarderStarts (s : DaemonChannel C R) (a : EndAction C) : Option Bytes :=
  match sendingDaemon s.forwarder.phase with
  | some _ => none
  | none => (s.forwarder.step jsonC jsonR true a).bind fun result => sendingDaemon result.1.phase

def managerStarts (s : DaemonChannel C R) (a : ManagerAction) : Option Bytes :=
  match sendingUp s.manager.phase with
  | some _ => none
  | none => (newRpcClient s.manager a).bind fun manager => sendingUp manager.phase

/-- A loop that begins to send a message for which its pipe has no room finds
the other loop without a send that is short of room. -/
def Relieved (s : DaemonChannel C R) : ChannelAction C → Prop
  | .forwarder a => ∀ data ∈ s.forwarderStarts jsonC jsonR a,
      s.toManager.room daemonChannelBufSize < (framed data).length → s.ManagerFits
  | .manager a => ∀ data ∈ s.managerStarts a,
      s.toForwarder.room daemonChannelBufSize < (framed data).length → s.ForwarderFits
  | _ => True

instance (s : DaemonChannel C R) (a : ChannelAction C) : Decidable (Relieved jsonC jsonR s a) := by
  unfold Relieved ManagerFits ForwarderFits
  split <;> infer_instance

/-! ### The invariant -/

def Fits (s : DaemonChannel C R) : Prop := s.ForwarderFits ∨ s.ManagerFits

theorem fits_initial : (DaemonChannel.new C R).Fits := .inl (Nat.zero_le _)

theorem fits_dropIf {s : DaemonChannel C R} (gone : Bool) (h : s.Fits) : (dropIf gone s).Fits := by
  unfold dropIf
  split
  · exact h
  · exact h

theorem put_fits {pipe next : Pipe UInt8} {out left : Bytes} {n : Nat}
    (h : put pipe out n = some (next, left))
    (hfits : out.length ≤ pipe.room daemonChannelBufSize) :
    left.length ≤ next.room daemonChannelBufSize := by
  unfold put at h
  split at h
  · cases h
  · next hn =>
    split at h
    · next pipe' hwrite =>
      cases h
      obtain ⟨_, _, rfl⟩ := Pipe.write_ok hwrite
      rw [Pipe.room_put]
      simp only [List.length_take, List.length_drop]
      omega
    · cases h

/-- A loop that neither begins nor continues a send has nothing to put into its
pipe. -/
theorem leftOver_cases (before after : Option Bytes) (out : Bytes) :
    leftOver before after out = [] ∨ leftOver before after out = out ∨
      ∃ data, before = none ∧ after = some data ∧ leftOver before after out = framed data := by
  cases before with
  | none =>
      cases after with
      | none => exact .inl rfl
      | some data => exact .inr (.inr ⟨data, rfl, rfl, rfl⟩)
  | some sent =>
      cases after with
      | none => exact .inl rfl
      | some data => exact .inr (.inl rfl)

theorem fits_forwarder {s : DaemonChannel C R} {a : EndAction C} {forwarder : Endpoint C R}
    {line : Bytes} (h : s.Fits) (hcond : Relieved jsonC jsonR s (.forwarder a))
    (hstep : s.forwarder.step jsonC jsonR true a = some (forwarder, line)) :
    (s.afterForwarder forwarder).Fits := by
  apply fits_dropIf
  rcases leftOver_cases (sendingDaemon s.forwarder.phase) (sendingDaemon forwarder.phase)
    s.forwarderOut with hnone | hsame | ⟨data, hbefore, hafter, hframed⟩
  · left
    simp [ForwarderFits, hnone]
  · simpa only [Fits, ForwarderFits, ManagerFits, hsame] using h
  · by_cases hroom : (framed data).length ≤ s.toManager.room daemonChannelBufSize
    · left
      simpa only [ForwarderFits, hframed] using hroom
    · right
      have hstarts : data ∈ s.forwarderStarts jsonC jsonR a := by
        simp [forwarderStarts, hbefore, hstep, hafter]
      exact hcond data hstarts (Nat.lt_of_not_le hroom)

theorem fits_manager {s : DaemonChannel C R} {a : ManagerAction} {manager : Manager}
    (h : s.Fits) (hcond : Relieved jsonC jsonR s (.manager a))
    (hstep : newRpcClient s.manager a = some manager) : (s.afterManager a manager).Fits := by
  apply fits_dropIf
  rcases leftOver_cases (sendingUp s.manager.phase) (sendingUp manager.phase)
    s.managerOut with hnone | hsame | ⟨data, hbefore, hafter, hframed⟩
  · right
    simp [ManagerFits, hnone]
  · simpa only [Fits, ForwarderFits, ManagerFits, hsame] using h
  · by_cases hroom : (framed data).length ≤ s.toForwarder.room daemonChannelBufSize
    · right
      simpa only [ManagerFits, hframed] using hroom
    · left
      have hstarts : data ∈ s.managerStarts a := by
        simp [managerStarts, hbefore, hstep, hafter]
      exact hcond data hstarts (Nat.lt_of_not_le hroom)

/-- Reading from a pipe only makes room in it. -/
theorem fits_forwarderReads {s next : DaemonChannel C R} {n : Nat} (h : s.Fits)
    (hstep : s.forwarderReads jsonC jsonR n = some next) : next.Fits := by
  unfold forwarderReads at hstep
  split at hstep
  · obtain ⟨⟨chunk, toForwarder⟩, hread, hrest⟩ := Option.bind_eq_some_iff.mp hstep
    have hroom : s.toForwarder.room daemonChannelBufSize ≤
        toForwarder.room daemonChannelBufSize := by
      split at hread
      · cases hread
        exact Nat.le_refl _
      · exact Pipe.room_le_of_read hread
    have hnext : next.forwarderOut = s.forwarderOut ∧ next.toManager = s.toManager ∧
        next.managerOut = s.managerOut ∧ next.toForwarder = toForwarder := by
      simp only at hrest
      split at hrest
      · cases hrest
        exact ⟨rfl, rfl, rfl, rfl⟩
      · obtain ⟨result, _, rfl⟩ := Option.map_eq_some_iff.mp hrest
        exact ⟨rfl, rfl, rfl, rfl⟩
      · obtain ⟨result, _, rfl⟩ := Option.map_eq_some_iff.mp hrest
        exact ⟨rfl, rfl, rfl, rfl⟩
      · cases hrest
    obtain ⟨hforwarderOut, htoManager, hmanagerOut, rfl⟩ := hnext
    refine h.imp ?_ ?_
    · intro hfits
      simpa only [ForwarderFits, hforwarderOut, htoManager] using hfits
    · intro hfits
      unfold ManagerFits at *
      rw [hmanagerOut]
      exact hfits.trans hroom
  · cases hstep

theorem fits_managerReads {s next : DaemonChannel C R} {n : Nat} (h : s.Fits)
    (hstep : s.managerReads n = some next) : next.Fits := by
  unfold managerReads at hstep
  split at hstep
  case h_3 => cases hstep
  all_goals
    obtain ⟨⟨chunk, toManager⟩, hread, rfl⟩ := Option.map_eq_some_iff.mp hstep
    refine h.imp ?_ id
    intro hfits
    exact hfits.trans (Pipe.room_le_of_read hread)

theorem fits_step (s : DaemonChannel C R) (a : ChannelAction C) (next : DaemonChannel C R)
    (h : s.Fits) (hcond : Relieved jsonC jsonR s a) (hstep : s.step jsonC jsonR a = some next) :
    next.Fits := by
  cases a with
  | forwarder a =>
      simp only [step] at hstep
      split at hstep
      · obtain ⟨⟨forwarder, line⟩, hforwarder, rfl⟩ := Option.map_eq_some_iff.mp hstep
        exact fits_forwarder jsonC jsonR h hcond hforwarder
      · cases hstep
  | forwarderReads n => exact fits_forwarderReads jsonC jsonR h hstep
  | forwarderPuts n =>
      obtain ⟨⟨pipe, left⟩, hput, rfl⟩ := Option.map_eq_some_iff.mp hstep
      exact h.imp (put_fits hput) id
  | manager a =>
      simp only [step] at hstep
      split at hstep
      · obtain ⟨manager, hmanager, rfl⟩ := Option.map_eq_some_iff.mp hstep
        exact fits_manager jsonC jsonR h hcond hmanager
      · cases hstep
  | managerReads n => exact fits_managerReads h hstep
  | managerPuts n =>
      obtain ⟨⟨pipe, left⟩, hput, rfl⟩ := Option.map_eq_some_iff.mp hstep
      exact h.imp id (put_fits hput)

/-- In every run in which no loop begins a send that does not fit while the
other one is in such a send, the two loops never wait for each other. -/
theorem never_deadlocked (actions : List (ChannelAction C)) (s : DaemonChannel C R)
    (hmeets : Meets (step jsonC jsonR) (Relieved jsonC jsonR) (.new C R) actions)
    (hrun : run (step jsonC jsonR) (.new C R) actions = some s) : ¬ s.Deadlocked := by
  have hfits : s.Fits :=
    run_preserves_of_meets (fits_step jsonC jsonR) actions fits_initial hmeets hrun
  rintro ⟨_, hforwarder, hfull, _, hmanager, hfull'⟩
  rcases hfits with hfits | hfits
  · rw [ForwarderFits, hfull] at hfits
    exact hforwarder (List.length_eq_zero_iff.mp (Nat.le_zero.mp hfits))
  · rw [ManagerFits, hfull'] at hfits
    exact hmanager (List.length_eq_zero_iff.mp (Nat.le_zero.mp hfits))

/-! ### Runs -/

/-- The server's handshake arrives and the forwarder answers with its own. -/
def connect : List (ChannelAction Bool) :=
  [.forwarder (.poll [.ok [0, 0, 0, 9, 0, 0x4D, 0x55, 0x4C, 0x4C, 0x56, 0x34, 0x44, 0x3B]] none),
    .forwarder (.complete true), .forwarder (.poll [] none), .forwarder (.complete true)]

/-- A byte of the client and a byte of the daemon cross: both loops are in the
middle of a send when their messages are in the pipes. -/
def oneByteEach : List (ChannelAction Bool) :=
  [.manager .call, .manager .nextChannel, .manager (.clear false),
    .manager (.client 0 (.write [7])), .manager .pollReset, .manager (.pollTransport none),
    .manager (.pollChannel 1), .forwarder (.poll [.ok [0, 0, 0, 2, 2, 5]] none),
    .managerPuts 5, .forwarderPuts 5]

theorem one_byte_not_deadlocked :
    ∃ s, run (step boolJson boolJson) (.new Bool Bool) (connect ++ oneByteEach) = some s ∧
      (sendingDaemon s.forwarder.phase, sendingUp s.manager.phase) = (some [5], some [7]) ∧
      (s.toManager.written, s.toForwarder.written) = ([0, 0, 0, 1, 5], [0, 0, 0, 1, 7]) ∧
      ¬ s.Deadlocked := by
  have hsending : (run (step boolJson boolJson) (.new Bool Bool) (connect ++ oneByteEach)).map
      (fun s => ((sendingDaemon s.forwarder.phase, sendingUp s.manager.phase),
        (s.toManager.written, s.toForwarder.written))) =
      some ((some [5], some [7]), ([0, 0, 0, 1, 5], [0, 0, 0, 1, 7])) := by decide
  obtain ⟨s, hrun, hs⟩ := Option.map_eq_some_iff.mp hsending
  obtain ⟨hphases, hwritten⟩ := Prod.ext_iff.mp hs
  exact ⟨s, hrun, hphases, hwritten, never_deadlocked boolJson boolJson _ s (by decide) hrun⟩

/-- The client fills its channel, and the manager reads all of it. -/
def fill (data : Bytes) : List (ChannelAction Bool) :=
  [ChannelAction.manager .call, .manager .nextChannel, .manager (.clear false)] ++
    (ChannelAction.manager (.client 0 (.write data)) ::
      ([ChannelAction.manager .pollReset, .manager (.pollTransport none)] ++
        [ChannelAction.manager (.pollChannel converterBufSize)]))

/-- A message of the same size comes from the daemon, and both loops put as much
into their pipes as there is room for. -/
def crossing (data : Bytes) : List (ChannelAction Bool) :=
  [.forwarder (.poll [.ok (Frame.daemonRpc data).wire] none), .managerPuts daemonChannelBufSize,
    .forwarderPuts daemonChannelBufSize]

def connected : DaemonChannel Bool Bool :=
  {DaemonChannel.new Bool Bool with
    forwarder := {Endpoint.new Bool Bool false with
      serial := ⟨⟨.head, true⟩, [], false, false⟩
      handshakes := 0
      emitted := [.handshake]
      received := [.handshake]}}

theorem run_connect :
    run (step boolJson boolJson) (.new Bool Bool) connect = some connected := rfl

def serving : Manager :=
  {Manager.new with phase := .selecting .reset false, opened := 1, accepted := 1, iteration := 1}

/-- The manager in front of a channel that holds `data`. -/
def holding (data : Bytes) (phase : ManagerPhase) : Manager :=
  {serving.setChannel 0 {ManagementChannel.new with fromClient := Pipe.new.put data} with phase}

/-- The manager has read all of it and begins to send. -/
def sendingAll (data : Bytes) : DaemonChannel Bool Bool :=
  {connected with
    manager := {(holding data (.selecting .channel false)).took
      ((Pipe.new.put data).advance converterBufSize) with phase := .sending data}
    managerOut := framed data}

theorem client_fills {data : Bytes} (hlen : data.length = converterBufSize) :
    newRpcClient serving (.client 0 (.write data)) =
      some (holding data (.selecting .reset false)) := by
  have hpipe : (serving.channels 0).fromClient = Pipe.new := rfl
  have hwrite : (Pipe.new : Pipe UInt8).write converterBufSize data =
      some (.ok (Pipe.new.put data)) := by
    simp [Pipe.write, Pipe.room, hlen]
  simp only [newRpcClient, ManagementChannel.client, hpipe, hwrite]
  rfl

theorem manager_reads_all {data : Bytes} (hlen : data.length = converterBufSize) :
    newRpcClient (holding data (.selecting .channel false)) (.pollChannel converterBufSize) =
      some (sendingAll data).manager := by
  have hpipe : (holding data (.selecting .channel false)).channel.fromClient =
      Pipe.new.put data := rfl
  have hne : data ≠ [] := by
    rintro rfl
    cases hlen
  have hread : (Pipe.new.put data).read converterBufSize =
      some (data, (Pipe.new.put data).advance converterBufSize) := by
    have hpending : (Pipe.new.put data).pending = data := by simp
    have htake : data.take converterBufSize = data := List.take_of_length_le (by omega)
    have hn : 0 < converterBufSize ∧ converterBufSize ≤ data.length := ⟨by decide, by omega⟩
    simp only [Pipe.read, hpending, if_neg hne, if_pos hn, htake]
  simp only [newRpcClient, hpipe, hread]
  rfl

theorem step_manager {s : DaemonChannel C R} {a : ManagerAction} {m : Manager}
    (hmay : s.managerMay a = true) (hstep : newRpcClient s.manager a = some m) :
    s.step jsonC jsonR (.manager a) = some (s.afterManager a m) := by
  simp [step, hmay, hstep]

theorem run_fill {data : Bytes} (hlen : data.length = converterBufSize) :
    run (step boolJson boolJson) connected (fill data) = some (sendingAll data) := by
  have hserving : run (step boolJson boolJson) connected
      [.manager .call, .manager .nextChannel, .manager (.clear false)] =
        some {connected with manager := serving} := rfl
  have hwrite : step boolJson boolJson {connected with manager := serving}
      (.manager (.client 0 (.write data))) =
        some {connected with manager := holding data (.selecting .reset false)} := by
    rw [step_manager boolJson boolJson rfl (client_fills hlen)]
    rfl
  have hpending : run (step boolJson boolJson)
      {connected with manager := holding data (.selecting .reset false)}
      [.manager .pollReset, .manager (.pollTransport none)] =
        some {connected with manager := holding data (.selecting .channel false)} := rfl
  have hread : step boolJson boolJson
      {connected with manager := holding data (.selecting .channel false)}
      (.manager (.pollChannel converterBufSize)) = some (sendingAll data) := by
    rw [step_manager boolJson boolJson rfl (manager_reads_all hlen)]
    rfl
  rw [fill, run_append, hserving, Option.bind_some, run, hwrite, Option.bind_some, run_append,
    hpending, Option.bind_some, run, hread]
  rfl

theorem poll_wire {f : Frame} (hf : f.Fits) :
    SerialStream.pollNext [.ok f.wire] ⟨⟨.head, true⟩, [], false, false⟩ =
      some (.ready (some (.ok f)), ⟨⟨.head, true⟩, [], true, false⟩) := by
  obtain ⟨rest, hhead⟩ := f.wire_head hf
  have hdecode := decode_wire f hf
  rw [hhead] at hdecode ⊢
  simp [SerialStream.pollNext, SerialStream.tryDecode, hdecode]

theorem poll_daemonRpc {data : Bytes} (hlen : data.length = converterBufSize) :
    ∃ forwarder, connected.forwarder.step boolJson boolJson true
        (.poll [.ok (Frame.daemonRpc data).wire] none) = some (forwarder, []) ∧
      forwarder.phase = .performing (.sendDaemon data) := by
  have hfits : (Frame.daemonRpc data).Fits := by
    simp only [Frame.Fits, Frame.payload, maxFrameLength, hlen, converterBufSize]
    omega
  have hpoll : connected.forwarder.serial.pollNext [.ok (Frame.daemonRpc data).wire] = _ :=
    poll_wire hfits
  have hphase : connected.forwarder.phase = .selecting := rfl
  refine ⟨{connected.forwarder with
    serial := ⟨⟨.head, true⟩, [], true, false⟩
    received := [.handshake, .daemonRpc data]
    phase := .performing (.sendDaemon data)}, ?_, rfl⟩
  simp only [Endpoint.step, Endpoint.poll, hphase, hpoll]
  rfl

/-- A message that is longer than the pipe fills it and is not done. -/
theorem put_new {out : Bytes} (hlen : daemonChannelBufSize < out.length) :
    ∃ pipe left, put Pipe.new out daemonChannelBufSize = some (pipe, left) ∧ left ≠ [] ∧
      pipe.room daemonChannelBufSize = 0 := by
  refine ⟨Pipe.new.put (out.take daemonChannelBufSize), out.drop daemonChannelBufSize, ?_, ?_, ?_⟩
  · have hn : ¬ (daemonChannelBufSize = 0 ∨ out.length < daemonChannelBufSize) := by
      have hpos : 0 < daemonChannelBufSize := by decide
      omega
    have hfits : (out.take daemonChannelBufSize).length ≤
        (Pipe.new : Pipe UInt8).room daemonChannelBufSize := by
      simp [Pipe.room]
    simp only [put, if_neg hn, Pipe.write, Pipe.closed_new, Bool.false_eq_true, if_false,
      if_pos hfits]
  · intro hnil
    have hle := List.drop_eq_nil_iff.mp hnil
    omega
  · rw [Pipe.room_put]
    simp only [Pipe.room, Pipe.pending_new, List.length_take, List.length_nil]
    omega

/-- The two loops in the middle of their sends. -/
def midway (data : Bytes) (forwarder : Endpoint Bool Bool) (forwarderOut managerOut : Bytes)
    (toManager toForwarder : Pipe UInt8) : DaemonChannel Bool Bool :=
  {sendingAll data with forwarder, forwarderOut, managerOut, toManager, toForwarder}

theorem step_poll {data : Bytes} {forwarder : Endpoint Bool Bool}
    (hpoll : connected.forwarder.step boolJson boolJson true
      (.poll [.ok (Frame.daemonRpc data).wire] none) = some (forwarder, []))
    (hphase : forwarder.phase = .performing (.sendDaemon data)) :
    step boolJson boolJson (sendingAll data)
        (.forwarder (.poll [.ok (Frame.daemonRpc data).wire] none)) =
      some (midway data forwarder (framed data) (framed data) .new .new) := by
  have hstep : (sendingAll data).forwarder.step boolJson boolJson true
      (.poll [.ok (Frame.daemonRpc data).wire] none) = some (forwarder, []) := hpoll
  have hmay : (sendingAll data).forwarderMay
      (.poll [.ok (Frame.daemonRpc data).wire] none) = true := rfl
  simp only [step, hmay, if_true, hstep, Option.map_some, afterForwarder, hphase, sendingDaemon,
    leftOver]
  rfl

/-- Two messages of one full read each, header included, do not fit into the
pipes: if they cross, neither loop gets any further. -/
theorem crossing_deadlocks {data : Bytes} (hlen : data.length = converterBufSize) :
    ∃ s, run (step boolJson boolJson) (.new Bool Bool)
        (connect ++ (fill data ++ crossing data)) = some s ∧ s.Deadlocked := by
  have hmax : data.length ≤ maxFrameLength := by
    rw [hlen]
    decide
  have hlong : daemonChannelBufSize < (framed data).length := by
    rw [length_framed hmax, hlen]
    decide
  obtain ⟨forwarder, hpoll, hphase⟩ := poll_daemonRpc hlen
  obtain ⟨pipe, left, hput, hleft, hfull⟩ := put_new hlong
  have hmanager : step boolJson boolJson
      (midway data forwarder (framed data) (framed data) .new .new)
      (.managerPuts daemonChannelBufSize) =
        some (midway data forwarder (framed data) left .new pipe) := by
    simp only [step, midway, hput, Option.map_some]
  have hforwarder : step boolJson boolJson
      (midway data forwarder (framed data) left .new pipe)
      (.forwarderPuts daemonChannelBufSize) =
        some (midway data forwarder left left pipe pipe) := by
    simp only [step, midway, hput, Option.map_some]
  refine ⟨midway data forwarder left left pipe pipe, ?_, ?_⟩
  · rw [run_append, run_connect, Option.bind_some, run_append, run_fill hlen, Option.bind_some,
      crossing, run, step_poll hpoll hphase, Option.bind_some, run, hmanager, Option.bind_some,
      run, hforwarder]
    rfl
  · refine ⟨?_, hleft, hfull, rfl, hleft, hfull⟩
    simp [midway, hphase, sendingDaemon]

theorem full_reads_deadlock :
    ∃ s, run (step boolJson boolJson) (.new Bool Bool)
        (connect ++ (fill (List.replicate converterBufSize 0) ++
          crossing (List.replicate converterBufSize 0))) = some s ∧ s.Deadlocked :=
  crossing_deadlocks List.length_replicate

end DaemonChannel

end MullvadAppTests.TestManager
