import MullvadAppTests.Lib.Transition
import MullvadAppTests.TestRunner.TryPollOutput

/-!
The output of the runner that `run_test` of `test-manager/src/logging.rs` collects
for a failed test. The manager polls once before a test, to get rid of what was
logged earlier, and once after a test that failed. The runner logs at any time,
also between two `try_recv`s of one poll.
-/

namespace MullvadAppTests.TestManager.ErrorMessages

open Lib Lib.Transition TestRunner

/-- Where `run_test` stands. `served` is how many records had been sent when the
poll at the start was served. -/
inductive Phase where
  | idle
  | flushing (poll : Poll)
  | testing (served : Nat)
  | collecting (served : Nat) (poll : Poll)
  deriving DecidableEq, Repr

/-- The `error_messages` of a failed test; `served` and `collected` say how many
records had been sent when its two polls were served. -/
structure Collected where
  served : Nat
  collected : Nat
  errorMessages : List Output
  deriving DecidableEq, Repr

/-- `collected` is a history. -/
structure Session where
  channel : Broadcast Output
  phase : Phase
  collected : List Collected

inductive Action where
  | log (record : Record)
  | runTest
  | tryRecv
  | testEnds (failed : Bool)
  deriving DecidableEq, Repr

/-- The `match` on `output_after_test`. -/
def messages : Except LoggerError (List Output) → List Output
  | .ok outputAfterTest => outputAfterTest
  | .error .standardOutput => [.other "could not get logs: Logger(StandardOutput)".toList]

/-- The result of the poll at the start is ignored. -/
def step (capacity : Nat) (s : Session) (a : Action) : Option Session :=
  match a, s.phase with
  | .log record, _ => some {s with channel := StdOutBuffer.log record s.channel}
  | .runTest, .idle => some {s with phase := .flushing .first}
  | .tryRecv, .flushing poll =>
      match poll.step capacity s.channel with
      | (.polling poll, channel) => some {s with channel, phase := .flushing poll}
      | (.served _, channel) => some {s with channel, phase := .testing channel.sent.length}
  | .testEnds failed, .testing served =>
      some {s with phase := if failed then .collecting served .first else .idle}
  | .tryRecv, .collecting served poll =>
      match poll.step capacity s.channel with
      | (.polling poll, channel) => some {s with channel, phase := .collecting served poll}
      | (.served result, channel) =>
          some ⟨channel, .idle, s.collected ++ [⟨served, channel.sent.length, messages result⟩]⟩
  | _, _ => none

def start : Session := ⟨.new, .idle, []⟩

/-- The records among the messages are some of those sent after the poll at the
start was served, in that order and each once; and all of them if they are fewer
than the channel holds. -/
structure Attributed (capacity : Nat) (sent : List Output) (entry : Collected) : Prop where
  only : (entry.errorMessages.filter (·.isRecord)).Sublist (sent.drop entry.served)
  all : entry.collected - entry.served < capacity →
    entry.errorMessages = (sent.take entry.collected).drop entry.served

def Phase.isFlushing : Phase → Bool
  | .flushing _ => true
  | _ => false

/-- The poll at the start of a test does not find that it has fallen behind. -/
def FlushKeepsUp (capacity : Nat) (s : Session) (a : Action) : Prop :=
  a = .tryRecv → s.phase.isFlushing = true → s.channel.KeepsUp capacity

instance (capacity : Nat) (s : Session) (a : Action) : Decidable (FlushKeepsUp capacity s a) :=
  inferInstanceAs (Decidable (_ → _ → _))

/-! ### Steps -/

/-- The receiver stands where the poll at the start has left it, or behind the
records that the poll at the end has taken out. -/
def Phase.Holds (channel : Broadcast Output) : Phase → Prop
  | .idle => True
  | .flushing _ => True
  | .testing served => channel.next = served
  | .collecting served poll =>
      served ≤ channel.next ∧ poll.buffer = (channel.sent.take channel.next).drop served

structure Inv (capacity : Nat) (s : Session) : Prop where
  phase : s.phase.Holds s.channel
  sent : ∀ o ∈ s.channel.sent, o.isRecord = true
  within : ∀ entry ∈ s.collected, entry.collected ≤ s.channel.sent.length
  attributed : ∀ entry ∈ s.collected, Attributed capacity s.channel.sent entry

theorem Attributed.append {capacity : Nat} {sent : List Output} {entry : Collected}
    (h : Attributed capacity sent entry) (hwithin : entry.collected ≤ sent.length)
    (new : List Output) : Attributed capacity (sent ++ new) entry where
  only := by
    refine h.only.trans ?_
    rw [List.drop_append]
    exact List.sublist_append_left _ _
  all := by
    intro hfewer
    rw [h.all hfewer, List.take_append_of_le_length hwithin]

theorem Phase.Holds.append {phase : Phase} {channel after : Broadcast Output}
    (h : phase.Holds channel) (hnext : after.next = channel.next) {new : List Output}
    (hsent : after.sent = channel.sent ++ new) : phase.Holds after := by
  cases phase with
  | idle => trivial
  | flushing poll => trivial
  | testing served => exact hnext.trans h
  | collecting served poll =>
      obtain ⟨hle, hbuffer⟩ := h
      refine ⟨by omega, ?_⟩
      rw [hbuffer, hnext, hsent, List.take_append_of_le_length channel.next_le]

theorem inv_log {capacity : Nat} {s : Session} (h : Inv capacity s) (record : Record) :
    Inv capacity {s with channel := StdOutBuffer.log record s.channel} := by
  obtain ⟨hnext, new, hsent, hnew⟩ := StdOutBuffer.log_cases record s.channel
  constructor
  · exact h.phase.append hnext hsent
  · intro o ho
    rw [hsent, List.mem_append] at ho
    exact ho.elim (h.sent o) (hnew o)
  · intro entry hentry
    have hle := h.within entry hentry
    simp only [hsent, List.length_append]
    omega
  · intro entry hentry
    simp only [hsent]
    exact (h.attributed entry hentry).append (h.within entry hentry) new

/-- Steps of the receiver leave what was sent alone. -/
theorem Inv.receive {capacity : Nat} {s : Session} (h : Inv capacity s)
    {channel : Broadcast Output} (hsent : channel.sent = s.channel.sent) {phase : Phase}
    (hphase : phase.Holds channel) : Inv capacity ⟨channel, phase, s.collected⟩ where
  phase := hphase
  sent := by rw [hsent]; exact h.sent
  within := by rw [hsent]; exact h.within
  attributed := by rw [hsent]; exact h.attributed

/-- The poll at the start takes out everything that was sent before it ends. -/
theorem inv_flush {capacity : Nat} {s next : Session} {poll : Poll} (h : Inv capacity s)
    (hphase : s.phase = .flushing poll) (hkeeps : s.channel.KeepsUp capacity)
    (hstep : step capacity s .tryRecv = some next) : Inv capacity next := by
  simp only [step, hphase] at hstep
  obtain ⟨hempty, hpoll⟩ | ⟨hbehind, _⟩ | ⟨o, after, _, _, hpoll, hsent, _⟩ :=
    poll.step_cases capacity s.channel
  · rw [hpoll] at hstep
    cases hstep
    exact h.receive rfl hempty
  · exact absurd hkeeps hbehind
  · rw [hpoll] at hstep
    cases hstep
    exact h.receive hsent trivial

/-- The messages of a poll that finds nothing left. -/
theorem attributed_of_empty {capacity served : Nat} {poll : Poll} {channel : Broadcast Output}
    (h : (Phase.collecting served poll).Holds channel) (hempty : channel.next = channel.sent.length) :
    Attributed capacity channel.sent ⟨served, channel.sent.length, poll.buffer⟩ := by
  obtain ⟨_, hbuffer⟩ := h
  rw [hempty] at hbuffer
  constructor
  · have hall : poll.buffer = channel.sent.drop served := by
      rw [hbuffer, List.take_length]
    simp only [hall]
    exact List.filter_sublist
  · exact fun _ => hbuffer

/-- The messages of a poll that has fallen behind: it can only have done so when
the channel has overflowed since the poll at the start. -/
theorem attributed_of_behind {capacity served : Nat} {poll : Poll} {channel : Broadcast Output}
    {result : Except LoggerError (List Output)}
    (h : (Phase.collecting served poll).Holds channel) (hbehind : ¬channel.KeepsUp capacity)
    (hresult : result = .error .standardOutput ∧ poll = .first ∨
      result = .ok poll.buffer ∧ poll ≠ .first) :
    Attributed capacity channel.sent ⟨served, channel.sent.length, messages result⟩ := by
  obtain ⟨hle, hbuffer⟩ := h
  constructor
  · rcases hresult with ⟨rfl, _⟩ | ⟨rfl, _⟩
    · exact List.nil_sublist _
    · simp only [messages, hbuffer]
      exact List.filter_sublist.trans ((List.take_sublist _ _).drop served)
  · intro hfewer
    exfalso
    simp only [Broadcast.KeepsUp] at hbehind hfewer
    omega

theorem Inv.collect {capacity served : Nat} {s : Session} {channel : Broadcast Output}
    {errorMessages : List Output} (h : Inv capacity s) (hsent : channel.sent = s.channel.sent)
    (hentry : Attributed capacity s.channel.sent ⟨served, s.channel.sent.length, errorMessages⟩) :
    Inv capacity ⟨channel, .idle,
      s.collected ++ [⟨served, channel.sent.length, errorMessages⟩]⟩ where
  phase := trivial
  sent := by rw [hsent]; exact h.sent
  within := by
    intro entry hmem
    rw [hsent] at hmem ⊢
    rcases List.mem_append.mp hmem with hold | hnew
    · exact h.within entry hold
    · rw [List.mem_singleton.mp hnew]
  attributed := by
    intro entry hmem
    rw [hsent] at hmem ⊢
    rcases List.mem_append.mp hmem with hold | hnew
    · exact h.attributed entry hold
    · rwa [List.mem_singleton.mp hnew]

theorem inv_collect {capacity served : Nat} {s next : Session} {poll : Poll}
    (h : Inv capacity s) (hphase : s.phase = .collecting served poll)
    (hstep : step capacity s .tryRecv = some next) : Inv capacity next := by
  have hholds : (Phase.collecting served poll).Holds s.channel := hphase ▸ h.phase
  simp only [step, hphase] at hstep
  obtain ⟨hempty, hpoll⟩ | ⟨hbehind, result, after, hpoll, hresult, hsent, _⟩ |
    ⟨o, after, ho, _, hpoll, hsent, hnext⟩ := poll.step_cases capacity s.channel
  · rw [hpoll] at hstep
    cases hstep
    exact h.collect rfl (attributed_of_empty hholds hempty)
  · rw [hpoll] at hstep
    cases hstep
    exact h.collect hsent (attributed_of_behind hholds hbehind hresult)
  · rw [hpoll] at hstep
    cases hstep
    obtain ⟨hle, hbuffer⟩ := hholds
    apply h.receive hsent
    refine ⟨by omega, ?_⟩
    rw [hsent, hnext, Broadcast.slice_succ hle ho, ← hbuffer]
    rfl

theorem inv_step {capacity : Nat} (s : Session) (a : Action) (next : Session)
    (h : Inv capacity s) (hkeeps : FlushKeepsUp capacity s a)
    (hstep : step capacity s a = some next) : Inv capacity next := by
  cases a with
  | log record =>
      cases hstep
      exact inv_log h record
  | runTest =>
      cases hphase : s.phase with
      | idle =>
          simp only [step, hphase, Option.some.injEq] at hstep
          subst hstep
          exact h.receive rfl trivial
      | flushing poll => simp [step, hphase] at hstep
      | testing served => simp [step, hphase] at hstep
      | collecting served poll => simp [step, hphase] at hstep
  | tryRecv =>
      cases hphase : s.phase with
      | idle => simp [step, hphase] at hstep
      | flushing poll =>
          exact inv_flush h hphase (hkeeps rfl (by rw [hphase]; rfl)) hstep
      | testing served => simp [step, hphase] at hstep
      | collecting served poll => exact inv_collect h hphase hstep
  | testEnds failed =>
      cases hphase : s.phase with
      | idle => simp [step, hphase] at hstep
      | flushing poll => simp [step, hphase] at hstep
      | testing served =>
          have hholds : (Phase.testing served).Holds s.channel := hphase ▸ h.phase
          simp only [step, hphase, Option.some.injEq] at hstep
          subst hstep
          apply h.receive rfl
          cases failed with
          | false => trivial
          | true =>
              have hnext : s.channel.next = served := hholds
              refine ⟨hnext.ge, ?_⟩
              rw [hnext, List.drop_eq_nil_of_le (by simp)]
              rfl
      | collecting served poll => simp [step, hphase] at hstep

/-- In every run in which no poll at the start of a test falls behind, the output
of the runner is attributed to the test during which it was logged. -/
theorem error_messages_attributed (capacity : Nat) (actions : List Action) (last : Session)
    (hkeeps : Meets (step capacity) (FlushKeepsUp capacity) start actions)
    (hrun : run (step capacity) start actions = some last) :
    (∀ o ∈ last.channel.sent, o.isRecord = true) ∧
      ∀ entry ∈ last.collected, Attributed capacity last.channel.sent entry := by
  have hinit : Inv capacity start :=
    ⟨trivial, by simp [start, Broadcast.new], by simp [start], by simp [start]⟩
  have hinv := run_preserves_of_meets inv_step actions hinit hkeeps hrun
  exact ⟨hinv.sent, hinv.attributed⟩

def infoRecord (text : String) : Record := ⟨.info, "test_runner".toList, text.toList⟩

/-- Two records before the test and one while it runs. -/
def oneTest : List Action :=
  [Action.log (infoRecord "starting"), .log (infoRecord "started"), .runTest, .tryRecv, .tryRecv,
    .tryRecv, .log (infoRecord "install failed"), .testEnds true, .tryRecv, .tryRecv]

theorem oneTest_attributed :
    ∃ last, run (step 2) start oneTest = some last ∧
      last.collected = [⟨2, 3, [.info "install failed".toList]⟩] ∧
      ∀ entry ∈ last.collected, Attributed 2 last.channel.sent entry := by
  refine ⟨_, rfl, by decide, ?_⟩
  exact (error_messages_attributed 2 oneTest _ (by decide) rfl).2

/-! ### A poll that falls behind -/

theorem run_log (capacity : Nat) {record : Record} {o : Output}
    (houtput : StdOutBuffer.output record = some o) (n : Nat) (s : Session) :
    ∃ channel, run (step capacity) s (List.replicate n (.log record)) = some {s with channel} ∧
      channel.sent = s.channel.sent ++ List.replicate n o ∧ channel.next = s.channel.next := by
  induction n generalizing s with
  | zero => exact ⟨s.channel, rfl, by simp, rfl⟩
  | succ n ih =>
      obtain ⟨channel, hrun, hsent, hnext⟩ :=
        ih {s with channel := StdOutBuffer.log record s.channel}
      have hlog : StdOutBuffer.log record s.channel = s.channel.send o := by
        rw [StdOutBuffer.log, houtput]
      refine ⟨channel, hrun, ?_, ?_⟩
      · rw [hsent, hlog, List.replicate_succ]
        simp [Broadcast.send]
      · rw [hnext, hlog]
        rfl

/-- A poll at the end that is left alone takes out everything. -/
theorem run_collect (capacity : Nat) {served : Nat} {poll : Poll} {s : Session}
    (hphase : s.phase = .collecting served poll) (hkeeps : s.channel.KeepsUp capacity) :
    ∃ last, run (step capacity) s
        (List.replicate (s.channel.sent.length - s.channel.next + 1) .tryRecv) = some last ∧
      last.channel.sent = s.channel.sent ∧
      last.collected = s.collected ++ [⟨served, s.channel.sent.length,
        poll.buffer ++ s.channel.sent.drop s.channel.next⟩] := by
  generalize hleft : s.channel.sent.length - s.channel.next = left
  have hle := s.channel.next_le
  induction left generalizing s poll with
  | zero =>
      obtain ⟨_, hpoll⟩ | ⟨hbehind, _⟩ | ⟨o, after, ho, _⟩ := poll.step_cases capacity s.channel
      · have hstep : step capacity s .tryRecv = some ⟨s.channel, .idle,
            s.collected ++ [⟨served, s.channel.sent.length, poll.buffer⟩]⟩ := by
          simp only [step, hphase, hpoll, messages]
        refine ⟨⟨s.channel, .idle,
          s.collected ++ [⟨served, s.channel.sent.length, poll.buffer⟩]⟩, ?_, rfl, ?_⟩
        · rw [Nat.zero_add, List.replicate_one, run, hstep, Option.bind_some, run]
        · rw [List.drop_eq_nil_of_le (by omega), List.append_nil]
      · exact absurd hkeeps hbehind
      · rw [List.getElem?_eq_none (by omega)] at ho
        cases ho
  | succ left ih =>
      obtain ⟨hempty, _⟩ | ⟨hbehind, _⟩ | ⟨o, after, ho, _, hpoll, hsent, hnext⟩ :=
        poll.step_cases capacity s.channel
      · omega
      · exact absurd hkeeps hbehind
      · have hstep : step capacity s .tryRecv =
            some ⟨after, .collecting served (.draining (poll.buffer ++ [o])), s.collected⟩ := by
          simp only [step, hphase, hpoll]
        have hkeeps' : after.KeepsUp capacity := by
          simp only [Broadcast.KeepsUp, hsent, hnext] at hkeeps ⊢
          omega
        obtain ⟨last, hrun, hlast, hcollected⟩ := ih (s := ⟨after, _, s.collected⟩) rfl hkeeps'
          (by simp only [hsent, hnext]; omega) after.next_le
        refine ⟨last, ?_, hlast.trans hsent, ?_⟩
        · simp only [List.replicate_succ, run, hstep, Option.bind_some]
          exact hrun
        · obtain ⟨hlt, rfl⟩ := List.getElem?_eq_some_iff.mp ho
          rw [hcollected, hsent, hnext, List.drop_eq_getElem_cons hlt]
          simp [Poll.buffer]

/-- One record more than the channel holds, then a test that logs nothing and
fails. -/
def overflow (capacity : Nat) : List Action :=
  List.replicate (capacity + 1) (.log (infoRecord "starting")) ++
    [.runTest, .tryRecv, .testEnds true] ++ List.replicate (capacity + 1) .tryRecv

/-- The poll at the start returns an error and moves the receiver to the oldest
record that is left, so that the poll at the end finds what was logged before. -/
theorem run_overflow (capacity : Nat) :
    ∃ last, run (step capacity) start (overflow capacity) = some last ∧
      last.channel.sent = List.replicate (capacity + 1) (.info "starting".toList) ∧
      last.collected = [⟨capacity + 1, capacity + 1,
        List.replicate capacity (.info "starting".toList)⟩] := by
  have houtput : StdOutBuffer.output (infoRecord "starting") = some (.info "starting".toList) := by
    decide
  generalize Output.info "starting".toList = o at houtput ⊢
  obtain ⟨channel, hlog, hsent, hnext⟩ := run_log capacity houtput (capacity + 1) start
  have hsent : channel.sent = List.replicate (capacity + 1) o := hsent
  have hnext : channel.next = 0 := hnext
  have hbehind : ¬channel.KeepsUp capacity := by
    simp only [Broadcast.KeepsUp, hsent, hnext, List.length_replicate]
    omega
  obtain ⟨hempty, _⟩ | ⟨_, result, after, hpoll, _, hafter, hmoved⟩ | ⟨_, _, _, hkeeps, _⟩ :=
    Poll.step_cases capacity .first channel
  · simp [hsent, hnext] at hempty
  · have hmiddle : run (step capacity) {start with channel} [.runTest, .tryRecv, .testEnds true] =
        some ⟨after, .collecting after.sent.length .first, []⟩ := by
      simp only [run, step, start, hpoll, Option.bind_some, if_true]
    have hlength : after.sent.length = capacity + 1 := by
      rw [hafter, hsent, List.length_replicate]
    have hone : after.next = 1 := by
      rw [hmoved, hsent, List.length_replicate]
      omega
    obtain ⟨last, hlast, hsame, hcollected⟩ := run_collect capacity
      (s := ⟨after, .collecting after.sent.length .first, []⟩) rfl
      (by simp only [Broadcast.KeepsUp]; omega)
    refine ⟨last, ?_, ?_, ?_⟩
    · rw [overflow, run_append, run_append, hlog, Option.bind_some, hmiddle, Option.bind_some]
      simpa only [hlength, hone, Nat.add_sub_cancel] using hlast
    · rw [hsame, hafter, hsent]
    · rw [hcollected, hlength, hone, hafter, hsent]
      simp [Poll.buffer]
  · exact absurd hkeeps hbehind

theorem overflow_leaks :
    outputCapacity = 16384 ∧
      ∃ last entry, run (step outputCapacity) start (overflow outputCapacity) = some last ∧
        last.collected = [entry] ∧
        ¬Attributed outputCapacity last.channel.sent entry := by
  refine ⟨rfl, ?_⟩
  have hpos : 0 < outputCapacity := Broadcast.capacityFor_pos maxOutputBuffer
  generalize outputCapacity = capacity at hpos ⊢
  obtain ⟨last, hrun, hsent, hcollected⟩ := run_overflow capacity
  refine ⟨last, _, hrun, hcollected, ?_⟩
  rintro ⟨honly, _⟩
  rw [hsent] at honly
  simp [Output.isRecord] at honly
  omega

end MullvadAppTests.TestManager.ErrorMessages
